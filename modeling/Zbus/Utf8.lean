import Zbus.Core

/-!
`str`: byte sequences that are valid UTF-8. `core::str::from_utf8` accepts exactly the byte
sequences that `run_utf8_validation` walks to the end, one character at a time, with the lengths
and the byte ranges of the table of well-formed sequences. A `Str` carries its validity; a Lean
string becomes one through `char::encode_utf8`, whose every output is valid
(`run_utf8_validation_encode_utf8`).
-/
namespace Zbus.Utf8
open Zbus.Core

/-- `utf8_char_width`: the length of the character a first byte starts, `0` for a byte that
starts none. -/
def utf8_char_width (first : UInt8) : Nat :=
  if first.toNat < 0x80 then 1
  else if first.toNat < 0xC2 then 0
  else if first.toNat < 0xE0 then 2
  else if first.toNat < 0xF0 then 3
  else if first.toNat < 0xF5 then 4
  else 0

/-- A continuation byte, `80..=BF`. -/
def cont (b : UInt8) : Bool := 0x80 ≤ b.toNat && b.toNat ≤ 0xBF

/-- The second byte of a three-byte character: `E0` excludes overlong forms and `ED` the
surrogates. -/
def second3 (first b : UInt8) : Bool :=
  if first.toNat = 0xE0 then 0xA0 ≤ b.toNat && b.toNat ≤ 0xBF
  else if first.toNat = 0xED then 0x80 ≤ b.toNat && b.toNat ≤ 0x9F
  else cont b

/-- The second byte of a four-byte character: `F0` excludes overlong forms and `F4` what lies
past `U+10FFFF`. -/
def second4 (first b : UInt8) : Bool :=
  if first.toNat = 0xF0 then 0x90 ≤ b.toNat && b.toNat ≤ 0xBF
  else if first.toNat = 0xF4 then 0x80 ≤ b.toNat && b.toNat ≤ 0x8F
  else cont b

/-- `run_utf8_validation`, without its ASCII fast path, which decides the same. -/
def run_utf8_validation : List UInt8 → Bool
  | [] => true
  | first :: rest =>
    match utf8_char_width first, rest with
    | 1, rest => run_utf8_validation rest
    | 2, b :: rest => cont b && run_utf8_validation rest
    | 3, b :: c :: rest => second3 first b && cont c && run_utf8_validation rest
    | 4, b :: c :: d :: rest => second4 first b && cont c && cont d && run_utf8_validation rest
    | _, _ => false

theorem run_utf8_validation_one {first : UInt8} (width : utf8_char_width first = 1) (rest : List UInt8) :
    run_utf8_validation (first :: rest) = run_utf8_validation rest := by
  simp [run_utf8_validation, width]

theorem run_utf8_validation_two {first : UInt8} (width : utf8_char_width first = 2) (b : UInt8)
    (rest : List UInt8) : run_utf8_validation (first :: b :: rest) = (cont b && run_utf8_validation rest) := by
  simp [run_utf8_validation, width]

theorem run_utf8_validation_three {first : UInt8} (width : utf8_char_width first = 3) (b c : UInt8)
    (rest : List UInt8) :
    run_utf8_validation (first :: b :: c :: rest) = (second3 first b && cont c && run_utf8_validation rest) := by
  simp [run_utf8_validation, width]

theorem run_utf8_validation_four {first : UInt8} (width : utf8_char_width first = 4) (b c d : UInt8)
    (rest : List UInt8) : run_utf8_validation (first :: b :: c :: d :: rest) =
      (second4 first b && cont c && cont d && run_utf8_validation rest) := by
  simp [run_utf8_validation, width]

/-- A valid prefix ends on a character boundary, so what follows it is validated alone. -/
theorem run_utf8_validation_append {a : List UInt8} (valid : run_utf8_validation a = true)
    (b : List UInt8) : run_utf8_validation (a ++ b) = run_utf8_validation b := by
  induction a using run_utf8_validation.induct with
  | case1 => rfl
  | case2 first rest width ih =>
    rw [run_utf8_validation_one width] at valid
    rw [List.cons_append, run_utf8_validation_one width, ih valid]
  | case3 first c rest width ih =>
    rw [run_utf8_validation_two width, Bool.and_eq_true] at valid
    rw [List.cons_append, List.cons_append, run_utf8_validation_two width, ih valid.2, valid.1, Bool.true_and]
  | case4 first c d rest width ih =>
    rw [run_utf8_validation_three width, Bool.and_eq_true] at valid
    simp [run_utf8_validation_three width, ih valid.2, valid.1]
  | case5 first c d e rest width ih =>
    rw [run_utf8_validation_four width, Bool.and_eq_true] at valid
    simp [run_utf8_validation_four width, ih valid.2, valid.1]
  | case6 first rest one two three four =>
    exfalso
    unfold run_utf8_validation at valid
    split at valid
    · exact one ‹_›
    · exact two _ _ ‹_› rfl
    · exact three _ _ _ ‹_› rfl
    · exact four _ _ _ _ ‹_› rfl
    · exact Bool.false_ne_true valid

/-! ### `str` -/

/-- `str`: bytes that are valid UTF-8. -/
structure Str where
  bytes : List UInt8
  valid : run_utf8_validation bytes = true
deriving DecidableEq

@[ext] theorem Str.ext {s t : Str} (same : s.bytes = t.bytes) : s = t := by
  cases s; cases t; cases same; rfl

/-- `str::len`, in bytes. -/
def Str.len (s : Str) : Nat := s.bytes.length

/-- Concatenation, `String::push_str`. -/
def Str.append (s t : Str) : Str :=
  ⟨s.bytes ++ t.bytes, by rw [run_utf8_validation_append s.valid]; exact t.valid⟩

instance : Append Str := ⟨Str.append⟩

@[simp] theorem Str.append_bytes (s t : Str) : (s ++ t).bytes = s.bytes ++ t.bytes := rfl

/-- `core::str::from_utf8`; its `Utf8Error` carries nothing the modelled code reads. -/
def from_utf8 (bytes : List UInt8) : Option Str :=
  if valid : run_utf8_validation bytes = true then some ⟨bytes, valid⟩ else none

theorem from_utf8_bytes (s : Str) : from_utf8 s.bytes = some s := dif_pos s.valid

theorem from_utf8_eq_some {bytes : List UInt8} {s : Str} :
    from_utf8 bytes = some s ↔ s.bytes = bytes := by
  unfold from_utf8
  split
  · exact ⟨fun same => by cases same; rfl, fun same => by cases s; cases same; rfl⟩
  · exact ⟨nofun, fun same => by cases same; simp_all [s.valid]⟩

/-! ### `char::encode_utf8` -/

/-- `char::encode_utf8`: one to four bytes, by the code point's size. -/
def encode_utf8 (c : Char) : List UInt8 :=
  let code := c.val.toNat
  if code < 0x80 then [UInt8.ofNat code]
  else if code < 0x800 then [UInt8.ofNat (0xC0 + code / 0x40), UInt8.ofNat (0x80 + code % 0x40)]
  else if code < 0x10000 then
    [UInt8.ofNat (0xE0 + code / 0x1000), UInt8.ofNat (0x80 + code / 0x40 % 0x40),
      UInt8.ofNat (0x80 + code % 0x40)]
  else
    [UInt8.ofNat (0xF0 + code / 0x40000), UInt8.ofNat (0x80 + code / 0x1000 % 0x40),
      UInt8.ofNat (0x80 + code / 0x40 % 0x40), UInt8.ofNat (0x80 + code % 0x40)]

private theorem ofNat_lt {n : Nat} (small : n < 256) : (UInt8.ofNat n).toNat = n := by
  rw [UInt8.toNat_ofNat']; exact Nat.mod_eq_of_lt small

/-- A continuation byte as `encode_utf8` forms it. -/
private theorem cont_continuation (x : Nat) : cont (UInt8.ofNat (0x80 + x % 0x40)) = true := by
  simp only [cont, ofNat_lt (by omega : 0x80 + x % 0x40 < 256), Bool.and_eq_true, decide_eq_true_eq]
  omega

/-- Every character's encoding is one well-formed sequence. -/
theorem run_utf8_validation_encode_utf8 (c : Char) (rest : List UInt8) :
    run_utf8_validation (encode_utf8 c ++ rest) = run_utf8_validation rest := by
  have scalar : c.val.toNat < 0xD800 ∨ (0xDFFF < c.val.toNat ∧ c.val.toNat < 0x110000) := c.valid
  dsimp only [encode_utf8]
  generalize c.val.toNat = code at scalar ⊢
  split_ifs with one two three
  · exact run_utf8_validation_one (by unfold utf8_char_width; rw [ofNat_lt (by omega), if_pos one]) rest
  · have lead : utf8_char_width (UInt8.ofNat (0xC0 + code / 0x40)) = 2 := by
      unfold utf8_char_width; rw [ofNat_lt (by omega), if_neg (by omega), if_neg (by omega), if_pos (by omega)]
    rw [List.cons_append, List.cons_append, List.nil_append, run_utf8_validation_two lead, cont_continuation,
      Bool.true_and]
  · have lead : utf8_char_width (UInt8.ofNat (0xE0 + code / 0x1000)) = 3 := by
      unfold utf8_char_width
      rw [ofNat_lt (by omega), if_neg (by omega), if_neg (by omega), if_neg (by omega), if_pos (by omega)]
    have second : second3 (UInt8.ofNat (0xE0 + code / 0x1000)) (UInt8.ofNat (0x80 + code / 0x40 % 0x40)) = true := by
      simp only [second3, cont, ofNat_lt (by omega : 0xE0 + code / 0x1000 < 256),
        ofNat_lt (by omega : 0x80 + code / 0x40 % 0x40 < 256)]
      split_ifs <;> simp only [Bool.and_eq_true, decide_eq_true_eq] <;> omega
    rw [List.cons_append, List.cons_append, List.cons_append, List.nil_append, run_utf8_validation_three lead,
      second, cont_continuation, Bool.true_and, Bool.true_and]
  · have lead : utf8_char_width (UInt8.ofNat (0xF0 + code / 0x40000)) = 4 := by
      unfold utf8_char_width
      rw [ofNat_lt (by omega), if_neg (by omega), if_neg (by omega), if_neg (by omega), if_neg (by omega),
        if_pos (by omega)]
    have second : second4 (UInt8.ofNat (0xF0 + code / 0x40000)) (UInt8.ofNat (0x80 + code / 0x1000 % 0x40)) = true := by
      simp only [second4, cont, ofNat_lt (by omega : 0xF0 + code / 0x40000 < 256),
        ofNat_lt (by omega : 0x80 + code / 0x1000 % 0x40 < 256)]
      split_ifs <;> simp only [Bool.and_eq_true, decide_eq_true_eq] <;> omega
    rw [List.cons_append, List.cons_append, List.cons_append, List.cons_append, List.nil_append,
      run_utf8_validation_four lead, second, cont_continuation, cont_continuation, Bool.true_and, Bool.true_and,
      Bool.true_and]

theorem run_utf8_validation_flatMap (cs : List Char) :
    run_utf8_validation (cs.flatMap encode_utf8) = true := by
  induction cs with
  | nil => rfl
  | cons c cs ih => rw [List.flatMap_cons, run_utf8_validation_encode_utf8, ih]

/-- A Lean string as a `str`: the UTF-8 encoding of its characters. -/
def Str.ofString (s : String) : Str := ⟨s.data.flatMap encode_utf8, run_utf8_validation_flatMap _⟩

instance : Coe String Str := ⟨Str.ofString⟩

example : (Str.ofString "é.u").bytes = [0xC3, 0xA9, 0x2E, 0x75] := by decide

end Zbus.Utf8
