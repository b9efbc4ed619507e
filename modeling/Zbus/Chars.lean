import Zbus.Utf8

/-!
The `str` operations the machine-id code uses beyond bytes. `chars` decodes a `str` one character
at a time with `next_code_point`, as `str::chars` does, and inverts `char::encode_utf8`, so a `Str`
and a Lean `String` are two views of one value. `trim_end`, `truncate`, `from_utf8` with its error and
`CStr::from_bytes_until_nul` are the other operations of the machine-id code; `trim`, which ignores
whitespace added on either side, is the one of `Ibus::bus_address`.
-/
namespace Zbus.Chars
open Zbus.Core Zbus.Utf8

/-! ### Decoding -/

/-- `CONT_MASK`: the payload bits of a continuation byte. -/
def CONT_MASK : Nat := 0x3F

/-- `utf8_first_byte`: the payload bits of the first byte of a `width`-byte character. -/
def utf8_first_byte (byte : UInt8) (width : Nat) : Nat := byte.toNat &&& (0x7F >>> width)

/-- `utf8_acc_cont_byte`: `ch` followed by the six payload bits of a continuation byte. -/
def utf8_acc_cont_byte (ch : Nat) (byte : UInt8) : Nat := (ch <<< 6) ||| (byte.toNat &&& CONT_MASK)

/-- `next_code_point`: the code point at the start of UTF-8 bytes, and the bytes after it. The code
takes the continuation bytes unchecked, as a `str` always has them; a missing one ends the
decoding here. -/
def next_code_point : List UInt8 → Option (Nat × List UInt8)
  | [] => none
  | x :: rest =>
    if x.toNat < 128 then some (x.toNat, rest) else
    let init := utf8_first_byte x 2
    match rest with
    | [] => none
    | y :: rest =>
      if x.toNat < 0xE0 then some (utf8_acc_cont_byte init y, rest) else
      match rest with
      | [] => none
      | z :: rest =>
        let y_z := utf8_acc_cont_byte (y.toNat &&& CONT_MASK) z
        if x.toNat < 0xF0 then some ((init <<< 12) ||| y_z, rest) else
        match rest with
        | [] => none
        | w :: rest => some (((init &&& 7) <<< 18) ||| utf8_acc_cont_byte y_z w, rest)

/-- The characters `str::chars` yields from UTF-8 bytes, at most `fuel` of them: `Chars::next` is
`next_code_point` followed by `char::from_u32_unchecked`. -/
def chars_of : Nat → List UInt8 → List Char
  | 0, _ => []
  | fuel + 1, bytes =>
    match next_code_point bytes with
    | none => []
    | some (code, rest) => Char.ofNat code :: chars_of fuel rest

/-- `str::chars`, collected; a `str` has no more characters than bytes. -/
def chars (s : Str) : List Char := chars_of s.bytes.length s.bytes

/-! ### Bits as arithmetic -/

theorem shift_or (a : Nat) {b n : Nat} (small : b < 2 ^ n) : (a <<< n) ||| b = a * 2 ^ n + b := by
  rw [Nat.shiftLeft_eq, Nat.mul_comm, Nat.mul_add_lt_is_or small]

theorem utf8_first_byte_two (x : UInt8) : utf8_first_byte x 2 = x.toNat % 32 := by
  rw [utf8_first_byte, show (0x7F >>> 2 : Nat) = 2 ^ 5 - 1 by decide, Nat.and_pow_two_sub_one_eq_mod]

theorem and_cont_mask (n : Nat) : n &&& CONT_MASK = n % 64 := by
  rw [CONT_MASK, show (0x3F : Nat) = 2 ^ 6 - 1 by decide, Nat.and_pow_two_sub_one_eq_mod]

theorem utf8_acc_cont_byte_eq (ch : Nat) (b : UInt8) : utf8_acc_cont_byte ch b = ch * 64 + b.toNat % 64 := by
  rw [utf8_acc_cont_byte, and_cont_mask, shift_or ch (Nat.mod_lt _ (by decide) : b.toNat % 64 < 2 ^ 6)]; rfl

theorem and_seven (n : Nat) : n &&& 7 = n % 8 := by
  rw [show (7 : Nat) = 2 ^ 3 - 1 by decide, Nat.and_pow_two_sub_one_eq_mod]

theorem toNat_ofNat_of_lt {n : Nat} (small : n < 256) : (UInt8.ofNat n).toNat = n := by
  rw [UInt8.toNat_ofNat']; exact Nat.mod_eq_of_lt small

theorem ofNat_eq_of_toNat {b : UInt8} {n : Nat} (same : n = b.toNat) : UInt8.ofNat n = b :=
  UInt8.toNat.inj (by rw [toNat_ofNat_of_lt (same ▸ b.toNat_lt_size), same])

theorem char_ofNat_toNat {n : Nat} (valid : n.isValidChar) :
    (Char.ofNat n).val.toNat = n := by
  unfold Char.ofNat; rw [dif_pos valid]; rfl

/-! ### Decoding one character -/

theorem next_code_point_two {x y : UInt8} (lead : 128 ≤ x.toNat ∧ x.toNat < 0xE0) (rest : List UInt8) :
    next_code_point (x :: y :: rest) = some (x.toNat % 32 * 64 + y.toNat % 64, rest) := by
  simp only [next_code_point, if_neg (Nat.not_lt.mpr lead.1), if_pos lead.2, utf8_first_byte_two, utf8_acc_cont_byte_eq]

theorem next_code_point_three {x y z : UInt8} (lead : 0xE0 ≤ x.toNat ∧ x.toNat < 0xF0) (rest : List UInt8) :
    next_code_point (x :: y :: z :: rest) =
      some (x.toNat % 32 * 2 ^ 12 + (y.toNat % 64 * 64 + z.toNat % 64), rest) := by
  simp only [next_code_point, if_neg (by omega : ¬ x.toNat < 128), if_neg (by omega : ¬ x.toNat < 0xE0), if_pos lead.2,
    utf8_first_byte_two, utf8_acc_cont_byte_eq, and_cont_mask,
    shift_or _ (by omega : y.toNat % 64 * 64 + z.toNat % 64 < 2 ^ 12)]

theorem next_code_point_four {x y z w : UInt8} (lead : 0xF0 ≤ x.toNat) (rest : List UInt8) :
    next_code_point (x :: y :: z :: w :: rest) =
      some (x.toNat % 32 % 8 * 2 ^ 18 + ((y.toNat % 64 * 64 + z.toNat % 64) * 64 + w.toNat % 64), rest) := by
  simp only [next_code_point, if_neg (by omega : ¬ x.toNat < 128), if_neg (by omega : ¬ x.toNat < 0xE0),
    if_neg (by omega : ¬ x.toNat < 0xF0), utf8_first_byte_two, utf8_acc_cont_byte_eq, and_cont_mask, and_seven,
    shift_or _ (by omega : (y.toNat % 64 * 64 + z.toNat % 64) * 64 + w.toNat % 64 < 2 ^ 18)]

/-- The payload of a continuation byte as `encode_utf8` forms it. -/
theorem continuation_payload (a : Nat) : (0x80 + a % 0x40) % 64 = a % 64 := by omega

/-- `next_code_point` reads back the code point of every character's encoding. -/
theorem next_code_point_encode_utf8 (c : Char) (rest : List UInt8) :
    next_code_point (encode_utf8 c ++ rest) = some (c.val.toNat, rest) := by
  have scalar : c.val.toNat < 0xD800 ∨ (0xDFFF < c.val.toNat ∧ c.val.toNat < 0x110000) := c.valid
  dsimp only [encode_utf8]
  generalize c.val.toNat = code at scalar ⊢
  split_ifs with one two three
  · simp only [List.singleton_append, next_code_point, toNat_ofNat_of_lt (by omega : code < 256), if_pos one]
  · rw [List.cons_append, List.singleton_append, next_code_point_two]
    all_goals simp (disch := omega) only [toNat_ofNat_of_lt, continuation_payload, Option.some.injEq,
      Prod.mk.injEq, and_true]
    all_goals omega
  · rw [List.cons_append, List.cons_append, List.singleton_append, next_code_point_three]
    all_goals simp (disch := omega) only [toNat_ofNat_of_lt, continuation_payload, Option.some.injEq,
      Prod.mk.injEq, and_true]
    all_goals omega
  · rw [List.cons_append, List.cons_append, List.cons_append, List.singleton_append, next_code_point_four]
    all_goals simp (disch := omega) only [toNat_ofNat_of_lt, continuation_payload, Option.some.injEq,
      Prod.mk.injEq, and_true]
    all_goals omega

theorem encode_utf8_length_pos (c : Char) : 0 < (encode_utf8 c).length := by
  dsimp only [encode_utf8]; split_ifs <;> simp

theorem ofNat_val_toNat (c : Char) : Char.ofNat c.val.toNat = c := Char.ofNat_toNat c

/-! ### Every valid sequence is made of encoded characters -/

theorem utf8_char_width_cases (b : UInt8) :
    (utf8_char_width b = 1 ∧ b.toNat < 0x80) ∨ (utf8_char_width b = 2 ∧ 0xC2 ≤ b.toNat ∧ b.toNat < 0xE0) ∨
      (utf8_char_width b = 3 ∧ 0xE0 ≤ b.toNat ∧ b.toNat < 0xF0) ∨
      (utf8_char_width b = 4 ∧ 0xF0 ≤ b.toNat ∧ b.toNat < 0xF5) ∨ utf8_char_width b = 0 := by
  unfold utf8_char_width; split_ifs <;> omega

theorem cont_iff (b : UInt8) : cont b = true ↔ 0x80 ≤ b.toNat ∧ b.toNat ≤ 0xBF := by
  simp [cont]

theorem encode_utf8_one {x : UInt8} (ascii : x.toNat < 0x80) : encode_utf8 (Char.ofNat x.toNat) = [x] := by
  simp only [encode_utf8, char_ofNat_toNat (.inl (by omega) : x.toNat.isValidChar), if_pos ascii,
    ofNat_eq_of_toNat rfl]

theorem encode_utf8_two {x y : UInt8} (lead : 0xC2 ≤ x.toNat ∧ x.toNat < 0xE0) (tail : cont y = true) :
    ∃ c, encode_utf8 c = [x, y] := by
  rw [cont_iff] at tail
  have valid : ((x.toNat - 0xC0) * 0x40 + (y.toNat - 0x80)).isValidChar := .inl (by omega)
  refine ⟨Char.ofNat ((x.toNat - 0xC0) * 0x40 + (y.toNat - 0x80)), ?_⟩
  simp only [encode_utf8, char_ofNat_toNat valid]
  rw [if_neg (by omega), if_pos (by omega), List.cons.injEq, List.cons.injEq]
  exact ⟨ofNat_eq_of_toNat (by omega), ofNat_eq_of_toNat (by omega), rfl⟩

theorem encode_utf8_three {x y z : UInt8} (lead : 0xE0 ≤ x.toNat ∧ x.toNat < 0xF0) (second : second3 x y = true)
    (tail : cont z = true) : ∃ c, encode_utf8 c = [x, y, z] := by
  have inner : 0x80 ≤ y.toNat ∧ y.toNat ≤ 0xBF ∧ (x.toNat = 0xE0 → 0xA0 ≤ y.toNat) ∧ (x.toNat = 0xED → y.toNat ≤ 0x9F) := by
    unfold second3 at second
    split_ifs at second <;> simp only [cont_iff, Bool.and_eq_true, decide_eq_true_eq] at second <;> omega
  rw [cont_iff] at tail
  have valid : ((x.toNat - 0xE0) * 0x1000 + (y.toNat - 0x80) * 0x40 + (z.toNat - 0x80)).isValidChar := by
    unfold Nat.isValidChar; omega
  refine ⟨Char.ofNat ((x.toNat - 0xE0) * 0x1000 + (y.toNat - 0x80) * 0x40 + (z.toNat - 0x80)), ?_⟩
  simp only [encode_utf8, char_ofNat_toNat valid]
  rw [if_neg (by omega), if_neg (by omega), if_pos (by omega), List.cons.injEq, List.cons.injEq, List.cons.injEq]
  exact ⟨ofNat_eq_of_toNat (by omega), ofNat_eq_of_toNat (by omega), ofNat_eq_of_toNat (by omega), rfl⟩

theorem encode_utf8_four {x y z w : UInt8} (lead : 0xF0 ≤ x.toNat ∧ x.toNat < 0xF5) (second : second4 x y = true)
    (third : cont z = true) (tail : cont w = true) : ∃ c, encode_utf8 c = [x, y, z, w] := by
  have inner : 0x80 ≤ y.toNat ∧ y.toNat ≤ 0xBF ∧ (x.toNat = 0xF0 → 0x90 ≤ y.toNat) ∧ (x.toNat = 0xF4 → y.toNat ≤ 0x8F) := by
    unfold second4 at second
    split_ifs at second <;> simp only [cont_iff, Bool.and_eq_true, decide_eq_true_eq] at second <;> omega
  rw [cont_iff] at third tail
  have valid :
      ((x.toNat - 0xF0) * 0x40000 + (y.toNat - 0x80) * 0x1000 + (z.toNat - 0x80) * 0x40 + (w.toNat - 0x80)).isValidChar := by
    unfold Nat.isValidChar; omega
  refine ⟨Char.ofNat ((x.toNat - 0xF0) * 0x40000 + (y.toNat - 0x80) * 0x1000 + (z.toNat - 0x80) * 0x40 + (w.toNat - 0x80)), ?_⟩
  simp only [encode_utf8, char_ofNat_toNat valid]
  rw [if_neg (by omega), if_neg (by omega), if_neg (by omega), List.cons.injEq, List.cons.injEq, List.cons.injEq,
    List.cons.injEq]
  exact ⟨ofNat_eq_of_toNat (by omega), ofNat_eq_of_toNat (by omega), ofNat_eq_of_toNat (by omega),
    ofNat_eq_of_toNat (by omega), rfl⟩

/-- Valid UTF-8 starts with the encoding of one character, and what follows is valid. -/
theorem run_utf8_validation_cons {first : UInt8} {rest : List UInt8} (valid : run_utf8_validation (first :: rest) = true) :
    ∃ c tail, first :: rest = encode_utf8 c ++ tail ∧ run_utf8_validation tail = true := by
  rcases utf8_char_width_cases first with ⟨width, ascii⟩ | ⟨width, lead⟩ | ⟨width, lead⟩ | ⟨width, lead⟩ | width
  · rw [run_utf8_validation_one width] at valid
    exact ⟨_, rest, by rw [encode_utf8_one ascii]; rfl, valid⟩
  · match rest, valid with
    | [], valid => simp [run_utf8_validation, width] at valid
    | y :: rest, valid =>
      rw [run_utf8_validation_two width, Bool.and_eq_true] at valid
      obtain ⟨c, encoded⟩ := encode_utf8_two lead valid.1
      exact ⟨c, rest, by rw [encoded]; rfl, valid.2⟩
  · match rest, valid with
    | [], valid | [_], valid => simp [run_utf8_validation, width] at valid
    | y :: z :: rest, valid =>
      rw [run_utf8_validation_three width, Bool.and_eq_true, Bool.and_eq_true] at valid
      obtain ⟨c, encoded⟩ := encode_utf8_three lead valid.1.1 valid.1.2
      exact ⟨c, rest, by rw [encoded]; rfl, valid.2⟩
  · match rest, valid with
    | [], valid | [_], valid | [_, _], valid => simp [run_utf8_validation, width] at valid
    | y :: z :: w :: rest, valid =>
      rw [run_utf8_validation_four width, Bool.and_eq_true, Bool.and_eq_true, Bool.and_eq_true] at valid
      obtain ⟨c, encoded⟩ := encode_utf8_four lead valid.1.1.1 valid.1.1.2 valid.1.2
      exact ⟨c, rest, by rw [encoded]; rfl, valid.2⟩
  · simp [run_utf8_validation, width] at valid

/-! ### `chars` inverts `encode_utf8` -/

theorem chars_of_flatMap {fuel : Nat} : ∀ {bytes : List UInt8}, run_utf8_validation bytes = true →
    bytes.length ≤ fuel → (chars_of fuel bytes).flatMap encode_utf8 = bytes := by
  induction fuel with
  | zero => intro bytes _ enough; rw [List.eq_nil_of_length_eq_zero (by omega : bytes.length = 0)]; rfl
  | succ fuel ih =>
    intro bytes valid enough
    match bytes, valid with
    | [], _ => rfl
    | first :: rest, valid =>
      obtain ⟨c, tail, split, validTail⟩ := run_utf8_validation_cons valid
      have shorter := encode_utf8_length_pos c
      rw [split] at enough ⊢
      rw [List.length_append] at enough
      simp only [chars_of, next_code_point_encode_utf8, ofNat_val_toNat, List.flatMap_cons,
        ih validTail (by omega)]

theorem chars_of_encode_utf8 : ∀ (cs : List Char) {fuel : Nat}, cs.length ≤ fuel →
    chars_of fuel (cs.flatMap encode_utf8) = cs
  | [], fuel, _ => by cases fuel <;> rfl
  | c :: cs, fuel + 1, enough => by
    simp only [List.flatMap_cons, chars_of, next_code_point_encode_utf8, ofNat_val_toNat,
      chars_of_encode_utf8 cs (show cs.length ≤ fuel by simp at enough; omega)]

theorem length_le_flatMap_encode_utf8 : ∀ cs : List Char, cs.length ≤ (cs.flatMap encode_utf8).length
  | [] => le_rfl
  | c :: cs => by
    have := encode_utf8_length_pos c
    have := length_le_flatMap_encode_utf8 cs
    simp only [List.flatMap_cons, List.length_append, List.length_cons]; omega

/-- `str::chars` and `char::encode_utf8` are inverse: the characters of a `str` encode back to its
bytes, and the `str` of a Lean string decodes back to its characters. -/
theorem chars_encode_utf8 :
    (∀ s : Str, (chars s).flatMap encode_utf8 = s.bytes) ∧ ∀ t : String, chars (Str.ofString t) = t.data :=
  ⟨fun s => chars_of_flatMap s.valid le_rfl,
    fun t => chars_of_encode_utf8 t.data (length_le_flatMap_encode_utf8 t.data)⟩

theorem flatMap_chars (s : Str) : (chars s).flatMap encode_utf8 = s.bytes := chars_of_flatMap s.valid le_rfl

theorem chars_ofString (t : String) : chars (Str.ofString t) = t.data :=
  chars_of_encode_utf8 t.data (length_le_flatMap_encode_utf8 t.data)

/-- `Display` of `str`: its characters. -/
instance : ToString Str := ⟨fun s => ⟨chars s⟩⟩

theorem toString_ofString (t : String) : toString (Str.ofString t) = t :=
  congrArg String.mk (chars_ofString t)

theorem ofString_chars (s : Str) : Str.ofString ⟨chars s⟩ = s :=
  Str.ext (flatMap_chars s)

/-! ### Character boundaries and `String::truncate` -/

/-- `u8::is_utf8_char_boundary`: `(self as i8) >= -0x40`, a byte that is no continuation byte. -/
def is_utf8_char_boundary (b : UInt8) : Bool := b.toNat < 0x80 || 0xC0 ≤ b.toNat

/-- `str::is_char_boundary`. -/
def is_char_boundary (s : Str) (index : Nat) : Bool :=
  if index = 0 then true
  else if inside : index < s.bytes.length then is_utf8_char_boundary s.bytes[index]
  else index = s.bytes.length

theorem continuation_byte (n : Nat) : is_utf8_char_boundary (UInt8.ofNat (0x80 + n % 0x40)) = false := by
  simp only [is_utf8_char_boundary, toNat_ofNat_of_lt (by omega : 0x80 + n % 0x40 < 256), Bool.or_eq_false_iff,
    decide_eq_false_iff_not]
  omega

theorem lead_byte {n : Nat} (small : n < 256) (lead : n < 0x80 ∨ 0xC0 ≤ n) :
    is_utf8_char_boundary (UInt8.ofNat n) = true := by
  simpa [is_utf8_char_boundary, toNat_ofNat_of_lt small] using lead

/-- The first byte of every encoding starts a character, and the others continue it. -/
theorem encode_utf8_boundaries (c : Char) :
    ∃ b bs, encode_utf8 c = b :: bs ∧ is_utf8_char_boundary b = true ∧ ∀ b' ∈ bs, is_utf8_char_boundary b' = false := by
  have scalar : c.val.toNat < 0xD800 ∨ (0xDFFF < c.val.toNat ∧ c.val.toNat < 0x110000) := c.valid
  dsimp only [encode_utf8]
  generalize c.val.toNat = code at scalar ⊢
  split_ifs <;> refine ⟨_, _, rfl, lead_byte (by omega) (by omega), by simp [continuation_byte]⟩

/-- Bytes of encoded characters cut at a character boundary are the encoding of the first few. -/
theorem take_flatMap_encode_utf8 : ∀ (cs : List Char) (k : Nat),
    (∀ b, (cs.flatMap encode_utf8)[k]? = some b → is_utf8_char_boundary b = true) →
      ∃ j, (cs.flatMap encode_utf8).take k = (cs.take j).flatMap encode_utf8
  | [], _, _ => ⟨0, by simp⟩
  | c :: cs, k, boundary => by
    obtain ⟨b, bs, encoded, -, inner⟩ := encode_utf8_boundaries c
    rw [List.flatMap_cons, encoded] at boundary ⊢
    match k with
    | 0 => exact ⟨0, rfl⟩
    | k + 1 =>
      by_cases within : k < bs.length
      · have stop := boundary bs[k] (by rw [List.cons_append, List.getElem?_cons_succ,
          List.getElem?_append_left within, List.getElem?_eq_getElem within])
        exact absurd stop (by rw [inner _ (List.getElem_mem within)]; decide)
      · obtain ⟨j, taken⟩ := take_flatMap_encode_utf8 cs (k - bs.length) fun b' at' => boundary b' (by
          rw [List.cons_append, List.getElem?_cons_succ, List.getElem?_append_right (by omega)]; exact at')
        refine ⟨j + 1, ?_⟩
        rw [List.cons_append, List.take_succ_cons, List.take_append_eq_append_take, List.take_of_length_le (by omega),
          taken, List.take_succ_cons, List.flatMap_cons, encoded, List.cons_append]

/-- A `str` cut at a character boundary is still valid UTF-8. -/
theorem run_utf8_validation_take {s : Str} {k : Nat} (boundary : is_char_boundary s k = true) :
    run_utf8_validation (s.bytes.take k) = true := by
  by_cases zero : k = 0
  · rw [zero]; rfl
  have cut : ∀ b, ((chars s).flatMap encode_utf8)[k]? = some b → is_utf8_char_boundary b = true := by
    intro b at'
    rw [flatMap_chars s] at at'
    unfold is_char_boundary at boundary
    rw [if_neg zero] at boundary
    split at boundary
    · rw [List.getElem?_eq_getElem ‹_›, Option.some.injEq] at at'; exact at' ▸ boundary
    · rw [List.getElem?_eq_none (by omega)] at at'; cases at'
  obtain ⟨j, taken⟩ := take_flatMap_encode_utf8 (chars s) k cut
  rw [← flatMap_chars s, taken]
  exact run_utf8_validation_flatMap _

/-- `String::truncate`: keep the first `new_len` bytes, after `assert!(self.is_char_boundary(new_len))`. -/
def truncate (s : Str) (new_len : Nat) : Except Panic Str :=
  if new_len ≤ s.len then
    if boundary : is_char_boundary s new_len then .ok ⟨s.bytes.take new_len, run_utf8_validation_take boundary⟩
    else .error .AssertionFailed
  else .ok s

/-! ### Whitespace and `str::trim_end` -/

/-- `char::is_whitespace`: the Unicode `White_Space` property. -/
def is_whitespace (c : Char) : Bool :=
  c = ' ' || (0x09 ≤ c.toNat && c.toNat ≤ 0x0D) ||
    (0x7F < c.toNat && (c.toNat = 0x85 || c.toNat = 0xA0 || c.toNat = 0x1680 || (0x2000 ≤ c.toNat && c.toNat ≤ 0x200A) ||
      c.toNat = 0x2028 || c.toNat = 0x2029 || c.toNat = 0x202F || c.toNat = 0x205F || c.toNat = 0x3000))

/-- `str::trim_end`: the `str` without its trailing whitespace. -/
def trim_end (s : Str) : Str := Str.ofString ⟨(chars s).rdropWhile is_whitespace⟩

theorem chars_trim_end (s : Str) : chars (trim_end s) = (chars s).rdropWhile is_whitespace :=
  chars_ofString _

theorem rdropWhile_append_rtakeWhile {α : Type} (p : α → Bool) (l : List α) :
    l.rdropWhile p ++ l.rtakeWhile p = l := by
  rw [List.rdropWhile, List.rtakeWhile, ← List.reverse_append, List.takeWhile_append_dropWhile, List.reverse_reverse]

theorem getLast?_rdropWhile {α : Type} (p : α → Bool) (l : List α) :
    ∀ c ∈ (l.rdropWhile p).getLast?, p c = false := by
  intro c last
  obtain ⟨nonempty, rfl⟩ : ∃ nonempty, (l.rdropWhile p).getLast nonempty = c := by
    rw [List.getLast?_eq_getLast] at last
    · exact ⟨_, Option.some.inj last⟩
    · rintro empty; rw [empty] at last; cases last
  simpa using List.rdropWhile_last_not _ _ nonempty

/-- `trim_end` keeps the characters up to the last one that is not whitespace. -/
theorem trim_end_spec (s : Str) :
    (∃ ws, chars s = chars (trim_end s) ++ ws ∧ ∀ c ∈ ws, is_whitespace c = true) ∧
      ∀ c ∈ (chars (trim_end s)).getLast?, is_whitespace c = false := by
  rw [chars_trim_end]
  exact ⟨⟨_, (rdropWhile_append_rtakeWhile _ _).symm, fun c member => List.mem_rtakeWhile_imp member⟩,
    getLast?_rdropWhile _ _⟩

/-- `str::trim`: the `str` without its leading and trailing whitespace. -/
def trim (s : Str) : Str := Str.ofString ⟨((chars s).dropWhile is_whitespace).rdropWhile is_whitespace⟩

theorem chars_append (s t : Str) : chars (s ++ t) = chars s ++ chars t := by
  have same : s ++ t = Str.ofString ⟨chars s ++ chars t⟩ := Str.ext (by
    rw [Str.append_bytes, ← flatMap_chars s, ← flatMap_chars t, ← List.flatMap_append]; rfl)
  rw [same, chars_ofString]

theorem rdropWhile_append_of_pos {α : Type} {p : α → Bool} (l : List α) {trail : List α} (all : ∀ a ∈ trail, p a) :
    (l ++ trail).rdropWhile p = l.rdropWhile p := by
  rw [List.rdropWhile, List.reverse_append, List.dropWhile_append_of_pos fun a m => all a (List.mem_reverse.mp m)]
  rfl

/-- Dropping from both ends ignores what the right end adds to drop. -/
theorem rdropWhile_dropWhile_append {α : Type} {p : α → Bool} (l : List α) {trail : List α} (all : ∀ a ∈ trail, p a) :
    ((l ++ trail).dropWhile p).rdropWhile p = (l.dropWhile p).rdropWhile p := by
  rw [List.dropWhile_append]
  split
  · next dropped => rw [List.isEmpty_iff.mp dropped, List.dropWhile_eq_nil_iff.mpr all]
  · exact rdropWhile_append_of_pos _ all

/-- `trim` ignores whitespace added on either side. -/
theorem trim_append_whitespace (s : Str) {lead trail : String}
    (blank : ∀ c ∈ lead.data ++ trail.data, is_whitespace c = true) :
    trim (Str.ofString lead ++ s ++ Str.ofString trail) = trim s := by
  rw [trim, trim, chars_append, chars_append, chars_ofString, chars_ofString, List.append_assoc,
    List.dropWhile_append_of_pos fun c m => blank c (List.mem_append_left _ m),
    rdropWhile_dropWhile_append _ fun c m => blank c (List.mem_append_right _ m)]

theorem is_char_boundary_of_getElem? {s : Str} {k : Nat} (inside : k ≤ s.bytes.length)
    (next : ∀ b, s.bytes[k]? = some b → is_utf8_char_boundary b = true) : is_char_boundary s k = true := by
  unfold is_char_boundary
  split
  · rfl
  · split
    · exact next _ (List.getElem?_eq_getElem ‹_›)
    · simp only [decide_eq_true_eq]; omega

/-- `id.truncate(id.trim_end().len())` never panics, and leaves `id.trim_end()`. -/
theorem truncate_trim_end (s : Str) : truncate s (trim_end s).len = .ok (trim_end s) := by
  obtain ⟨ws, split, -⟩ := (trim_end_spec s).1
  have bytes : s.bytes = (trim_end s).bytes ++ ws.flatMap encode_utf8 := by
    rw [← flatMap_chars s, split, List.flatMap_append, flatMap_chars]
  have short : (trim_end s).len ≤ s.len := by simp only [Str.len, bytes, List.length_append]; omega
  have boundary : is_char_boundary s (trim_end s).len = true := by
    refine is_char_boundary_of_getElem? short fun b at' => ?_
    rw [bytes, Str.len, List.getElem?_append_right le_rfl, Nat.sub_self] at at'
    match ws, at' with
    | c :: ws, at' =>
      obtain ⟨b', bs, encoded, first, -⟩ := encode_utf8_boundaries c
      rw [List.flatMap_cons, encoded, List.cons_append, List.getElem?_cons_zero, Option.some.injEq] at at'
      exact at' ▸ first
  rw [truncate, if_pos short, dif_pos boundary]
  exact congrArg Except.ok (Str.ext (by simp only [bytes, Str.len, List.take_left']))

/-! ### `str::from_utf8` with its error -/

/-- `core::str::Utf8Error`: where the valid prefix ends, and how many bytes of the invalid sequence
were read, `none` when the input ends inside a character. -/
structure Utf8Error where
  valid_up_to : Nat
  error_len : Option Nat
deriving DecidableEq, Repr

/-- `Display` of `Utf8Error`. -/
def Utf8Error.display (e : Utf8Error) : String :=
  match e.error_len with
  | some error_len =>
    "invalid utf-8 sequence of " ++ toString error_len ++ " bytes from index " ++ toString e.valid_up_to
  | none => "incomplete utf-8 byte sequence from index " ++ toString e.valid_up_to

/-- `run_utf8_validation` with the `Utf8Error` it returns; `index` is where `bytes` start in the
input, and a `next!()` that finds no byte ends the input inside a character. -/
def run_utf8_validation_from (index : Nat) : List UInt8 → Except Utf8Error Unit
  | [] => .ok ()
  | first :: rest =>
    if first.toNat < 128 then run_utf8_validation_from (index + 1) rest
    else if utf8_char_width first = 2 then
      match rest with
      | [] => .error ⟨index, none⟩
      | b :: rest => if cont b then run_utf8_validation_from (index + 2) rest else .error ⟨index, some 1⟩
    else if utf8_char_width first = 3 then
      match rest with
      | [] => .error ⟨index, none⟩
      | b :: rest =>
        if !second3 first b then .error ⟨index, some 1⟩ else
        match rest with
        | [] => .error ⟨index, none⟩
        | c :: rest => if cont c then run_utf8_validation_from (index + 3) rest else .error ⟨index, some 2⟩
    else if utf8_char_width first = 4 then
      match rest with
      | [] => .error ⟨index, none⟩
      | b :: rest =>
        if !second4 first b then .error ⟨index, some 1⟩ else
        match rest with
        | [] => .error ⟨index, none⟩
        | c :: rest =>
          if !cont c then .error ⟨index, some 2⟩ else
          match rest with
          | [] => .error ⟨index, none⟩
          | d :: rest => if cont d then run_utf8_validation_from (index + 4) rest else .error ⟨index, some 3⟩
    else .error ⟨index, some 1⟩

section
variable {first b c d : UInt8} (index : Nat) (rest : List UInt8)

theorem run_utf8_validation_from_ascii (ascii : first.toNat < 128) :
    run_utf8_validation_from index (first :: rest) = run_utf8_validation_from (index + 1) rest := by
  rw [run_utf8_validation_from.eq_def]; exact if_pos ascii

variable (lead : ¬ first.toNat < 128)
include lead

theorem run_utf8_validation_from_two (width : utf8_char_width first = 2) :
    run_utf8_validation_from index (first :: rest) = match rest with
      | [] => .error ⟨index, none⟩
      | b :: rest => if cont b then run_utf8_validation_from (index + 2) rest else .error ⟨index, some 1⟩ := by
  rw [run_utf8_validation_from.eq_def]; dsimp only; rw [if_neg lead, if_pos width]

theorem run_utf8_validation_from_three (width : utf8_char_width first = 3) :
    run_utf8_validation_from index (first :: rest) = match rest with
      | [] => .error ⟨index, none⟩
      | b :: rest =>
        if !second3 first b then .error ⟨index, some 1⟩ else
        match rest with
        | [] => .error ⟨index, none⟩
        | c :: rest => if cont c then run_utf8_validation_from (index + 3) rest else .error ⟨index, some 2⟩ := by
  rw [run_utf8_validation_from.eq_def]; dsimp only; rw [if_neg lead, if_neg (by omega), if_pos width]

theorem run_utf8_validation_from_four (width : utf8_char_width first = 4) :
    run_utf8_validation_from index (first :: rest) = match rest with
      | [] => .error ⟨index, none⟩
      | b :: rest =>
        if !second4 first b then .error ⟨index, some 1⟩ else
        match rest with
        | [] => .error ⟨index, none⟩
        | c :: rest =>
          if !cont c then .error ⟨index, some 2⟩ else
          match rest with
          | [] => .error ⟨index, none⟩
          | d :: rest => if cont d then run_utf8_validation_from (index + 4) rest else .error ⟨index, some 3⟩ := by
  rw [run_utf8_validation_from.eq_def]; dsimp only; rw [if_neg lead, if_neg (by omega), if_neg (by omega), if_pos width]

end

theorem ascii_of_width_one {first : UInt8} (width : utf8_char_width first = 1) : first.toNat < 128 := by
  by_contra big
  rw [utf8_char_width, if_neg big] at width
  split_ifs at width <;> omega

theorem not_ascii {first : UInt8} (width : utf8_char_width first ≠ 1) : ¬ first.toNat < 128 :=
  fun ascii => width (if_pos ascii)

/-- The validator with its error accepts what `run_utf8_validation` accepts. -/
theorem run_utf8_validation_from_eq_ok (bytes : List UInt8) :
    ∀ index, run_utf8_validation_from index bytes = .ok () ↔ run_utf8_validation bytes = true := by
  induction bytes using run_utf8_validation.induct with
  | case1 => exact fun _ => iff_of_true rfl rfl
  | case2 first rest width ih =>
    intro index
    rw [run_utf8_validation_one width, run_utf8_validation_from_ascii index rest (ascii_of_width_one width), ih]
  | case3 first b rest width ih =>
    intro index
    rw [run_utf8_validation_two width, run_utf8_validation_from_two index _ (not_ascii (by omega)) width]; dsimp only
    cases cont b <;> simp only [ite_true, ite_false, Bool.false_eq_true, Bool.true_and, Bool.false_and,
      reduceCtorEq, ih]
  | case4 first b c rest width ih =>
    intro index
    rw [run_utf8_validation_three width, run_utf8_validation_from_three index _ (not_ascii (by omega)) width]; dsimp only
    cases second3 first b <;> cases cont c <;> simp only [Bool.not_false, Bool.not_true, ite_true, ite_false,
      Bool.false_eq_true, Bool.true_and, Bool.false_and, Bool.and_false, reduceCtorEq, ih]
  | case5 first b c d rest width ih =>
    intro index
    rw [run_utf8_validation_four width, run_utf8_validation_from_four index _ (not_ascii (by omega)) width]; dsimp only
    cases second4 first b <;> cases cont c <;> cases cont d <;> simp only [Bool.not_false, Bool.not_true, ite_true,
      ite_false, Bool.false_eq_true, Bool.true_and, Bool.false_and, Bool.and_false, reduceCtorEq, ih]
  | case6 first rest one two three four =>
    intro index
    refine iff_of_false ?_ ?_
    · rcases utf8_char_width_cases first with ⟨width, -⟩ | ⟨width, lead⟩ | ⟨width, lead⟩ | ⟨width, lead⟩ | width
      · exact absurd width one
      · rw [run_utf8_validation_from_two index _ (by omega) width]
        match rest, two with
        | [], _ => nofun
        | b :: rest, two => exact absurd rfl (two b rest width)
      · rw [run_utf8_validation_from_three index _ (by omega) width]
        match rest, three with
        | [], _ => nofun
        | [_], _ => dsimp only; split <;> nofun
        | b :: c :: rest, three => exact absurd rfl (three b c rest width)
      · rw [run_utf8_validation_from_four index _ (by omega) width]
        match rest, four with
        | [], _ => nofun
        | [_], _ => dsimp only; split <;> nofun
        | [_, _], _ => dsimp only; split; · nofun
                       split <;> nofun
        | b :: c :: d :: rest, four => exact absurd rfl (four b c d rest width)
      · rw [run_utf8_validation_from.eq_def]; dsimp only
        rw [if_neg (not_ascii (by omega)), if_neg (by omega), if_neg (by omega), if_neg (by omega)]
        nofun
    · unfold run_utf8_validation
      split
      · exact absurd ‹_› one
      · exact absurd rfl (two _ _ ‹_›)
      · exact absurd rfl (three _ _ _ ‹_›)
      · exact absurd rfl (four _ _ _ _ ‹_›)
      · nofun

/-! ### What a `Utf8Error` reports -/

/-- A character cut short is not valid. -/
theorem run_utf8_validation_short {first : UInt8} {l : List UInt8} (short : l.length + 1 < utf8_char_width first) :
    run_utf8_validation (first :: l) = false := by
  rcases utf8_char_width_cases first with ⟨w, -⟩ | ⟨w, -⟩ | ⟨w, -⟩ | ⟨w, -⟩ | w <;> rw [w] at short
  · omega
  · match l, short with | [], _ => simp [run_utf8_validation, w]
  · match l, short with | [], _ | [_], _ => simp [run_utf8_validation, w]
  · match l, short with | [], _ | [_], _ | [_, _], _ => simp [run_utf8_validation, w]
  · omega

/-- What a `Utf8Error` promises about the input it was made from, which starts at `index`:
`valid_up_to` is the longest prefix that is valid UTF-8, it ends inside the input, and `error_len`,
when there is one, counts 1 to 3 bytes that are there. -/
def Utf8Error.Reports (e : Utf8Error) (index : Nat) (bytes : List UInt8) : Prop :=
  index ≤ e.valid_up_to ∧ e.valid_up_to - index < bytes.length ∧
    run_utf8_validation (bytes.take (e.valid_up_to - index)) = true ∧
    (∀ k, e.valid_up_to - index < k → k ≤ bytes.length → run_utf8_validation (bytes.take k) = false) ∧
    ∀ n ∈ e.error_len, 1 ≤ n ∧ n ≤ 3 ∧ e.valid_up_to - index + n ≤ bytes.length

/-- An error raised at the first byte, where no prefix is valid. -/
theorem reports_here {index : Nat} {first : UInt8} {rest : List UInt8} {len : Option Nat}
    (invalid : ∀ j, run_utf8_validation (first :: rest.take j) = false)
    (fits : ∀ n ∈ len, 1 ≤ n ∧ n ≤ 3 ∧ n ≤ rest.length + 1) :
    Utf8Error.Reports ⟨index, len⟩ index (first :: rest) := by
  refine ⟨le_rfl, Nat.sub_self index ▸ Nat.succ_pos _, by rw [Nat.sub_self, List.take_zero]; rfl,
    fun k after _ => ?_, fun n m => ?_⟩
  · obtain ⟨j, rfl⟩ : ∃ j, k = j + 1 := ⟨k - 1, by omega⟩
    exact invalid j
  · obtain ⟨least, most, within⟩ := fits n m
    exact ⟨least, most, by simp only [Nat.sub_self, List.length_cons]; omega⟩

theorem fits_none {m : Nat} : ∀ n ∈ (none : Option Nat), 1 ≤ n ∧ n ≤ 3 ∧ n ≤ m := fun _ absent => nomatch absent

theorem fits_some {k m : Nat} (fits : 1 ≤ k ∧ k ≤ 3 ∧ k ≤ m) : ∀ n ∈ some k, 1 ≤ n ∧ n ≤ 3 ∧ n ≤ m
  | _, rfl => fits

/-- No prefix of a character cut short is valid. -/
theorem invalid_of_short {first : UInt8} {rest : List UInt8} (short : rest.length + 1 < utf8_char_width first) (j : Nat) :
    run_utf8_validation (first :: rest.take j) = false :=
  run_utf8_validation_short (by have := List.length_take_le' j rest; omega)

theorem short_take {first : UInt8} {rest : List UInt8} {j : Nat} (short : j + 1 < utf8_char_width first) :
    run_utf8_validation (first :: rest.take j) = false :=
  run_utf8_validation_short (by have := List.length_take_le j rest; omega)

/-- An error past a valid first character. -/
theorem reports_append {chunk rest : List UInt8} {index : Nat} {e : Utf8Error}
    (valid : ∀ tail, run_utf8_validation (chunk ++ tail) = run_utf8_validation tail)
    (later : e.Reports (index + chunk.length) rest) : e.Reports index (chunk ++ rest) := by
  obtain ⟨after, inside, before_valid, maximal, fits⟩ := later
  have split : e.valid_up_to - index = chunk.length + (e.valid_up_to - (index + chunk.length)) := by omega
  have length : (chunk ++ rest).length = chunk.length + rest.length := List.length_append _ _
  refine ⟨by omega, by omega, ?_, fun k longer within => ?_, fun n m => ?_⟩
  · rw [split, List.take_append, valid]; exact before_valid
  · rw [show k = chunk.length + (k - chunk.length) by omega, List.take_append, valid]
    exact maximal _ (by omega) (by omega)
  · have := fits n m; omega

/-- Every error of the validator reports what `Utf8Error` promises. -/
theorem run_utf8_validation_from_reports (bytes : List UInt8) :
    ∀ {index : Nat} {e : Utf8Error}, run_utf8_validation_from index bytes = .error e → e.Reports index bytes := by
  induction bytes using run_utf8_validation.induct with
  | case1 => intro index e failed; cases failed
  | case2 first rest width ih =>
    intro index e failed
    rw [run_utf8_validation_from_ascii index rest (ascii_of_width_one width)] at failed
    exact @reports_append [first] _ _ _ (run_utf8_validation_one width) (ih failed)
  | case3 first b rest width ih =>
    intro index e failed
    rw [run_utf8_validation_from_two index _ (not_ascii (by omega)) width] at failed
    dsimp only at failed
    cases hb : cont b <;> simp only [hb, ite_true, ite_false, Bool.false_eq_true] at failed
    · cases failed
      refine reports_here (fun j => ?_) (fits_some ⟨le_rfl, by decide, by omega⟩)
      match j with
      | 0 => exact short_take (by omega)
      | j + 1 => rw [List.take_succ_cons, run_utf8_validation_two width, hb, Bool.false_and]
    · exact @reports_append [first, b] _ _ _ (fun tail => by
        rw [List.cons_append, List.cons_append, run_utf8_validation_two width, hb, Bool.true_and, List.nil_append]) (ih failed)
  | case4 first b c rest width ih =>
    intro index e failed
    rw [run_utf8_validation_from_three index _ (not_ascii (by omega)) width] at failed
    dsimp only at failed
    have three := run_utf8_validation_three width b c
    cases hb : second3 first b
    · simp only [hb, Bool.not_false, ite_true] at failed
      cases failed
      refine reports_here (fun j => ?_) (fits_some ⟨le_rfl, by decide, by omega⟩)
      match j with
      | 0 | 1 => exact short_take (by omega)
      | j + 2 => rw [List.take_succ_cons, List.take_succ_cons, three, hb, Bool.false_and, Bool.false_and]
    cases hc : cont c <;> simp only [hb, hc, Bool.not_true, Bool.false_eq_true, ite_true, ite_false] at failed
    · cases failed
      refine reports_here (fun j => ?_) (fits_some ⟨by decide, by decide, by simp only [List.length_cons]; omega⟩)
      match j with
      | 0 | 1 => exact short_take (by omega)
      | j + 2 => rw [List.take_succ_cons, List.take_succ_cons, three, hb, hc, Bool.true_and, Bool.false_and]
    · exact @reports_append [first, b, c] _ _ _ (fun tail => by
        rw [List.cons_append, List.cons_append, List.cons_append, three, hb, hc, Bool.true_and, Bool.true_and, List.nil_append])
        (ih failed)
  | case5 first b c d rest width ih =>
    intro index e failed
    rw [run_utf8_validation_from_four index _ (not_ascii (by omega)) width] at failed
    dsimp only at failed
    have four := run_utf8_validation_four width b c d
    cases hb : second4 first b
    · simp only [hb, Bool.not_false, ite_true] at failed
      cases failed
      refine reports_here (fun j => ?_) (fits_some ⟨le_rfl, by decide, by omega⟩)
      match j with
      | 0 | 1 | 2 => exact short_take (by omega)
      | j + 3 =>
        rw [List.take_succ_cons, List.take_succ_cons, List.take_succ_cons, four, hb]; rfl
    cases hc : cont c
    · simp only [hb, hc, Bool.not_true, Bool.not_false, Bool.false_eq_true, ite_true, ite_false] at failed
      cases failed
      refine reports_here (fun j => ?_) (fits_some ⟨by decide, by decide, by simp only [List.length_cons]; omega⟩)
      match j with
      | 0 | 1 | 2 => exact short_take (by omega)
      | j + 3 =>
        rw [List.take_succ_cons, List.take_succ_cons, List.take_succ_cons, four, hb, hc]; rfl
    cases hd : cont d <;>
      simp only [hb, hc, hd, Bool.not_true, Bool.false_eq_true, ite_true, ite_false] at failed
    · cases failed
      refine reports_here (fun j => ?_) (fits_some ⟨by decide, by decide, by simp only [List.length_cons]; omega⟩)
      match j with
      | 0 | 1 | 2 => exact short_take (by omega)
      | j + 3 =>
        rw [List.take_succ_cons, List.take_succ_cons, List.take_succ_cons, four, hb, hc, hd]; rfl
    · exact @reports_append [first, b, c, d] _ _ _ (fun tail => by
        rw [List.cons_append, List.cons_append, List.cons_append, List.cons_append, four, hb, hc, hd]; rfl)
        (ih failed)
  | case6 first rest one two three four =>
    intro index e failed
    rcases utf8_char_width_cases first with ⟨width, -⟩ | ⟨width, lead⟩ | ⟨width, lead⟩ | ⟨width, lead⟩ | width
    · exact absurd width one
    · rw [run_utf8_validation_from_two index _ (by omega) width] at failed
      match rest, two with
      | [], _ => cases failed; exact reports_here (invalid_of_short (by simp only [List.length_nil]; omega)) fits_none
      | b :: rest, two => exact absurd rfl (two b rest width)
    · rw [run_utf8_validation_from_three index _ (by omega) width] at failed
      match rest, three with
      | [], _ => cases failed; exact reports_here (invalid_of_short (by simp only [List.length_nil]; omega)) fits_none
      | [b], _ =>
        have short : [b].length + 1 < utf8_char_width first := by simp only [List.length_singleton]; omega
        dsimp only at failed
        split at failed
        · cases failed; exact reports_here (invalid_of_short short) (fits_some ⟨le_rfl, by decide, by omega⟩)
        · cases failed; exact reports_here (invalid_of_short short) fits_none
      | b :: c :: rest, three => exact absurd rfl (three b c rest width)
    · rw [run_utf8_validation_from_four index _ (by omega) width] at failed
      match rest, four with
      | [], _ => cases failed; exact reports_here (invalid_of_short (by simp only [List.length_nil]; omega)) fits_none
      | [b], _ =>
        have short : [b].length + 1 < utf8_char_width first := by simp only [List.length_singleton]; omega
        dsimp only at failed
        split at failed
        · cases failed; exact reports_here (invalid_of_short short) (fits_some ⟨le_rfl, by decide, by omega⟩)
        · cases failed; exact reports_here (invalid_of_short short) fits_none
      | [b, c], _ =>
        have short : [b, c].length + 1 < utf8_char_width first := by simp only [List.length_cons, List.length_nil]; omega
        dsimp only at failed
        split at failed
        · cases failed; exact reports_here (invalid_of_short short) (fits_some ⟨le_rfl, by decide, by omega⟩)
        split at failed
        · cases failed
          exact reports_here (invalid_of_short short) (fits_some ⟨by decide, by decide, by simp only [List.length_cons]; omega⟩)
        · cases failed; exact reports_here (invalid_of_short short) fits_none
      | b :: c :: d :: rest, four => exact absurd rfl (four b c d rest width)
    · rw [run_utf8_validation_from.eq_def] at failed; dsimp only at failed
      rw [if_neg (not_ascii (by omega)), if_neg (by omega), if_neg (by omega), if_neg (by omega)] at failed
      cases failed
      exact reports_here (fun _ => by simp [run_utf8_validation, width]) (fits_some ⟨le_rfl, by decide, by omega⟩)

/-- `str::from_utf8`, with its error. -/
def str_from_utf8 (bytes : List UInt8) : Except Utf8Error Str :=
  match checked : run_utf8_validation_from 0 bytes with
  | .ok () => .ok ⟨bytes, (run_utf8_validation_from_eq_ok bytes 0).mp checked⟩
  | .error e => .error e

theorem str_from_utf8_bytes (s : Str) : str_from_utf8 s.bytes = .ok s := by
  unfold str_from_utf8
  split
  · rfl
  · rename_i e checked
    exact absurd ((run_utf8_validation_from_eq_ok s.bytes 0).mpr s.valid) (by rw [checked]; nofun)

theorem str_from_utf8_eq_ok {bytes : List UInt8} {s : Str} : str_from_utf8 bytes = .ok s ↔ s.bytes = bytes := by
  constructor
  · unfold str_from_utf8
    split
    · intro same; cases same; rfl
    · nofun
  · rintro rfl; exact str_from_utf8_bytes s

/-- The `Utf8Error` of `str::from_utf8`: `valid_up_to` is the length of the longest prefix of the input
that is valid UTF-8 and ends inside it, and `error_len`, when there is one, counts 1 to 3 bytes that
are there. -/
theorem str_from_utf8_error {bytes : List UInt8} {e : Utf8Error} (failed : str_from_utf8 bytes = .error e) :
    e.valid_up_to < bytes.length ∧ run_utf8_validation (bytes.take e.valid_up_to) = true ∧
      (∀ k, e.valid_up_to < k → k ≤ bytes.length → run_utf8_validation (bytes.take k) = false) ∧
      ∀ n ∈ e.error_len, 1 ≤ n ∧ n ≤ 3 ∧ e.valid_up_to + n ≤ bytes.length := by
  unfold str_from_utf8 at failed
  split at failed
  · cases failed
  · next checked =>
    cases failed
    obtain ⟨-, inside, before_valid, maximal, fits⟩ := run_utf8_validation_from_reports bytes checked
    simp only [Nat.sub_zero] at inside before_valid maximal fits
    exact ⟨inside, before_valid, maximal, fits⟩

theorem str_from_utf8_error_cut :
    str_from_utf8 [0x61, 0xE2, 0x82] = .error ⟨1, none⟩ ∧
      1 < [0x61, 0xE2, 0x82].length ∧ run_utf8_validation ([0x61, 0xE2, 0x82].take 1) = true ∧
      (∀ k, 1 < k → k ≤ [0x61, 0xE2, 0x82].length → run_utf8_validation ([0x61, 0xE2, 0x82].take k) = false) ∧
      ∀ n ∈ (none : Option Nat), 1 ≤ n ∧ n ≤ 3 ∧ 1 + n ≤ [0x61, 0xE2, 0x82].length :=
  have failed : str_from_utf8 [0x61, 0xE2, 0x82] = .error ⟨1, none⟩ := by decide
  ⟨failed, str_from_utf8_error failed⟩

/-! ### C strings and hex digits -/

/-- `core::ffi::FromBytesUntilNulError`. -/
structure FromBytesUntilNulError where

/-- `Display` of `FromBytesUntilNulError`. -/
def FromBytesUntilNulError.display (_ : FromBytesUntilNulError) : String := "data provided does not contain a nul"

/-- `CStr::from_bytes_until_nul` followed by `CStr::to_bytes`: the bytes before the first NUL. -/
def from_bytes_until_nul : List UInt8 → Except FromBytesUntilNulError (List UInt8)
  | [] => .error ⟨⟩
  | b :: bytes => if b = 0 then .ok [] else (b :: ·) <$> from_bytes_until_nul bytes

theorem from_bytes_until_nul_append {text : List UInt8} (free : 0 ∉ text) (rest : List UInt8) :
    from_bytes_until_nul (text ++ 0 :: rest) = .ok text := by
  induction text with
  | nil => rfl
  | cons t text ih =>
    rw [List.mem_cons, not_or] at free
    rw [List.cons_append, from_bytes_until_nul, if_neg (Ne.symm free.1), ih free.2]; rfl

/-- The bytes `from_bytes_until_nul` returns are those before the first NUL. -/
theorem from_bytes_until_nul_eq_ok {bytes text : List UInt8} :
    from_bytes_until_nul bytes = .ok text ↔ 0 ∉ text ∧ ∃ rest, bytes = text ++ 0 :: rest := by
  refine ⟨fun found => ?_, fun ⟨free, rest, split⟩ => split ▸ from_bytes_until_nul_append free rest⟩
  induction bytes generalizing text with
  | nil => cases found
  | cons b bytes ih =>
    unfold from_bytes_until_nul at found
    by_cases zero : b = 0
    · rw [if_pos zero] at found
      cases found
      exact ⟨List.not_mem_nil _, bytes, by rw [zero]; rfl⟩
    · rw [if_neg zero] at found
      cases inner : from_bytes_until_nul bytes with
      | error e => rw [inner] at found; cases found
      | ok t =>
        rw [inner, map_ok, Except.ok.injEq] at found
        subst found
        obtain ⟨free, rest, rfl⟩ := ih inner
        exact ⟨List.not_mem_cons_of_ne_of_not_mem (Ne.symm zero) free, rest, rfl⟩

/-- `char::is_ascii_hexdigit`: `0-9`, `A-F` and `a-f`. -/
def is_ascii_hexdigit (c : Char) : Bool :=
  (0x30 ≤ c.toNat && c.toNat ≤ 0x39) || (0x41 ≤ c.toNat && c.toNat ≤ 0x46) || (0x61 ≤ c.toNat && c.toNat ≤ 0x66)

end Zbus.Chars
