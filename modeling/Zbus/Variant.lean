import Zbus.Utf8

/-!
`Variant` of `src/variant.rs`: a signature and the encoded bytes of one value of type `u`, `s`,
`o` or `g`. `from_data` copies a value's bytes out of a buffer, the four constructors encode one,
and `get_string` and `get_u32` read it back. Each function returns what the Rust code returns,
and a panic where the Rust code panics; the lemmas after each definition say what it computes,
so that later proofs never unfold it.
-/
namespace Zbus.Variant
open Zbus.Core Zbus.Utf8
set_option linter.dupNamespace false

/-- `VariantError`. -/
inductive VariantError where
  | IncorrectType
  | InvalidUtf8
  | InsufficientData
  | UnsupportedType
deriving DecidableEq, Repr

/-- `Variant`. -/
structure Variant where
  signature : Str
  value : List UInt8
deriving DecidableEq

/-! ### Copying a value out of a buffer -/

/-- `copy_u32`. -/
def copy_u32 (data : List UInt8) : Except Panic (Except VariantError (List UInt8)) :=
  if data.length < 4 then pure (.error .InsufficientData)
  else .ok <$> index_range data 0 4

/-- `copy_string`: the length prefix, the bytes it announces and one more. -/
def copy_string (target : Target) (data : List UInt8) : Except Panic (Except VariantError (List UInt8)) := do
  if data.length < 4 then return .error .InsufficientData
  let last_index ← target.addUsize (target.asUsize (← target.read_u32 data).toNat) 5
  if data.length < last_index then return .error .InsufficientData
  .ok <$> index_range data 0 last_index

/-- `copy_signature`: the length byte and the bytes it announces. -/
def copy_signature (target : Target) (data : List UInt8) : Except Panic (Except VariantError (List UInt8)) := do
  if data.length < 1 then return .error .InsufficientData
  let last_index ← target.addUsize (target.asUsize (← index data 0).toNat) 1
  if data.length < last_index then return .error .InsufficientData
  .ok <$> index_range data 0 last_index

theorem copy_u32_eq (data : List UInt8) :
    copy_u32 data = .ok (if data.length < 4 then .error .InsufficientData else .ok (data.take 4)) := by
  unfold copy_u32
  split
  · rfl
  · rw [index_range_zero (by omega)]; rfl

theorem copy_string_short {target : Target} {data : List UInt8} (short : data.length < 4) :
    copy_string target data = .ok (.error .InsufficientData) := by
  simp [copy_string, short]; rfl

/-- `copy_string` where `read_u32(data) as usize + 5` neither truncates nor overflows. -/
theorem copy_string_eq {target : Target} {data : List UInt8} {len : UInt32}
    (read : target.read_u32 data = .ok len) (fits : len.toNat + 5 < 2 ^ target.width) :
    copy_string target data = .ok (if data.length < len.toNat + 5 then .error .InsufficientData
      else .ok (data.take (len.toNat + 5))) := by
  have long : ¬ data.length < 4 := by
    match data, read with
    | _ :: _ :: _ :: _ :: _, _ => simp
  simp only [copy_string, long, if_false, read, Target.asUsize_of_lt (by omega : len.toNat < 2 ^ target.width),
    Target.addUsize_of_lt fits, pure_bind, ok_bind]
  split
  · rfl
  · rw [index_range_zero (by omega)]; rfl

/-- On a target whose `usize` is wider than 32 bits, every length prefix plus five fits. -/
theorem prefix_fits {target : Target} (wide : 33 ≤ target.width) (len : UInt32) :
    len.toNat + 5 < 2 ^ target.width := by
  have size : len.toNat < 2 ^ 32 := len.toNat_lt_size
  have room : 2 ^ 33 ≤ 2 ^ target.width := Nat.pow_le_pow_right (by decide) wide
  omega

theorem copy_signature_nil (target : Target) : copy_signature target [] = .ok (.error .InsufficientData) := rfl

/-- `copy_signature` on a target whose `usize` holds every `u8` plus one. -/
theorem copy_signature_eq {target : Target} (wide : 9 ≤ target.width) (len : UInt8) (rest : List UInt8) :
    copy_signature target (len :: rest) = .ok (if rest.length < len.toNat then .error .InsufficientData
      else .ok ((len :: rest).take (len.toNat + 1))) := by
  have size : len.toNat < 2 ^ 8 := len.toNat_lt_size
  have room : 2 ^ 9 ≤ 2 ^ target.width := Nat.pow_le_pow_right (by decide) wide
  simp only [copy_signature, List.length_cons, index, List.getElem?_cons_zero, pure_bind, ok_bind,
    Target.asUsize_of_lt (by omega : len.toNat < 2 ^ target.width),
    Target.addUsize_of_lt (by omega : len.toNat + 1 < 2 ^ target.width), Nat.add_lt_add_iff_right]
  split
  · omega
  · split
    · rfl
    · rw [index_range_zero (by simp; omega)]; rfl

/-! ### Encoding a value -/

/-- `encode_u32`. -/
def encode_u32 (target : Target) (value : UInt32) : List UInt8 := target.to_ne_bytes value

/-- `encode_string`: the length as a `u32` (`len as u32`), the bytes and a NUL. The code first
allocates with `Vec::with_capacity(5 + len)`, which panics once `5 + len` exceeds `isize::MAX`;
these are the bytes of every string below that. -/
def encode_string (target : Target) (value : Str) : List UInt8 :=
  target.to_ne_bytes (UInt32.ofNat value.len) ++ value.bytes ++ [0]

/-- `encode_signature`: the length as a `u8` (`len as u8`), the bytes and a NUL. The code first
allocates with `Vec::with_capacity(2 + len)`, which panics once `2 + len` exceeds `isize::MAX`;
these are the bytes of every string below that. -/
def encode_signature (value : Str) : List UInt8 :=
  [UInt8.ofNat value.len] ++ value.bytes ++ [0]

/-! ### `Variant`'s methods -/

/-- `Variant::from_data`. -/
def Variant.from_data (target : Target) (data : List UInt8) (signature : Str) :
    Except Panic (Except VariantError Variant) := do
  let value ←
    if signature = "u" then copy_u32 data
    else if signature = "s" ∨ signature = "o" then copy_string target data
    else if signature = "g" then copy_signature target data
    else pure (.error .UnsupportedType)
  return value.map fun value => { value, signature }

theorem from_data_u (target : Target) (data : List UInt8) :
    Variant.from_data target data "u" =
      .ok (if data.length < 4 then .error .InsufficientData else .ok ⟨"u", data.take 4⟩) := by
  simp only [Variant.from_data, if_pos, copy_u32_eq, ok_bind]
  split <;> rfl

theorem from_data_string {signature : Str} (string : signature = "s" ∨ signature = "o") (target : Target)
    (data : List UInt8) : Variant.from_data target data signature =
      (fun value => value.map fun value => { value, signature }) <$> copy_string target data := by
  have other : signature ≠ "u" := by rcases string with rfl | rfl <;> decide
  simp only [Variant.from_data, if_neg other, if_pos string, bind_pure_comp]

theorem from_data_g (target : Target) (data : List UInt8) : Variant.from_data target data "g" =
    (fun value => value.map fun value => { value, signature := "g" }) <$> copy_signature target data := by
  simp only [Variant.from_data, bind_pure_comp]
  rw [if_neg (by decide), if_neg (by decide), if_pos trivial]

theorem from_data_unsupported {signature : Str}
    (other : signature ≠ "u" ∧ signature ≠ "s" ∧ signature ≠ "o" ∧ signature ≠ "g") (target : Target)
    (data : List UInt8) : Variant.from_data target data signature = .ok (.error .UnsupportedType) := by
  obtain ⟨u, s, o, g⟩ := other
  simp only [Variant.from_data, if_neg u, if_neg g, if_neg (not_or.mpr ⟨s, o⟩)]
  rfl

/-- `Variant::from_string`. -/
def Variant.from_string (target : Target) (string : Str) : Variant :=
  { value := encode_string target string, signature := "s" }

/-- `Variant::from_object_path`. -/
def Variant.from_object_path (target : Target) (path : Str) : Variant :=
  { value := encode_string target path, signature := "o" }

/-- `Variant::from_signature_string`. -/
def Variant.from_signature_string (signature_string : Str) : Variant :=
  { value := encode_signature signature_string, signature := "g" }

/-- `Variant::from_u32`. -/
def Variant.from_u32 (target : Target) (value : UInt32) : Variant :=
  { value := encode_u32 target value, signature := "u" }

/-- `Variant::get_signature`. -/
def Variant.get_signature (self : Variant) : Str := self.signature

/-- `Variant::get_bytes`. -/
def Variant.get_bytes (self : Variant) : List UInt8 := self.value

/-- Where `get_string` starts reading, by the signature. -/
def string_start (signature : Str) : Option Nat :=
  if signature = "s" ∨ signature = "o" then some 4
  else if signature = "g" then some 1
  else none

/-- `Variant::get_string`: everything after the length prefix, to the end of the value. -/
def Variant.get_string (self : Variant) : Except Panic (Except VariantError Str) :=
  match string_start self.signature with
  | none => pure (.error .IncorrectType)
  | some i => do
    let bytes ← index_from self.value i
    return match from_utf8 bytes with
      | some s => .ok s
      | none => .error .InvalidUtf8

/-- `Variant::get_u32`. -/
def Variant.get_u32 (target : Target) (self : Variant) : Except Panic (Except VariantError UInt32) :=
  if self.signature ≠ "u" ∨ self.value.length < 4 then pure (.error .IncorrectType)
  else .ok <$> target.read_u32 self.value

/-- `Variant::len`. -/
def Variant.len (self : Variant) : Nat := self.value.length

end Zbus.Variant
