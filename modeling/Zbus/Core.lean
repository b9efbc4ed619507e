import Mathlib

/-!
The Rust primitives the modelled code relies on. A `Target` fixes the width of `usize`, the
byte order that `NativeEndian` and `to_ne_bytes` use and whether the build checks integer
overflow; a panic is an outcome of its own (`Except Panic`), apart from the `Result` a function
returns.
-/
namespace Zbus.Core

/-- Why a computation panicked. -/
inductive Panic where
  /-- An arithmetic operation overflowed in a build with overflow checks. -/
  | ArithmeticOverflow
  /-- A slice or an index out of bounds. -/
  | IndexOutOfBounds
  /-- `unreachable!()` was reached; in a constant it fails the build. -/
  | Unreachable
  /-- An `assert!` failed. -/
  | AssertionFailed
deriving DecidableEq, Repr

/-- `std::io::Error`, by what its `Display` writes: the modelled code only formats it. -/
structure IoError where
  display : String
deriving DecidableEq, Repr

/-- The platform and the build profile the code is compiled for. -/
structure Target where
  /-- `usize::BITS`. -/
  width : Nat
  /-- `cfg(target_endian = "big")`. -/
  bigEndian : Bool
  /-- The profile's `overflow-checks`: on in debug builds, off in release builds. -/
  overflowChecks : Bool
  /-- `target_pointer_width` is `"16"`, `"32"` or `"64"`. -/
  width_valid : width = 16 ∨ width = 32 ∨ width = 64
deriving DecidableEq

/-- `isize::MAX`: no object, a `str` included, is longer. -/
def Target.isizeMax (target : Target) : Nat := 2 ^ (target.width - 1) - 1

theorem Target.isizeMax_add_lt (target : Target) (n : Nat) (small : n ≤ 5) :
    target.isizeMax + n < 2 ^ target.width := by
  rcases target.width_valid with width | width | width <;> simp only [isizeMax, width] <;> omega

/-- A 64-bit little-endian target, such as `x86_64-unknown-linux-gnu`. -/
def Target.x86_64 (overflowChecks : Bool) : Target := ⟨64, false, overflowChecks, by decide⟩

/-- A 32-bit little-endian target, such as `i686-unknown-linux-gnu`. -/
def Target.i686 (overflowChecks : Bool) : Target := ⟨32, false, overflowChecks, by decide⟩

instance decEqExcept {ε α : Type} [DecidableEq ε] [DecidableEq α] : DecidableEq (Except ε α)
  | .ok a, .ok b => if same : a = b then isTrue (same ▸ rfl) else isFalse fun e => same (Except.ok.inj e)
  | .error a, .error b => if same : a = b then isTrue (same ▸ rfl) else isFalse fun e => same (Except.error.inj e)
  | .ok _, .error _ => isFalse nofun
  | .error _, .ok _ => isFalse nofun

@[simp] theorem ok_bind {ε α β : Type} (a : α) (f : α → Except ε β) : (Except.ok a >>= f) = f a := rfl
@[simp] theorem error_bind {ε α β : Type} (e : ε) (f : α → Except ε β) : (Except.error e >>= f) = .error e := rfl
@[simp] theorem map_ok {ε α β : Type} (f : α → β) (a : α) : (f <$> (Except.ok a : Except ε α)) = .ok (f a) := rfl
@[simp] theorem map_error {ε α β : Type} (f : α → β) (e : ε) : (f <$> (Except.error e : Except ε α)) = .error e := rfl

theorem UInt8.toNat_ofNat' (n : Nat) : (UInt8.ofNat n).toNat = n % 256 := BitVec.toNat_ofNat n 8
theorem UInt32.toNat_ofNat' (n : Nat) : (UInt32.ofNat n).toNat = n % 2 ^ 32 := BitVec.toNat_ofNat n 32
theorem UInt32.ofNat_toNat' (x : UInt32) : UInt32.ofNat x.toNat = x :=
  UInt32.toNat.inj (by rw [UInt32.toNat_ofNat']; exact Nat.mod_eq_of_lt x.toNat_lt_size)

/-! ### `usize` arithmetic -/

/-- `n as usize` for an unsigned `n`. -/
def Target.asUsize (target : Target) (n : Nat) : Nat := n % 2 ^ target.width

/-- `a + b` on `usize`: it panics on overflow with overflow checks, and wraps without. -/
def Target.addUsize (target : Target) (a b : Nat) : Except Panic Nat :=
  if a + b < 2 ^ target.width then .ok (a + b)
  else if target.overflowChecks then .error .ArithmeticOverflow
  else .ok ((a + b) % 2 ^ target.width)

theorem Target.addUsize_of_lt {target : Target} {a b : Nat} (fits : a + b < 2 ^ target.width) :
    target.addUsize a b = .ok (a + b) := if_pos fits

theorem Target.asUsize_of_lt {target : Target} {n : Nat} (fits : n < 2 ^ target.width) :
    target.asUsize n = n := Nat.mod_eq_of_lt fits

/-! ### Slices -/

/-- `data[lo..hi]`. -/
def index_range {α : Type} (data : List α) (lo hi : Nat) : Except Panic (List α) :=
  if lo ≤ hi ∧ hi ≤ data.length then .ok ((data.take hi).drop lo) else .error .IndexOutOfBounds

/-- `data[lo..]`. -/
def index_from {α : Type} (data : List α) (lo : Nat) : Except Panic (List α) :=
  if lo ≤ data.length then .ok (data.drop lo) else .error .IndexOutOfBounds

/-- `data[i]`. -/
def index {α : Type} (data : List α) (i : Nat) : Except Panic α :=
  match data[i]? with
  | some a => .ok a
  | none => .error .IndexOutOfBounds

theorem index_range_zero {α : Type} {data : List α} {hi : Nat} (inside : hi ≤ data.length) :
    index_range data 0 hi = .ok (data.take hi) := by
  simp [index_range, inside]

theorem index_from_of_le {α : Type} {data : List α} {lo : Nat} (inside : lo ≤ data.length) :
    index_from data lo = .ok (data.drop lo) := if_pos inside

/-! ### Byte order of `u32` -/

/-- `u32::to_le_bytes`. -/
def to_le_bytes (x : UInt32) : List UInt8 :=
  [UInt8.ofNat x.toNat, UInt8.ofNat (x.toNat / 0x100), UInt8.ofNat (x.toNat / 0x10000),
    UInt8.ofNat (x.toNat / 0x1000000)]

/-- `u32::from_le_bytes`. -/
def from_le_bytes (b0 b1 b2 b3 : UInt8) : UInt32 :=
  UInt32.ofNat (b0.toNat + 0x100 * b1.toNat + 0x10000 * b2.toNat + 0x1000000 * b3.toNat)

/-- `u32::to_ne_bytes`. -/
def Target.to_ne_bytes (target : Target) (x : UInt32) : List UInt8 :=
  if target.bigEndian then (to_le_bytes x).reverse else to_le_bytes x

/-- `NativeEndian::read_u32`: the first four bytes, in the target's order. It panics on a
buffer shorter than four bytes. -/
def Target.read_u32 (target : Target) : List UInt8 → Except Panic UInt32
  | b0 :: b1 :: b2 :: b3 :: _ =>
    .ok (if target.bigEndian then from_le_bytes b3 b2 b1 b0 else from_le_bytes b0 b1 b2 b3)
  | _ => .error .IndexOutOfBounds

@[simp] theorem to_ne_bytes_length (target : Target) (x : UInt32) : (target.to_ne_bytes x).length = 4 := by
  unfold Target.to_ne_bytes; split <;> rfl

theorem from_le_bytes_to_le_bytes (x : UInt32) :
    from_le_bytes (UInt8.ofNat x.toNat) (UInt8.ofNat (x.toNat / 0x100)) (UInt8.ofNat (x.toNat / 0x10000))
      (UInt8.ofNat (x.toNat / 0x1000000)) = x := by
  have size : x.toNat < 2 ^ 32 := x.toNat_lt_size
  apply UInt32.toNat.inj
  simp only [from_le_bytes, UInt32.toNat_ofNat', UInt8.toNat_ofNat']
  omega

/-- Reading back what `to_ne_bytes` wrote, in either byte order. -/
theorem read_u32_to_ne_bytes (target : Target) (x : UInt32) (rest : List UInt8) :
    target.read_u32 (target.to_ne_bytes x ++ rest) = .ok x := by
  cases order : target.bigEndian <;>
    simp [Target.to_ne_bytes, to_le_bytes, Target.read_u32, order, from_le_bytes_to_le_bytes]

theorem to_le_bytes_from_le_bytes (b0 b1 b2 b3 : UInt8) :
    to_le_bytes (from_le_bytes b0 b1 b2 b3) = [b0, b1, b2, b3] := by
  have byte (b : UInt8) (n : Nat) (value : n % 256 = b.toNat) : UInt8.ofNat n = b :=
    UInt8.toNat.inj (by rw [UInt8.toNat_ofNat', value])
  have bounds : b0.toNat < 256 ∧ b1.toNat < 256 ∧ b2.toNat < 256 ∧ b3.toNat < 256 :=
    ⟨b0.toNat_lt_size, b1.toNat_lt_size, b2.toNat_lt_size, b3.toNat_lt_size⟩
  simp only [to_le_bytes, from_le_bytes, UInt32.toNat_ofNat', Nat.reducePow, List.cons.injEq, and_true]
  refine ⟨byte _ _ ?_, byte _ _ ?_, byte _ _ ?_, byte _ _ ?_⟩ <;> omega

/-- Writing back what `read_u32` read gives the first four bytes. -/
theorem to_ne_bytes_read_u32 {target : Target} {buf : List UInt8} {x : UInt32}
    (read : target.read_u32 buf = .ok x) : target.to_ne_bytes x = buf.take 4 := by
  match buf, read with
  | b0 :: b1 :: b2 :: b3 :: _, read =>
    cases order : target.bigEndian <;>
      simp only [Target.read_u32, order, Except.ok.injEq] at read <;>
      simp [← read, Target.to_ne_bytes, order, to_le_bytes_from_le_bytes]

theorem read_u32_of_length {target : Target} {buf : List UInt8} (long : 4 ≤ buf.length) :
    ∃ x, target.read_u32 buf = .ok x := by
  match buf, long with
  | _ :: _ :: _ :: _ :: _, _ => exact ⟨_, rfl⟩

end Zbus.Core
