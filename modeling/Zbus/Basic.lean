import Zbus.Core
import Zbus.Signature

/-!
The `Basic` impls of `zvariant` (`basic.rs`) and the `SIGNATURE` that `impl_type!` gives a basic
type from its `SIGNATURE_CHAR`. An impl is the pair of its constants. Most impls write literals;
the others take both constants from another basic type: by hand (`i8` from `i16`, `char` from
`&str`, ...), or through `impl_basic_for_deref!`, `impl_basic_for_wrapper!` and `atomic_impl!`,
which hold for every basic `T`. `impl_type_eq_ok` says that the match of `impl_type!` is the
table of D-Bus type codes read backwards.
-/
namespace Zbus.Basic
open Zbus.Core Zbus.Signature

/-- The constants of a `Basic` impl. -/
structure BasicImpl where
  SIGNATURE_CHAR : Char
  SIGNATURE_STR : String
deriving DecidableEq, Repr

/-- An impl that takes `SIGNATURE_CHAR` from `charFrom` and `SIGNATURE_STR` from `strFrom`. -/
def delegate (charFrom strFrom : BasicImpl) : BasicImpl := ⟨charFrom.SIGNATURE_CHAR, strFrom.SIGNATURE_STR⟩

/-! ### The impls of `basic.rs` -/

def u8 : BasicImpl := ⟨'y', "y"⟩
def bool : BasicImpl := ⟨'b', "b"⟩
def i16 : BasicImpl := ⟨'n', "n"⟩
def u16 : BasicImpl := ⟨'q', "q"⟩
def i32 : BasicImpl := ⟨'i', "i"⟩
def u32 : BasicImpl := ⟨'u', "u"⟩
def i64 : BasicImpl := ⟨'x', "x"⟩
def u64 : BasicImpl := ⟨'t', "t"⟩
def f64 : BasicImpl := ⟨'d', "d"⟩
def str : BasicImpl := ⟨'s', "s"⟩
def string.String : BasicImpl := ⟨'s', "s"⟩

/-- `i8`: there is no `i8` in D-Bus, so it is an `i16`. -/
def i8 : BasicImpl := delegate i16 i16
/-- `f32`: there is no `f32` in D-Bus, so it is an `f64`. -/
def f32 : BasicImpl := delegate f64 f64
/-- `usize`, serialized as `u64`. -/
def usize : BasicImpl := delegate u64 u64
/-- `isize`, serialized as `i64`. -/
def isize : BasicImpl := delegate i64 i64

def num.NonZeroU8 : BasicImpl := delegate u8 u8
def num.NonZeroI8 : BasicImpl := delegate i8 i8
def num.NonZeroI16 : BasicImpl := delegate i16 i16
def num.NonZeroU16 : BasicImpl := delegate u16 u16
def num.NonZeroI32 : BasicImpl := delegate i32 i32
def num.NonZeroU32 : BasicImpl := delegate u32 u32
def num.NonZeroI64 : BasicImpl := delegate i64 i64
def num.NonZeroU64 : BasicImpl := delegate u64 u64

/-- `impl_basic_for_deref!`: `&T`, `&mut T`, `Cow<T>`, `Arc<T>`, `sync::Weak<T>`, `Mutex<T>`,
`RwLock<T>`, `Box<T>`, `Rc<T>`, `rc::Weak<T>`, `Cell<T>` and `RefCell<T>` have the constants of
`T`. -/
def impl_basic_for_deref (T : BasicImpl) : BasicImpl := delegate T T

/-- `impl_basic_for_wrapper!`: `Wrapping<T>`, `Saturating<T>` and `Reverse<T>` have the
constants of `T`. -/
def impl_basic_for_wrapper (T : BasicImpl) : BasicImpl := delegate T T

/-- `atomic_impl!`: an atomic type has the constants of its primitive. -/
def atomic_impl (primitive : BasicImpl) : BasicImpl := delegate primitive primitive

/-- `char`: the constants of `&str`. -/
def char : BasicImpl := delegate (impl_basic_for_deref str) (impl_basic_for_deref str)

def atomic.AtomicBool : BasicImpl := atomic_impl bool
def atomic.AtomicI8 : BasicImpl := atomic_impl i8
def atomic.AtomicI16 : BasicImpl := atomic_impl i16
def atomic.AtomicI32 : BasicImpl := atomic_impl i32
def atomic.AtomicIsize : BasicImpl := atomic_impl isize
def atomic.AtomicU8 : BasicImpl := atomic_impl u8
def atomic.AtomicU16 : BasicImpl := atomic_impl u16
def atomic.AtomicU32 : BasicImpl := atomic_impl u32
def atomic.AtomicUsize : BasicImpl := atomic_impl usize
def atomic.AtomicI64 : BasicImpl := atomic_impl i64
def atomic.AtomicU64 : BasicImpl := atomic_impl u64

/-- `heapless::String<CAP>`, with the `heapless` feature: the constants of `&str`. -/
def heapless.String : BasicImpl := delegate (impl_basic_for_deref str) (impl_basic_for_deref str)

/-- The impls of `basic.rs` for named types, in the order of the file. -/
def impls : List BasicImpl :=
  [u8, num.NonZeroU8, i8, num.NonZeroI8, bool, i16, num.NonZeroI16, u16, num.NonZeroU16, i32, num.NonZeroI32,
    u32, num.NonZeroU32, i64, num.NonZeroI64, u64, num.NonZeroU64, f32, f64, str, string.String, char, usize,
    isize, atomic.AtomicBool, atomic.AtomicI8, atomic.AtomicI16, atomic.AtomicI32, atomic.AtomicIsize,
    atomic.AtomicU8, atomic.AtomicU16, atomic.AtomicU32, atomic.AtomicUsize, atomic.AtomicI64, atomic.AtomicU64,
    heapless.String]

/-! ### `impl_type!` -/

/-- `impl_type!`: `Type::SIGNATURE` of a basic type, by its `SIGNATURE_CHAR`; `h` is there on
`unix`. -/
def impl_type (T : BasicImpl) : Except Panic Signature :=
  match T.SIGNATURE_CHAR with
  | 'y' => .ok .U8
  | 'b' => .ok .Bool
  | 'n' => .ok .I16
  | 'q' => .ok .U16
  | 'i' => .ok .I32
  | 'u' => .ok .U32
  | 'x' => .ok .I64
  | 't' => .ok .U64
  | 'd' => .ok .F64
  | 's' => .ok .Str
  | 'g' => .ok .Signature
  | 'o' => .ok .ObjectPath
  | 'v' => .ok .Variant
  | 'h' => .ok .Fd
  | _ => .error .Unreachable

/-- Modelled from the D-Bus specification: the type code of a signature that is one code long,
the basic types and `VARIANT`. -/
def type_code : Signature → Option Char
  | .U8 => some 'y'
  | .Bool => some 'b'
  | .I16 => some 'n'
  | .U16 => some 'q'
  | .I32 => some 'i'
  | .U32 => some 'u'
  | .I64 => some 'x'
  | .U64 => some 't'
  | .F64 => some 'd'
  | .Str => some 's'
  | .Signature => some 'g'
  | .ObjectPath => some 'o'
  | .Variant => some 'v'
  | .Fd => some 'h'
  | _ => none

/-- The match of `impl_type!` is the table of type codes read backwards. -/
theorem impl_type_eq_ok {T : BasicImpl} {signature : Signature} :
    impl_type T = .ok signature ↔ type_code signature = some T.SIGNATURE_CHAR := by
  unfold impl_type
  generalize T.SIGNATURE_CHAR = c
  constructor
  · intro matched
    split at matched <;> cases matched <;> rfl
  · intro code
    cases signature <;> cases code <;> rfl

end Zbus.Basic
