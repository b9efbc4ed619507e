import Zbus.NameGrammar

/-!
The name validators of `zbus_names`. Each `validate_bytes` runs a `winnow` parser over the whole
input and then checks the length; each `validate` maps a failure to `Error::InvalidName` with its
name kind's message; the `TryFrom` conversions of `define_name_type_impls!` validate a string and
wrap it. `interface_name` and `well_known_name` share one parser, `dotted_name`, and differ only in
its byte sets; `error_name::validate` calls `interface_name::validate_bytes`.

The main results say that each validator accepts exactly the bytes of its grammar in
`Zbus.NameGrammar`: `dotted_name_accepts` for the dotted names, through `separated_sound` and
`separated_complete`, and `unique_name_accepts` and `member_name_accepts` for the others.
-/
namespace Zbus.Names
open Zbus.Utf8 Zbus.Winnow Zbus.NameGrammar

variable {α : Type}

/-- `zbus_names::Error`, with the one variant the validators return. -/
inductive Error where
  | InvalidName (message : String)
deriving DecidableEq, Repr

/-! ### Byte classes of `AsChar` -/

/-- `AsChar::is_alpha` on a byte. -/
def is_alpha (b : UInt8) : Bool := (0x41 ≤ b.toNat && b.toNat ≤ 0x5A) || (0x61 ≤ b.toNat && b.toNat ≤ 0x7A)

/-- `AsChar::is_dec_digit` on a byte. -/
def is_dec_digit (b : UInt8) : Bool := 0x30 ≤ b.toNat && b.toNat ≤ 0x39

/-- `AsChar::is_alphanum` on a byte. -/
def is_alphanum (b : UInt8) : Bool := is_alpha b || is_dec_digit b

@[simp] theorem is_alpha_iff (b : UInt8) : is_alpha b = true ↔ Letter b := by simp [is_alpha, Letter]

@[simp] theorem is_alphanum_iff (b : UInt8) : is_alphanum b = true ↔ Letter b ∨ Digit b := by
  simp [is_alphanum, is_dec_digit, Digit]

/-! ### The validators -/

/-- What every `validate_bytes` does with its parser: `parser.parse(bytes)`, then the length
check, made last as the least likely failure. -/
def validate_with (parser : Parser α) (bytes : List UInt8) : Except Unit Unit :=
  match parse parser bytes with
  | .error () => .error ()
  | .ok _ => if bytes.length > 255 then .error () else .ok ()

/-- The element parser `(first_element_char, subsequent_element_chars)`:
`(one_of(first), take_while(0.., subsequent))`. -/
def element (first subsequent : UInt8 → Bool) : Parser (UInt8 × List UInt8) :=
  pair (one_of first) (take_while 0 subsequent)

/-- `separated(2.., element, b'.')`, the parser of `interface_name` and of `well_known_name`. -/
def dotted_name (first subsequent : UInt8 → Bool) : Parser Unit :=
  separated 2 usize_MAX (element first subsequent) (literal ['.'.toUInt8])

/-- `validate` of each name kind: its `validate_bytes` on the string's bytes, a failure mapped to
`Error::InvalidName(message)`. -/
def validate_name (message : String) (validate_bytes : List UInt8 → Except Unit Unit) (name : Str) :
    Except Error Unit :=
  (validate_bytes name.bytes).mapError fun _ => .InvalidName message

namespace interface_name

/-- `interface_name::validate_bytes`. -/
def validate_bytes (bytes : List UInt8) : Except Unit Unit :=
  validate_with (dotted_name (fun b => is_alpha b || b == '_'.toUInt8) (fun b => is_alphanum b || b == '_'.toUInt8))
    bytes

/-- `interface_name::validate`. -/
def validate (name : Str) : Except Error Unit :=
  validate_name
    "Invalid interface name. See https://dbus.freedesktop.org/doc/dbus-specification.html#message-protocol-names-interface"
    validate_bytes name

end interface_name

namespace error_name

/-- `error_name::validate`: error names follow the rules of interface names. -/
def validate (name : Str) : Except Error Unit :=
  validate_name
    "Invalid error name. See https://dbus.freedesktop.org/doc/dbus-specification.html#message-protocol-names-error"
    interface_name.validate_bytes name

end error_name

namespace well_known_name

/-- `well_known_name::validate_bytes`. -/
def validate_bytes (bytes : List UInt8) : Except Unit Unit :=
  validate_with
    (dotted_name (fun b => is_alpha b || b == '_'.toUInt8 || b == '-'.toUInt8)
      (fun b => is_alphanum b || b == '_'.toUInt8 || b == '-'.toUInt8)) bytes

/-- `well_known_name::validate`. -/
def validate (name : Str) : Except Error Unit :=
  validate_name "Invalid well-known name. See https://dbus.freedesktop.org/doc/dbus-specification.html#message-protocol-names-bus"
    validate_bytes name

end well_known_name

namespace member_name

/-- `member_name::validate_bytes`. -/
def validate_bytes (bytes : List UInt8) : Except Unit Unit :=
  validate_with (element (fun b => is_alpha b || b == '_'.toUInt8) (fun b => is_alphanum b || b == '_'.toUInt8)) bytes

/-- `member_name::validate`. -/
def validate (name : Str) : Except Error Unit :=
  validate_name "Invalid member name. See https://dbus.freedesktop.org/doc/dbus-specification.html#message-protocol-names-member"
    validate_bytes name

end member_name

namespace unique_name

/-- `element`: `take_while(1.., (AsChar::is_alphanum, b'_', b'-'))`. -/
def element : Parser (List UInt8) := take_while 1 fun b => is_alphanum b || b == '_'.toUInt8 || b == '-'.toUInt8

/-- `peer_name`: `:` and two or more dotted elements. -/
def peer_name : Parser Unit :=
  map (pair (literal [':'.toUInt8]) (separated 2 usize_MAX element (literal ['.'.toUInt8]))) fun _ => ()

/-- `bus_name`: the literal `org.freedesktop.DBus`. -/
def bus_name : Parser Unit := map (literal (Str.ofString "org.freedesktop.DBus").bytes) fun _ => ()

/-- `unique_name::validate_bytes`. -/
def validate_bytes (bytes : List UInt8) : Except Unit Unit := validate_with (alt bus_name peer_name) bytes

/-- `unique_name::validate`. -/
def validate (name : Str) : Except Error Unit :=
  validate_name "Invalid unique name. See https://dbus.freedesktop.org/doc/dbus-specification.html#message-protocol-names-bus"
    validate_bytes name

end unique_name

/-- `ensure_correct_property_name`: property names are only checked for length. -/
def ensure_correct_property_name (name : Str) : Except Error Unit :=
  if name.len = 0 then .error (.InvalidName "Invalid property name. It has to be at least 1 character long.")
  else if name.len > 255 then .error (.InvalidName "Invalid property name. It can not be longer than 255 characters.")
  else .ok ()

/-! ### Name types -/

/-- A name type of `define_name_type_impls!`: a string that its `validate` accepts. -/
structure Name (validate : Str → Except Error Unit) where
  inner : Str
  valid : validate inner = .ok ()

/-- `TryFrom` from `&str`, `String`, `Arc<str>`, `Cow<str>` and `Str`, of
`define_name_type_impls!`: validate the string, then wrap it. -/
def Name.try_from {validate : Str → Except Error Unit} (value : Str) : Except Error (Name validate) :=
  match valid : validate value with
  | .ok () => .ok ⟨value, valid⟩
  | .error e => .error e

/-- `InterfaceName`. -/
def InterfaceName : Type := Name interface_name.validate
/-- `ErrorName`. -/
def ErrorName : Type := Name error_name.validate
/-- `WellKnownName`. -/
def WellKnownName : Type := Name well_known_name.validate
/-- `MemberName`. -/
def MemberName : Type := Name member_name.validate
/-- `UniqueName`. -/
def UniqueName : Type := Name unique_name.validate
/-- `PropertyName`. -/
def PropertyName : Type := Name ensure_correct_property_name

/-- `InterfaceName::try_from`. -/
def InterfaceName.try_from (value : Str) : Except Error InterfaceName := Name.try_from value
/-- `ErrorName::try_from`. -/
def ErrorName.try_from (value : Str) : Except Error ErrorName := Name.try_from value
/-- `WellKnownName::try_from`. -/
def WellKnownName.try_from (value : Str) : Except Error WellKnownName := Name.try_from value
/-- `MemberName::try_from`. -/
def MemberName.try_from (value : Str) : Except Error MemberName := Name.try_from value
/-- `UniqueName::try_from`. -/
def UniqueName.try_from (value : Str) : Except Error UniqueName := Name.try_from value
/-- `PropertyName::try_from`. -/
def PropertyName.try_from (value : Str) : Except Error PropertyName := Name.try_from value

/-! ### Validation and conversion -/

theorem validate_with_eq_ok {parser : Parser α} {bytes : List UInt8} :
    validate_with parser bytes = .ok () ↔ bytes.length ≤ 255 ∧ ∃ output, parser bytes = .ok (output, []) := by
  rw [← parse_eq_ok]
  unfold validate_with
  cases parse parser bytes with
  | error e => simp
  | ok output => by_cases long : bytes.length ≤ 255 <;> simp [long]

theorem validate_name_eq_ok {message : String} {validate_bytes : List UInt8 → Except Unit Unit} {name : Str} :
    validate_name message validate_bytes name = .ok () ↔ validate_bytes name.bytes = .ok () := by
  unfold validate_name
  cases validate_bytes name.bytes <;> simp [Except.mapError]

/-- A failed `validate` returns its name kind's message. -/
theorem validate_name_eq_error {message : String} {validate_bytes : List UInt8 → Except Unit Unit} {name : Str}
    {e : Error} : validate_name message validate_bytes name = .error e ↔
      validate_bytes name.bytes ≠ .ok () ∧ e = .InvalidName message := by
  unfold validate_name
  cases validate_bytes name.bytes <;> simp [Except.mapError, eq_comm]

section
variable {validate : Str → Except Error Unit} {value : Str}

theorem Name.try_from_ok_iff : (∃ name, @Name.try_from validate value = .ok name) ↔ validate value = .ok () := by
  unfold Name.try_from
  split <;> simp_all

/-- A converted name holds the string it was converted from. -/
theorem Name.try_from_inner {name : Name validate} (converted : Name.try_from value = .ok name) : name.inner = value := by
  unfold Name.try_from at converted
  split at converted <;> cases converted
  rfl

/-- A failed conversion returns the error of `validate`. -/
theorem Name.try_from_eq_error {e : Error} : @Name.try_from validate value = .error e ↔ validate value = .error e := by
  unfold Name.try_from
  split <;> simp_all

end

/-! ### Element parsers -/

/-- `element first subsequent` reads exactly the elements of the byte classes it tests, as long as
the dot is not a subsequent byte. -/
theorem element_spec {first subsequent : UInt8 → Bool} {F S : UInt8 → Prop} (firstIff : ∀ b, first b = true ↔ F b)
    (subsequentIff : ∀ b, subsequent b = true ↔ S b) (notDot : subsequent dot = false) :
    ElementSpec (element first subsequent) (Element F S) dot where
  sound {input output rest} ran := by
    obtain ⟨c, cs⟩ := output
    obtain ⟨middle, firstRan, restRan⟩ := pair_eq_ok.mp ran
    obtain ⟨rfl, isFirst⟩ := one_of_eq_ok.mp firstRan
    obtain ⟨rfl, inside, -⟩ := take_while_sound restRan
    exact ⟨c :: cs, ⟨c, cs, rfl, (firstIff c).mp isFirst, fun b member => (subsequentIff b).mp (inside b member)⟩, rfl⟩
  complete {word rest} isElement stops := by
    obtain ⟨c, cs, rfl, isFirst, inside⟩ := isElement
    refine ⟨(c, cs), pair_eq_ok.mpr ⟨cs ++ rest, one_of_eq_ok.mpr ⟨rfl, (firstIff c).mpr isFirst⟩, ?_⟩⟩
    exact take_while_append (fun b member => (subsequentIff b).mpr (inside b member))
      (fun b member => by rw [stops b member]; exact notDot) (Nat.zero_le _)

theorem unique_element_spec : ElementSpec unique_name.element UniqueElement dot where
  sound {input output rest} ran := by
    obtain ⟨rfl, inside, long⟩ := take_while_sound ran
    refine ⟨output, ⟨fun empty => by simp [empty] at long, fun b member => ?_⟩, rfl⟩
    simpa [or_assoc] using inside b member
  complete {word rest} isElement stops := by
    refine ⟨word, take_while_append (fun b member => ?_) (fun b member => by rw [stops b member]; rfl) ?_⟩
    · simpa [or_assoc] using isElement.2 b member
    · exact List.length_pos.mpr isElement.1

/-! ### What each validator accepts -/

/-- A dotted-name validator accepts exactly the names of at most 255 bytes made of two or more
elements of its byte classes. -/
theorem dotted_name_accepts {first subsequent : UInt8 → Bool} {F S : UInt8 → Prop}
    (firstIff : ∀ b, first b = true ↔ F b) (subsequentIff : ∀ b, subsequent b = true ↔ S b)
    (notDot : subsequent dot = false) (bytes : List UInt8) :
    validate_with (dotted_name first subsequent) bytes = .ok () ↔
      bytes.length ≤ 255 ∧ DotSeparated (Element F S) bytes := by
  have spec := element_spec firstIff subsequentIff notDot
  rw [validate_with_eq_ok]
  constructor
  · rintro ⟨short, _, ran⟩
    obtain ⟨words, counted, elements, whole⟩ := separated_sound spec (by decide) ran
    exact ⟨short, words, counted, elements, by rw [whole, List.append_nil]⟩
  · rintro ⟨short, words, counted, elements, rfl⟩
    have := length_le_intercalate dot words
    exact ⟨short, (), separated_complete spec (by decide) counted (by unfold usize_MAX; omega) elements⟩

theorem interface_name_accepts (bytes : List UInt8) :
    interface_name.validate_bytes bytes = .ok () ↔ InterfaceNameBytes bytes :=
  dotted_name_accepts (by simp) (by simp [or_assoc]) (by decide) bytes

theorem well_known_name_accepts (bytes : List UInt8) :
    well_known_name.validate_bytes bytes = .ok () ↔ WellKnownNameBytes bytes :=
  dotted_name_accepts (by simp [or_assoc]) (by simp [or_assoc]) (by decide) bytes

theorem member_name_accepts (bytes : List UInt8) : member_name.validate_bytes bytes = .ok () ↔ MemberNameBytes bytes := by
  have spec : ElementSpec (element (fun b => is_alpha b || b == '_'.toUInt8) (fun b => is_alphanum b || b == '_'.toUInt8))
      InterfaceElement dot := element_spec (by simp) (by simp [or_assoc]) (by decide)
  rw [member_name.validate_bytes, validate_with_eq_ok]
  constructor
  · rintro ⟨short, _, ran⟩
    obtain ⟨word, isElement, whole⟩ := spec.sound ran
    exact ⟨short, by rw [whole, List.append_nil]; exact isElement⟩
  · rintro ⟨short, isElement⟩
    obtain ⟨output, ran⟩ := @ElementSpec.complete _ _ _ _ spec _ [] isElement nofun
    exact ⟨short, output, by rw [← ran, List.append_nil]⟩

theorem unique_name_accepts (bytes : List UInt8) : unique_name.validate_bytes bytes = .ok () ↔ UniqueNameBytes bytes := by
  have notColon (rest : List UInt8) : (Str.ofString "org.freedesktop.DBus").bytes.isPrefixOf (':'.toUInt8 :: rest) = false := by
    have head : (Str.ofString "org.freedesktop.DBus").bytes = 111 :: (Str.ofString "org.freedesktop.DBus").bytes.tail := by
      decide
    have differ : ((111 : UInt8) == ':'.toUInt8) = false := by decide
    rw [head, List.isPrefixOf, differ, Bool.false_and]
  rw [unique_name.validate_bytes, validate_with_eq_ok]
  refine and_congr_right fun short => ⟨?_, ?_⟩
  · rintro ⟨_, ran⟩
    rcases alt_eq_ok.mp ran with bus | ⟨-, peer⟩
    · obtain ⟨_, literalRan, -⟩ := map_eq_ok.mp bus
      exact .inl (by rw [literal_sound literalRan, List.append_nil]; rfl)
    · obtain ⟨⟨_, _⟩, pairRan, -⟩ := map_eq_ok.mp peer
      obtain ⟨rest, colon, dotted⟩ := pair_eq_ok.mp pairRan
      obtain ⟨words, counted, elements, whole⟩ := separated_sound unique_element_spec (by decide) dotted
      exact .inr ⟨rest, literal_sound colon, words, counted, elements, by rw [whole, List.append_nil]⟩
  · rintro (rfl | ⟨rest, rfl, words, counted, elements, rfl⟩)
    · have whole := literal_append DBusName []
      rw [List.append_nil] at whole
      exact ⟨(), alt_eq_ok.mpr (.inl (map_eq_ok.mpr ⟨_, whole, rfl⟩))⟩
    · have := length_le_intercalate dot words
      simp only [List.length_cons] at short
      refine ⟨(), alt_eq_ok.mpr (.inr ⟨map_of_error (literal_of_mismatch (notColon _)), ?_⟩)⟩
      refine map_eq_ok.mpr ⟨([':'.toUInt8], ()), pair_eq_ok.mpr ⟨_, literal_cons _ _, ?_⟩, rfl⟩
      exact separated_complete unique_element_spec (by decide) counted (by unfold usize_MAX; omega) elements

/-- A name type built on `validate_name` converts exactly the strings whose bytes its
`validate_bytes` accepts. -/
theorem try_from_accepts {message : String} {validate_bytes : List UInt8 → Except Unit Unit}
    {accepted : List UInt8 → Prop} (accepts : ∀ bytes, validate_bytes bytes = .ok () ↔ accepted bytes) (value : Str) :
    (∃ name, @Name.try_from (validate_name message validate_bytes) value = .ok name) ↔ accepted value.bytes :=
  Name.try_from_ok_iff.trans (validate_name_eq_ok.trans (accepts _))

/-! ### The name types -/

/-- `InterfaceName` and `ErrorName` accept exactly the interface names; in particular no name that
is empty, starts or ends with a dot, holds two dots in a row, a `-` or a byte past ASCII, has an
element that starts with a digit, or is longer than 255 bytes. -/
theorem interface_and_error_name_grammar :
    (∀ bytes, interface_name.validate_bytes bytes = .ok () ↔ InterfaceNameBytes bytes) ∧
    (∀ value : Str, (∃ name, InterfaceName.try_from value = .ok name) ↔ InterfaceNameBytes value.bytes) ∧
    (∀ value : Str, (∃ name, ErrorName.try_from value = .ok name) ↔ InterfaceNameBytes value.bytes) ∧
    interface_name.validate_bytes [] ≠ .ok () ∧
    (∀ rest, interface_name.validate_bytes (dot :: rest) ≠ .ok ()) ∧
    (∀ pre, interface_name.validate_bytes (pre ++ [dot]) ≠ .ok ()) ∧
    (∀ pre post, interface_name.validate_bytes (pre ++ dot :: dot :: post) ≠ .ok ()) ∧
    (∀ bytes, '-'.toUInt8 ∈ bytes → interface_name.validate_bytes bytes ≠ .ok ()) ∧
    (∀ c rest, Digit c → interface_name.validate_bytes (c :: rest) ≠ .ok ()) ∧
    (∀ pre c post, Digit c → interface_name.validate_bytes (pre ++ dot :: c :: post) ≠ .ok ()) ∧
    (∀ bytes b, b ∈ bytes → 128 ≤ b.toNat → interface_name.validate_bytes bytes ≠ .ok ()) ∧
    (∀ bytes : List UInt8, 255 < bytes.length → interface_name.validate_bytes bytes ≠ .ok ()) := by
  have notFirst : ¬ (Letter dot ∨ dot = '_'.toUInt8) := by decide
  have notSubsequent : ¬ (Letter dot ∨ Digit dot ∨ dot = '_'.toUInt8) := by decide
  have digitNotFirst {c : UInt8} (digit : Digit c) : ¬ (Letter c ∨ c = '_'.toUInt8) :=
    fun first => first.elim digit.not_letter (digit.ne (by decide))
  have name {bytes} (ok : interface_name.validate_bytes bytes = .ok ()) : DotSeparated InterfaceElement bytes :=
    ((interface_name_accepts bytes).mp ok).2
  have startsWell {c rest} (ok : interface_name.validate_bytes (c :: rest) = .ok ()) : Letter c ∨ c = '_'.toUInt8 := by
    obtain ⟨_, _, same, isFirst⟩ := (name ok).head
    cases same; exact isFirst
  have followsWell {pre c post} (ok : interface_name.validate_bytes (pre ++ dot :: c :: post) = .ok ()) :
      Letter c ∨ c = '_'.toUInt8 := by
    obtain ⟨_, _, same, isFirst⟩ := (name ok).dot_followed notFirst notSubsequent rfl
    cases same; exact isFirst
  refine ⟨interface_name_accepts, try_from_accepts interface_name_accepts, try_from_accepts interface_name_accepts,
    fun ok => ?_, fun _ ok => notFirst (startsWell ok), fun pre ok => (name ok).not_ends_with_dot notFirst notSubsequent pre rfl,
    fun _ _ ok => notFirst (followsWell ok), fun _ dash ok => absurd ((name ok).mem dash) (by decide),
    fun _ _ digit ok => digitNotFirst digit (startsWell ok), fun _ _ _ digit ok => digitNotFirst digit (followsWell ok),
    fun _ b member high ok => ?_, fun bytes long ok => absurd ((interface_name_accepts bytes).mp ok).1 (by omega)⟩
  · obtain ⟨_, _, empty, _⟩ := (name ok).head
    cases empty
  · have ascii : b.toNat < 128 := by
      rcases (name ok).mem member with rfl | (letter | rfl) | (letter | digit | rfl) <;>
        first | decide | exact letter.ascii | exact digit.ascii
    omega

/-- `UniqueName` accepts exactly the unique bus names. -/
theorem unique_name_grammar :
    (∀ bytes, unique_name.validate_bytes bytes = .ok () ↔ UniqueNameBytes bytes) ∧
    (∀ value : Str, (∃ name, UniqueName.try_from value = .ok name) ↔ UniqueNameBytes value.bytes) :=
  ⟨unique_name_accepts, try_from_accepts unique_name_accepts⟩

/-- `WellKnownName` accepts exactly the well-known bus names; in particular no name has an element
that starts with a digit, starts with `:` or a dot, or ends with a dot. -/
theorem well_known_name_grammar :
    (∀ bytes, well_known_name.validate_bytes bytes = .ok () ↔ WellKnownNameBytes bytes) ∧
    (∀ value : Str, (∃ name, WellKnownName.try_from value = .ok name) ↔ WellKnownNameBytes value.bytes) ∧
    (∀ c rest, Digit c → well_known_name.validate_bytes (c :: rest) ≠ .ok ()) ∧
    (∀ pre c post, Digit c → well_known_name.validate_bytes (pre ++ dot :: c :: post) ≠ .ok ()) ∧
    (∀ rest, well_known_name.validate_bytes (':'.toUInt8 :: rest) ≠ .ok ()) ∧
    (∀ rest, well_known_name.validate_bytes (dot :: rest) ≠ .ok ()) ∧
    (∀ pre, well_known_name.validate_bytes (pre ++ [dot]) ≠ .ok ()) := by
  have notFirst : ¬ (Letter dot ∨ dot = '_'.toUInt8 ∨ dot = '-'.toUInt8) := by decide
  have notSubsequent : ¬ (Letter dot ∨ Digit dot ∨ dot = '_'.toUInt8 ∨ dot = '-'.toUInt8) := by decide
  have digitNotFirst {c : UInt8} (digit : Digit c) : ¬ (Letter c ∨ c = '_'.toUInt8 ∨ c = '-'.toUInt8) :=
    fun first => first.elim digit.not_letter fun other => other.elim (digit.ne (by decide)) (digit.ne (by decide))
  have name {bytes} (ok : well_known_name.validate_bytes bytes = .ok ()) : DotSeparated WellKnownElement bytes :=
    ((well_known_name_accepts bytes).mp ok).2
  have startsWell {c rest} (ok : well_known_name.validate_bytes (c :: rest) = .ok ()) :
      Letter c ∨ c = '_'.toUInt8 ∨ c = '-'.toUInt8 := by
    obtain ⟨_, _, same, isFirst⟩ := (name ok).head
    cases same; exact isFirst
  refine ⟨well_known_name_accepts, try_from_accepts well_known_name_accepts,
    fun _ _ digit ok => digitNotFirst digit (startsWell ok), fun pre c post digit ok => ?_,
    fun _ ok => absurd (startsWell ok) (by decide), fun _ ok => notFirst (startsWell ok),
    fun pre ok => (name ok).not_ends_with_dot notFirst notSubsequent pre rfl⟩
  obtain ⟨_, _, same, isFirst⟩ := (name ok).dot_followed notFirst notSubsequent rfl
  cases same
  exact digitNotFirst digit isFirst

/-- `MemberName` accepts exactly the names of one element, of 1 to 255 bytes; so no dot, no `-`, no
leading digit and no byte past ASCII. -/
theorem member_name_grammar :
    (∀ bytes, member_name.validate_bytes bytes = .ok () ↔ 1 ≤ bytes.length ∧ bytes.length ≤ 255 ∧
      ∃ c cs, bytes = c :: cs ∧ (Letter c ∨ c = '_'.toUInt8) ∧ ∀ b ∈ cs, Letter b ∨ Digit b ∨ b = '_'.toUInt8) ∧
    (∀ value : Str, (∃ name, MemberName.try_from value = .ok name) ↔ MemberNameBytes value.bytes) ∧
    (∀ bytes, dot ∈ bytes → member_name.validate_bytes bytes ≠ .ok ()) ∧
    (∀ bytes, '-'.toUInt8 ∈ bytes → member_name.validate_bytes bytes ≠ .ok ()) ∧
    (∀ c rest, Digit c → member_name.validate_bytes (c :: rest) ≠ .ok ()) ∧
    (∀ bytes b, b ∈ bytes → 128 ≤ b.toNat → member_name.validate_bytes bytes ≠ .ok ()) := by
  have element {bytes} (ok : member_name.validate_bytes bytes = .ok ()) : InterfaceElement bytes :=
    ((member_name_accepts bytes).mp ok).2
  refine ⟨fun bytes => (member_name_accepts bytes).trans ⟨?_, fun ⟨_, short, isElement⟩ => ⟨short, isElement⟩⟩,
    try_from_accepts member_name_accepts, fun _ member ok => absurd ((element ok).mem member) (by decide),
    fun _ dash ok => absurd ((element ok).mem dash) (by decide), fun c rest digit ok => ?_, fun _ b member high ok => ?_⟩
  · rintro ⟨short, c, cs, rfl, isFirst, rest⟩
    exact ⟨by simp, short, c, cs, rfl, isFirst, rest⟩
  · obtain ⟨_, _, same, isFirst, -⟩ := element ok
    cases same
    exact isFirst.elim digit.not_letter (digit.ne (by decide))
  · have ascii : b.toNat < 128 := by
      rcases (element ok).mem member with (letter | rfl) | (letter | digit | rfl) <;>
        first | decide | exact letter.ascii | exact digit.ascii
    omega

/-! ### Between the validators -/

/-- Every interface name is a well-known bus name. -/
theorem interface_name_is_well_known {bytes : List UInt8} (ok : interface_name.validate_bytes bytes = .ok ()) :
    well_known_name.validate_bytes bytes = .ok () := by
  obtain ⟨short, name⟩ := (interface_name_accepts bytes).mp ok
  refine (well_known_name_accepts bytes).mpr ⟨short, name.mono fun w => Element.mono ?_ ?_⟩
  · rintro b (letter | underscore)
    exacts [.inl letter, .inr (.inl underscore)]
  · rintro b (letter | digit | underscore)
    exacts [.inl letter, .inr (.inl digit), .inr (.inr (.inl underscore))]

theorem org_gnome_shell_is_well_known : interface_name.validate_bytes (Str.ofString "org.gnome.Shell").bytes = .ok () ∧
    well_known_name.validate_bytes (Str.ofString "org.gnome.Shell").bytes = .ok () :=
  ⟨by decide, interface_name_is_well_known (by decide)⟩

/-- The only name that is both a unique and a well-known bus name is the bus's own. -/
theorem unique_and_well_known {bytes : List UInt8} :
    unique_name.validate_bytes bytes = .ok () ∧ well_known_name.validate_bytes bytes = .ok () ↔ bytes = DBusName := by
  constructor
  · rintro ⟨unique, wellKnown⟩
    obtain ⟨-, own | ⟨rest, rfl, -⟩⟩ := (unique_name_accepts bytes).mp unique
    · exact own
    · obtain ⟨_, _, same, isFirst⟩ := ((well_known_name_accepts _).mp wellKnown).2.head
      cases same
      exact absurd isFirst (by decide)
  · rintro rfl
    exact ⟨by decide, by decide⟩

end Zbus.Names
