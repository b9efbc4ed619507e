import Zbus.Winnow
import Zbus.Utf8

/-!
The grammars of D-Bus names, as the D-Bus specification states them: ASCII byte classes,
elements made of them, and names of two or more elements joined by single dots. Nothing here
mentions a parser; `Zbus.Names` proves that each validator accepts exactly its grammar.

The lemmas on `DotSeparated` say what every dotted name looks like, whatever its byte classes,
as long as neither class holds the dot: it starts with a byte that can start an element, every
dot is followed by one, and every byte is a dot or belongs to a class.
-/
namespace Zbus.NameGrammar
open Zbus.Utf8 Zbus.Winnow

/-- `[A-Za-z]`. -/
def Letter (b : UInt8) : Prop := (65 ≤ b.toNat ∧ b.toNat ≤ 90) ∨ (97 ≤ b.toNat ∧ b.toNat ≤ 122)

/-- `[0-9]`. -/
def Digit (b : UInt8) : Prop := 48 ≤ b.toNat ∧ b.toNat ≤ 57

instance decLetter : DecidablePred Letter := fun _ => inferInstanceAs (Decidable (_ ∨ _))
instance decDigit : DecidablePred Digit := fun _ => inferInstanceAs (Decidable (_ ∧ _))

theorem Letter.ascii {b : UInt8} (letter : Letter b) : b.toNat < 128 := by unfold Letter at letter; omega

theorem Digit.ascii {b : UInt8} (digit : Digit b) : b.toNat < 128 := by unfold Digit at digit; omega

theorem Digit.not_letter {b : UInt8} (digit : Digit b) : ¬ Letter b := by unfold Digit at digit; unfold Letter; omega

theorem Digit.ne {b c : UInt8} (digit : Digit b) (other : ¬ Digit c) : b ≠ c := fun same => other (same ▸ digit)

/-- The separator of the elements of a name. -/
def dot : UInt8 := '.'.toUInt8

/-- One byte of `first`, then any number of bytes of `subsequent`. -/
def Element (first subsequent : UInt8 → Prop) (word : List UInt8) : Prop :=
  ∃ c cs, word = c :: cs ∧ first c ∧ ∀ b ∈ cs, subsequent b

/-- Two or more words of `element`, joined by single dots. -/
def DotSeparated (element : List UInt8 → Prop) (bytes : List UInt8) : Prop :=
  ∃ words, 2 ≤ words.length ∧ (∀ w ∈ words, element w) ∧ bytes = [dot].intercalate words

/-! ### The grammars -/

/-- An element of an interface, error or member name: a letter or `_`, then letters, digits
or `_`. -/
def InterfaceElement : List UInt8 → Prop :=
  Element (fun b => Letter b ∨ b = '_'.toUInt8) (fun b => Letter b ∨ Digit b ∨ b = '_'.toUInt8)

/-- An element of a well-known bus name: as an interface name's, with `-` allowed anywhere. -/
def WellKnownElement : List UInt8 → Prop :=
  Element (fun b => Letter b ∨ b = '_'.toUInt8 ∨ b = '-'.toUInt8)
    (fun b => Letter b ∨ Digit b ∨ b = '_'.toUInt8 ∨ b = '-'.toUInt8)

/-- An element of a unique bus name: one or more letters, digits, `_` or `-`. -/
def UniqueElement (word : List UInt8) : Prop :=
  word ≠ [] ∧ ∀ b ∈ word, Letter b ∨ Digit b ∨ b = '_'.toUInt8 ∨ b = '-'.toUInt8

/-- The name of the message bus itself. -/
def DBusName : List UInt8 := (Str.ofString "org.freedesktop.DBus").bytes

/-- An interface name, and an error name. -/
def InterfaceNameBytes (bytes : List UInt8) : Prop :=
  bytes.length ≤ 255 ∧ DotSeparated InterfaceElement bytes

/-- A well-known bus name. -/
def WellKnownNameBytes (bytes : List UInt8) : Prop :=
  bytes.length ≤ 255 ∧ DotSeparated WellKnownElement bytes

/-- A unique bus name: the bus's own, or `:` and two or more dotted elements. -/
def UniqueNameBytes (bytes : List UInt8) : Prop :=
  bytes.length ≤ 255 ∧ (bytes = DBusName ∨ ∃ rest, bytes = ':'.toUInt8 :: rest ∧ DotSeparated UniqueElement rest)

/-- A member name: one interface-name element. -/
def MemberNameBytes (bytes : List UInt8) : Prop :=
  bytes.length ≤ 255 ∧ InterfaceElement bytes

/-! ### The shape of dotted names -/

section
variable {first subsequent : UInt8 → Prop} {bytes : List UInt8}

theorem Element.mono {first' subsequent' : UInt8 → Prop} (firstLe : ∀ b, first b → first' b)
    (subsequentLe : ∀ b, subsequent b → subsequent' b) {word : List UInt8} (element : Element first subsequent word) :
    Element first' subsequent' word := by
  obtain ⟨c, cs, rfl, isFirst, rest⟩ := element
  exact ⟨c, cs, rfl, firstLe c isFirst, fun b member => subsequentLe b (rest b member)⟩

theorem DotSeparated.mono {element element' : List UInt8 → Prop} (le : ∀ w, element w → element' w)
    (name : DotSeparated element bytes) : DotSeparated element' bytes := by
  obtain ⟨words, counted, elements, rfl⟩ := name
  exact ⟨words, counted, fun w member => le w (elements w member), rfl⟩

theorem Element.mem {word : List UInt8} (element : Element first subsequent word) {b : UInt8}
    (member : b ∈ word) : first b ∨ subsequent b := by
  obtain ⟨c, cs, rfl, isFirst, rest⟩ := element
  rcases List.mem_cons.mp member with rfl | later
  · exact .inl isFirst
  · exact .inr (rest b later)

variable (notFirst : ¬ first dot) (notSubsequent : ¬ subsequent dot)
include notFirst notSubsequent

theorem Element.dot_not_mem {word : List UInt8} (element : Element first subsequent word) : dot ∉ word :=
  fun member => (element.mem member).elim notFirst notSubsequent

/-- After a dot-free word, every dot of the rest of a dotted name starts an element. -/
private theorem separatedWords_dot_followed :
    ∀ (words : List (List UInt8)) (word pre post : List UInt8), dot ∉ word →
      (∀ w ∈ words, Element first subsequent w) → word ++ separatedWords dot words = pre ++ dot :: post →
      ∃ c rest, post = c :: rest ∧ first c
  | [], word, pre, post, free, _, split => by
    rw [separatedWords_nil, List.append_nil] at split
    exact absurd (split ▸ List.mem_append_right pre (List.mem_cons_self dot post)) free
  | next :: words, word, pre, post, free, elements, split => by
    obtain ⟨c, cs, rfl, isFirst, _⟩ := elements next (.head _)
    rw [separatedWords_cons] at split
    rcases List.append_eq_append_iff.mp split with ⟨a, rfl, tail⟩ | ⟨a, rfl, tail⟩
    · cases a with
      | nil => exact ⟨c, _, (List.cons.inj tail).2.symm, isFirst⟩
      | cons e a =>
        obtain ⟨-, tail⟩ := List.cons.inj tail
        exact separatedWords_dot_followed words (c :: cs) a post
          ((elements _ (.head _)).dot_not_mem notFirst notSubsequent) (fun w member => elements w (.tail _ member))
          tail
    · cases a with
      | nil => exact ⟨c, _, (List.cons.inj tail).2, isFirst⟩
      | cons e a =>
        obtain ⟨rfl, -⟩ := List.cons.inj tail
        exact absurd (List.mem_append_right pre (List.mem_cons_self dot a)) free

/-- Every dot of a dotted name is followed by a byte that starts an element. -/
theorem DotSeparated.dot_followed (name : DotSeparated (Element first subsequent) bytes) {pre post : List UInt8}
    (split : bytes = pre ++ dot :: post) : ∃ c rest, post = c :: rest ∧ first c := by
  obtain ⟨words, counted, elements, rfl⟩ := name
  match words, counted with
  | word :: words, _ =>
    rw [intercalate_cons] at split
    exact separatedWords_dot_followed notFirst notSubsequent words word pre post
      ((elements word (.head _)).dot_not_mem notFirst notSubsequent) (fun w member => elements w (.tail _ member))
      split

theorem DotSeparated.not_ends_with_dot (name : DotSeparated (Element first subsequent) bytes) (pre : List UInt8) :
    bytes ≠ pre ++ [dot] := fun split => by
  obtain ⟨_, _, empty, _⟩ := name.dot_followed notFirst notSubsequent split
  cases empty

end

section
variable {first subsequent : UInt8 → Prop} {bytes : List UInt8}

/-- A dotted name starts with a byte that starts an element. -/
theorem DotSeparated.head (name : DotSeparated (Element first subsequent) bytes) :
    ∃ c rest, bytes = c :: rest ∧ first c := by
  obtain ⟨words, counted, elements, rfl⟩ := name
  match words, counted with
  | word :: words, _ =>
    obtain ⟨c, cs, rfl, isFirst, _⟩ := elements word (.head _)
    exact ⟨c, _, by rw [intercalate_cons, List.cons_append], isFirst⟩

/-- Every byte of a dotted name is a dot or a byte of an element. -/
theorem DotSeparated.mem (name : DotSeparated (Element first subsequent) bytes) {b : UInt8} (member : b ∈ bytes) :
    b = dot ∨ first b ∨ subsequent b := by
  obtain ⟨words, counted, elements, rfl⟩ := name
  match words, counted with
  | word :: words, _ =>
    rw [intercalate_cons, List.mem_append] at member
    rcases member with inWord | inRest
    · exact .inr ((elements word (.head _)).mem inWord)
    · simp only [separatedWords, List.mem_flatten, List.mem_map] at inRest
      obtain ⟨_, ⟨w, member, rfl⟩, inWord⟩ := inRest
      rcases List.mem_cons.mp inWord with rfl | inWord
      · exact .inl rfl
      · exact .inr ((elements w (.tail _ member)).mem inWord)

end

end Zbus.NameGrammar
