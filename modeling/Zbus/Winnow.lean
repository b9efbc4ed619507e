import Zbus.Core

/-!
The parts of `winnow` that the name validators use, on a complete `&[u8]`. A parser returns its
output and the rest of the input, or fails with `Backtrack`, after which `alt` and the
repetitions may try another branch, or with `Cut`, after which they may not. `Parser::parse` runs
a parser and then requires the end of the input.

`separated` is the loop of `separated_m_n_`: after the first element it tries a separator and an
element as long as both succeed, and when the element after a separator fails it gives the
separator back. `separated_sound` and `separated_complete` say which inputs it consumes whole,
for any element parser that meets `ElementSpec`.
-/
namespace Zbus.Winnow

/-- `ErrMode`. -/
inductive ErrMode where
  | Backtrack
  | Cut
deriving DecidableEq, Repr

/-- A parser over a complete `&[u8]`: its output and the rest of the input. -/
abbrev Parser (α : Type) := List UInt8 → Except ErrMode (α × List UInt8)

variable {α β : Type}

/-- `one_of(set)`. -/
def one_of (set : UInt8 → Bool) : Parser UInt8
  | b :: rest => if set b then .ok (b, rest) else .error .Backtrack
  | [] => .error .Backtrack

/-- `take_while(min.., set)`: the longest prefix of bytes in `set`, if it has `min` of them. -/
def take_while (min : Nat) (set : UInt8 → Bool) : Parser (List UInt8) := fun input =>
  if (input.takeWhile set).length < min then .error .Backtrack
  else .ok (input.takeWhile set, input.dropWhile set)

/-- A literal used as a parser: `b'.'`, `b':'` or `b"org.freedesktop.DBus"`. -/
def literal (tag : List UInt8) : Parser (List UInt8) := fun input =>
  if tag.isPrefixOf input then .ok (tag, input.drop tag.length) else .error .Backtrack

/-- A pair of parsers, run one after the other. -/
def pair (first : Parser α) (second : Parser β) : Parser (α × β) := fun input => do
  let (a, rest) ← first input
  let (b, rest) ← second rest
  return ((a, b), rest)

/-- `Parser::map`. -/
def map (parser : Parser α) (f : α → β) : Parser β := fun input => do
  let (a, rest) ← parser input
  return (f a, rest)

/-- `alt((first, second))`: the second branch from the same input when the first backtracks. -/
def alt (first second : Parser α) : Parser α := fun input =>
  match first input with
  | .error .Backtrack => second input
  | result => result

/-- The loop of `separated_m_n_` from iteration `index` on, with `fuel` iterations left before
`max`. -/
def separated_loop (min : Nat) (parser : Parser α) (separator : Parser β) : Nat → Nat → Parser Unit
  | 0, _, input => .ok ((), input)
  | fuel + 1, index, input =>
    match separator input with
    | .error .Backtrack => if index < min then .error .Backtrack else .ok ((), input)
    | .error .Cut => .error .Cut
    | .ok (_, afterSeparator) =>
      -- "`separated` separator parser must always consume"
      if afterSeparator.length = input.length then .error .Cut
      else match parser afterSeparator with
        | .error .Backtrack => if index < min then .error .Backtrack else .ok ((), input)
        | .error .Cut => .error .Cut
        | .ok (_, rest) => separated_loop min parser separator fuel (index + 1) rest

/-- `separated(min..max, parser, separator)`, accumulating into `()`. -/
def separated (min max : Nat) (parser : Parser α) (separator : Parser β) : Parser Unit := fun input =>
  if max < min then .error .Cut
  else match parser input with
    | .error .Backtrack => if min = 0 then .ok ((), input) else .error .Backtrack
    | .error .Cut => .error .Cut
    | .ok (_, rest) => separated_loop min parser separator (max - 1) 1 rest

/-- `Parser::parse`: the parser, then `eof`. Every caller maps the `ParseError` to `()`. -/
def parse (parser : Parser α) (input : List UInt8) : Except Unit α :=
  match parser input with
  | .ok (output, []) => .ok output
  | _ => .error ()

/-- `usize::MAX` on a 64-bit target: the `max` of the range `2..`. -/
def usize_MAX : Nat := 2 ^ 64 - 1

theorem parse_eq_ok {parser : Parser α} {input : List UInt8} :
    (∃ output, parse parser input = .ok output) ↔ ∃ output, parser input = .ok (output, []) := by
  unfold parse
  constructor
  · rintro ⟨output, parsed⟩
    split at parsed
    · exact ⟨_, ‹_›⟩
    · cases parsed
  · rintro ⟨output, ran⟩
    exact ⟨output, by rw [ran]⟩

/-! ### Single parsers -/

theorem take_while_append {min : Nat} {set : UInt8 → Bool} {word rest : List UInt8}
    (inside : ∀ b ∈ word, set b) (stops : ∀ b ∈ rest.head?, set b = false) (long : min ≤ word.length) :
    take_while min set (word ++ rest) = .ok (word, rest) := by
  have taken : (word ++ rest).takeWhile set = word := by
    rw [List.takeWhile_append_of_pos inside]
    cases rest with
    | nil => simp
    | cons b rest => simp [List.takeWhile_cons, stops b rfl]
  have dropped : (word ++ rest).dropWhile set = rest := by
    have whole := List.takeWhile_append_dropWhile set (word ++ rest)
    rw [taken] at whole
    exact List.append_cancel_left whole
  simp [take_while, taken, dropped, Nat.not_lt.mpr long]

theorem take_while_sound {min : Nat} {set : UInt8 → Bool} {input taken rest : List UInt8}
    (ran : take_while min set input = .ok (taken, rest)) :
    input = taken ++ rest ∧ (∀ b ∈ taken, set b) ∧ min ≤ taken.length := by
  unfold take_while at ran
  split at ran
  · cases ran
  · cases ran
    exact ⟨(List.takeWhile_append_dropWhile set input).symm, fun b member => List.mem_takeWhile_imp member,
      by omega⟩

theorem one_of_eq_ok {set : UInt8 → Bool} {input rest : List UInt8} {b : UInt8} :
    one_of set input = .ok (b, rest) ↔ input = b :: rest ∧ set b = true := by
  cases input with
  | nil => simp [one_of]
  | cons c input =>
    constructor
    · intro ran
      cases inside : set c <;> simp only [one_of, inside, if_true, Bool.false_eq_true, if_false] at ran <;>
        cases ran
      exact ⟨rfl, inside⟩
    · rintro ⟨same, inside⟩
      cases same
      simp [one_of, inside]

theorem pair_eq_ok {first : Parser α} {second : Parser β} {input rest : List UInt8} {a : α} {b : β} :
    pair first second input = .ok ((a, b), rest) ↔
      ∃ middle, first input = .ok (a, middle) ∧ second middle = .ok (b, rest) := by
  unfold pair
  cases first input with
  | error e => simp
  | ok p =>
    obtain ⟨a', middle⟩ := p
    cases ran : second middle with
    | error e => simp [ran]
    | ok q => obtain ⟨b', rest'⟩ := q; simp [ran, and_assoc]

theorem map_eq_ok {parser : Parser α} {f : α → β} {input rest : List UInt8} {b : β} :
    map parser f input = .ok (b, rest) ↔ ∃ a, parser input = .ok (a, rest) ∧ f a = b := by
  unfold map
  cases parser input with
  | error e => simp
  | ok p =>
    obtain ⟨a, rest'⟩ := p
    constructor
    · intro ran; cases ran; exact ⟨a, rfl, rfl⟩
    · rintro ⟨_, ran, rfl⟩; cases ran; rfl

theorem map_of_error {parser : Parser α} {f : α → β} {input : List UInt8} {e : ErrMode}
    (failed : parser input = .error e) : map parser f input = .error e := by
  simp [map, failed]

theorem alt_eq_ok {first second : Parser α} {input : List UInt8} {result : α × List UInt8} :
    alt first second input = .ok result ↔
      first input = .ok result ∨ (first input = .error .Backtrack ∧ second input = .ok result) := by
  unfold alt
  split <;> simp_all

theorem literal_append (tag rest : List UInt8) : literal tag (tag ++ rest) = .ok (tag, rest) := by
  simp [literal, List.isPrefixOf_iff_prefix]

theorem literal_of_mismatch {tag input : List UInt8} (other : tag.isPrefixOf input = false) :
    literal tag input = .error .Backtrack := by
  simp [literal, other]

theorem literal_cons (b : UInt8) (rest : List UInt8) : literal [b] (b :: rest) = .ok ([b], rest) := by
  simp [literal, List.isPrefixOf]

theorem literal_nil (tag : UInt8) : literal [tag] [] = .error .Backtrack := rfl

theorem literal_sound {tag input output rest : List UInt8} (ran : literal tag input = .ok (output, rest)) :
    input = tag ++ rest := by
  unfold literal at ran
  split at ran
  · cases ran
    obtain ⟨rest, rfl⟩ := (List.isPrefixOf_iff_prefix.mp ‹_›)
    simp
  · cases ran

/-! ### `separated` -/

/-- What `separated` needs of an element parser: what it consumes is a word of `language`, and from
a word of `language` followed by the end of the input or by the separator it consumes exactly the
word. -/
structure ElementSpec (parser : Parser α) (language : List UInt8 → Prop) (separator : UInt8) : Prop where
  sound : ∀ {input output rest}, parser input = .ok (output, rest) → ∃ word, language word ∧ input = word ++ rest
  complete : ∀ {word rest}, language word → (∀ b ∈ rest.head?, b = separator) →
    ∃ output, parser (word ++ rest) = .ok (output, rest)

/-- Words, each after one separator byte. -/
def separatedWords (separator : UInt8) (words : List (List UInt8)) : List UInt8 :=
  (words.map (separator :: ·)).flatten

@[simp] theorem separatedWords_nil (separator : UInt8) : separatedWords separator [] = [] := rfl

@[simp] theorem separatedWords_cons (separator : UInt8) (word : List UInt8) (words : List (List UInt8)) :
    separatedWords separator (word :: words) = separator :: (word ++ separatedWords separator words) := rfl

theorem intercalate_cons (separator : UInt8) (word : List UInt8) (words : List (List UInt8)) :
    [separator].intercalate (word :: words) = word ++ separatedWords separator words := by
  induction words generalizing word with
  | nil => simp [List.intercalate]
  | cons next words ih =>
    rw [List.intercalate, List.intersperse_cons_cons, List.flatten_cons, List.flatten_cons, ← List.intercalate,
      ih next]
    simp

theorem length_le_separatedWords (separator : UInt8) (words : List (List UInt8)) :
    words.length ≤ (separatedWords separator words).length := by
  induction words with
  | nil => simp
  | cons word words ih => simp; omega

/-- `k` words joined by single separators take at least `k - 1` bytes. -/
theorem length_le_intercalate (separator : UInt8) (words : List (List UInt8)) :
    words.length ≤ ([separator].intercalate words).length + 1 := by
  cases words with
  | nil => simp
  | cons word words =>
    have := length_le_separatedWords separator words
    rw [intercalate_cons, List.length_append]; simp; omega

theorem separatedWords_head (separator : UInt8) (words : List (List UInt8)) :
    ∀ b ∈ (separatedWords separator words).head?, b = separator := by
  cases words <;> simp

private theorem stop_eq {min index : Nat} {input rest : List UInt8}
    (stopped : (if index < min then .error .Backtrack else .ok ((), input) : Except ErrMode (Unit × List UInt8)) =
      .ok ((), rest)) : rest = input ∧ min ≤ index := by
  split at stopped
  · cases stopped
  · cases stopped; exact ⟨rfl, by omega⟩

variable {parser : Parser α} {language : List UInt8 → Prop} {separator : UInt8}

/-- What the loop consumes is a run of words, each after a separator, and it stops only once it
has counted `min`. -/
theorem separated_loop_sound (spec : ElementSpec parser language separator) (min : Nat) :
    ∀ fuel index input rest, min ≤ index + fuel →
      separated_loop min parser (literal [separator]) fuel index input = .ok ((), rest) →
      ∃ words, (∀ w ∈ words, language w) ∧ input = separatedWords separator words ++ rest ∧
        min ≤ index + words.length
  | 0, index, input, rest, enough, ran => by
    cases ran
    exact ⟨[], by simp, by simp, by omega⟩
  | fuel + 1, index, input, rest, enough, ran => by
    rw [separated_loop] at ran
    cases separatorRan : literal [separator] input with
    | error e =>
      rw [separatorRan] at ran
      cases e with
      | Backtrack =>
        obtain ⟨rfl, counted⟩ := stop_eq ran
        exact ⟨[], by simp, by simp, by omega⟩
      | Cut => cases ran
    | ok p =>
      obtain ⟨_, afterSeparator⟩ := p
      have shape := literal_sound separatorRan
      rw [separatorRan] at ran
      dsimp only at ran
      rw [if_neg (by rw [shape]; simp)] at ran
      cases elementRan : parser afterSeparator with
      | error e =>
        rw [elementRan] at ran
        cases e with
        | Backtrack =>
          obtain ⟨rfl, counted⟩ := stop_eq ran
          exact ⟨[], by simp, by simp, by omega⟩
        | Cut => cases ran
      | ok q =>
        obtain ⟨_, tail⟩ := q
        rw [elementRan] at ran
        obtain ⟨word, isWord, consumed⟩ := spec.sound elementRan
        obtain ⟨words, allWords, whole, counted⟩ :=
          separated_loop_sound spec min fuel (index + 1) tail rest (by omega) ran
        refine ⟨word :: words, ?_, ?_, by simp; omega⟩
        · simp only [List.mem_cons, forall_eq_or_imp]; exact ⟨isWord, allWords⟩
        · rw [shape, consumed, whole]; simp

/-- The loop consumes every run of words, each after a separator, that it has fuel for. -/
theorem separated_loop_complete (spec : ElementSpec parser language separator) (min : Nat) :
    ∀ (words : List (List UInt8)) fuel index, (∀ w ∈ words, language w) → words.length ≤ fuel →
      min ≤ index + words.length →
      separated_loop min parser (literal [separator]) fuel index (separatedWords separator words) = .ok ((), [])
  | [], 0, _, _, _, _ => rfl
  | [], fuel + 1, index, _, _, enough => by
    simp only [separatedWords_nil, separated_loop, literal_nil]
    rw [if_neg (by simp at enough; omega)]
  | word :: words, fuel + 1, index, allWords, short, enough => by
    obtain ⟨_, element⟩ := spec.complete (allWords word (.head _)) (separatedWords_head separator words)
    have rest := separated_loop_complete spec min words fuel (index + 1)
      (fun w member => allWords w (.tail _ member)) (by simp at short; omega) (by simp at enough; omega)
    rw [separatedWords_cons, separated_loop, literal_cons]
    dsimp only
    rw [if_neg (by simp), element]
    exact rest

/-- What `separated` consumes is at least `min` words joined by single separators. -/
theorem separated_sound (spec : ElementSpec parser language separator) {min max : Nat} (positive : 0 < min)
    {input rest : List UInt8} (ran : separated min max parser (literal [separator]) input = .ok ((), rest)) :
    ∃ words, min ≤ words.length ∧ (∀ w ∈ words, language w) ∧ input = [separator].intercalate words ++ rest := by
  unfold separated at ran
  split at ran
  · cases ran
  · rename_i ordered
    cases elementRan : parser input with
    | error e =>
      rw [elementRan] at ran
      cases e with
      | Backtrack => simp only [Nat.pos_iff_ne_zero.mp positive, if_false] at ran; cases ran
      | Cut => cases ran
    | ok p =>
      obtain ⟨_, tail⟩ := p
      rw [elementRan] at ran
      obtain ⟨word, isWord, consumed⟩ := spec.sound elementRan
      obtain ⟨words, allWords, whole, counted⟩ := separated_loop_sound spec min (max - 1) 1 tail rest (by omega) ran
      refine ⟨word :: words, by simp; omega, ?_, ?_⟩
      · simp only [List.mem_cons, forall_eq_or_imp]; exact ⟨isWord, allWords⟩
      · rw [intercalate_cons, consumed, whole, List.append_assoc]

/-- `separated` consumes every input of at least `min` and at most `max` words joined by single
separators. -/
theorem separated_complete (spec : ElementSpec parser language separator) {min max : Nat} (positive : 0 < min)
    {words : List (List UInt8)} (counted : min ≤ words.length) (fits : words.length ≤ max)
    (allWords : ∀ w ∈ words, language w) :
    separated min max parser (literal [separator]) ([separator].intercalate words) = .ok ((), []) := by
  cases words with
  | nil => simp at counted; omega
  | cons word words =>
    obtain ⟨_, element⟩ := spec.complete (allWords word (.head _)) (separatedWords_head separator words)
    have rest := separated_loop_complete spec min words (max - 1) 1
      (fun w member => allWords w (.tail _ member)) (by simp at fits; omega) (by simp at counted; omega)
    simp only [separated, intercalate_cons]
    rw [if_neg (by simp at counted fits; omega), element]
    exact rest

end Zbus.Winnow
