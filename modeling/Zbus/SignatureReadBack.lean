import Zbus.Signature

/-!
Reading the tokens of `signature_to_tokens_with_crate` back as a signature. `parse_expr` reads the
Rust expressions the tokens can form: paths, calls, struct expressions, references and array
expressions, with a fuel bound on its depth. `eval` gives an expression its value under a crate
path: a path names a variant of `Signature`, `signature::Child::Static` or
`signature::Fields::Static` only under that crate path.

`signature_tokens_read_back` says that for every signature and every crate path, the tokens read as one
expression for all fuel from some bound on, that the expression denotes the signature, and that
each of its paths lies under the crate path. It is proved by structural recursion on the
signature, one lemma per shape of `quote!` output.
-/
namespace Zbus.SignatureReadBack
open Zbus.Signature

/-- A path expression: a leading `::` or not, and the segments. -/
structure ExprPath where
  global : Bool
  segments : List String
deriving DecidableEq

/-- The Rust expressions that tokens are read into. -/
inductive Expr where
  | path (path : ExprPath)
  | call (callee : ExprPath) (args : List Expr)
  | struct (path : ExprPath) (fields : List (String × Expr))
  | ref (expr : Expr)
  | array (elements : List Expr)

/-! ### Parsing -/

/-- The `::b::c` after the first segment of a path. -/
def parse_segments : List TokenTree → List String × List TokenTree
  | .Punct ':' .Joint :: .Punct ':' .Alone :: .Ident segment :: rest =>
    ((parse_segments rest).1.cons segment, (parse_segments rest).2)
  | rest => ([], rest)

/-- A path, with or without a leading `::`. -/
def parse_path : List TokenTree → Option (ExprPath × List TokenTree)
  | .Punct ':' .Joint :: .Punct ':' .Alone :: .Ident first :: rest =>
    some (⟨true, first :: (parse_segments rest).1⟩, (parse_segments rest).2)
  | .Ident first :: rest => some (⟨false, first :: (parse_segments rest).1⟩, (parse_segments rest).2)
  | _ => none

mutual

/-- An expression at the start of the tokens, and the tokens after it. -/
def parse_expr : Nat → List TokenTree → Option (Expr × List TokenTree)
  | 0, _ => none
  | fuel + 1, .Punct '&' _ :: rest => (parse_expr fuel rest).map fun (expr, rest) => (.ref expr, rest)
  | fuel + 1, .Group .Bracket inner :: rest => (parse_list fuel inner).map fun elements => (.array elements, rest)
  | fuel + 1, tokens =>
    match parse_path tokens with
    | none => none
    | some (path, .Group .Parenthesis inner :: rest) => (parse_list fuel inner).map fun args => (.call path args, rest)
    | some (path, .Group .Brace inner :: rest) => (parse_fields fuel inner).map fun fields => (.struct path fields, rest)
    | some (path, rest) => some (.path path, rest)

/-- The whole of the tokens as expressions separated by `,`, with an optional `,` after the
last. -/
def parse_list : Nat → List TokenTree → Option (List Expr)
  | 0, _ => none
  | _ + 1, [] => some []
  | fuel + 1, tokens =>
    match parse_expr fuel tokens with
    | some (expr, []) => some [expr]
    | some (expr, .Punct ',' _ :: rest) => (parse_list fuel rest).map (expr :: ·)
    | _ => none

/-- The whole of the tokens as `name: expression` fields separated by `,`, with an optional `,`
after the last. -/
def parse_fields : Nat → List TokenTree → Option (List (String × Expr))
  | 0, _ => none
  | _ + 1, [] => some []
  | fuel + 1, .Ident name :: .Punct ':' .Alone :: tokens =>
    match parse_expr fuel tokens with
    | some (expr, []) => some [(name, expr)]
    | some (expr, .Punct ',' _ :: rest) => (parse_fields fuel rest).map ((name, expr) :: ·)
    | _ => none
  | _ + 1, _ => none

end

/-! ### Meaning -/

/-- The values of the expressions: a `Signature`, a `signature::Child`, a `signature::Fields`, a
reference and an array. -/
inductive Value where
  | signature (signature : Signature)
  | child (child : Signature)
  | fields (fields : List Signature)
  | ref (value : Value)
  | array (elements : List Value)

/-- A path as the crate path joined with more segments. -/
def join (zv : CratePath) (suffix : List String) : ExprPath := ⟨zv.global, zv.segments ++ suffix⟩

/-- The segments of a path after the crate path, if the path lies under it. -/
def strip (zv : CratePath) (path : ExprPath) : Option (List String) :=
  if path.global = zv.global ∧ zv.segments.isPrefixOf path.segments = true then
    some (path.segments.drop zv.segments.length)
  else none

/-- The childless variants of `Signature`, by name. -/
def leaf : String → Option Signature
  | "Unit" => some .Unit
  | "Bool" => some .Bool
  | "U8" => some .U8
  | "I16" => some .I16
  | "U16" => some .U16
  | "I32" => some .I32
  | "U32" => some .U32
  | "I64" => some .I64
  | "U64" => some .U64
  | "F64" => some .F64
  | "Str" => some .Str
  | "Signature" => some .Signature
  | "ObjectPath" => some .ObjectPath
  | "Variant" => some .Variant
  | "Fd" => some .Fd
  | _ => none

/-- What a path means: a childless variant of `Signature`. -/
def path_value : Option (List String) → Option Value
  | some ["Signature", name] => (leaf name).map .signature
  | _ => none

/-- What a call means: a tuple variant of `Signature`, applied to its one argument. -/
def call_value : Option (List String) → List Value → Option Value
  | some ["Signature", "Array"], [.child child] => some (.signature (.Array child))
  | some ["Signature", "Maybe"], [.child child] => some (.signature (.Maybe child))
  | some ["Signature", "Structure"], [.fields fields] => some (.signature (.Structure fields))
  | _, _ => none

/-- The signatures a list of values refers to, when each value is a reference to a signature. -/
def referenced : List Value → Option (List Signature)
  | [] => some []
  | .ref (.signature signature) :: values => (referenced values).map (signature :: ·)
  | _ :: _ => none

/-- What a struct expression means: `Signature::Dict`, `signature::Child::Static` and
`signature::Fields::Static`, with the fields in the order the code writes them. -/
def struct_value : Option (List String) → List (String × Value) → Option Value
  | some ["Signature", "Dict"], [("key", .child key), ("value", .child value)] => some (.signature (.Dict key value))
  | some ["signature", "Child", "Static"], [("child", .ref (.signature child))] => some (.child child)
  | some ["signature", "Fields", "Static"], [("fields", .ref (.array fields))] => (referenced fields).map .fields
  | _, _ => none

mutual

/-- The value of an expression under the crate path `zv`. -/
def eval (zv : CratePath) : Expr → Option Value
  | .path path => path_value (strip zv path)
  | .call callee args => (eval_list zv args).bind (call_value (strip zv callee))
  | .struct path fields => (eval_fields zv fields).bind (struct_value (strip zv path))
  | .ref expr => (eval zv expr).map .ref
  | .array elements => (eval_list zv elements).map .array

/-- The values of a list of expressions. -/
def eval_list (zv : CratePath) : List Expr → Option (List Value)
  | [] => some []
  | expr :: exprs => (eval zv expr).bind fun value => (eval_list zv exprs).map (value :: ·)

/-- The values of the fields of a struct expression. -/
def eval_fields (zv : CratePath) : List (String × Expr) → Option (List (String × Value))
  | [] => some []
  | (name, expr) :: fields => (eval zv expr).bind fun value => (eval_fields zv fields).map ((name, value) :: ·)

end

mutual

/-- Every path in an expression. -/
def paths : Expr → List ExprPath
  | .path path => [path]
  | .call callee args => callee :: paths_list args
  | .struct path fields => path :: paths_fields fields
  | .ref expr => paths expr
  | .array elements => paths_list elements

/-- Every path in a list of expressions. -/
def paths_list : List Expr → List ExprPath
  | [] => []
  | expr :: exprs => paths expr ++ paths_list exprs

/-- Every path in the fields of a struct expression. -/
def paths_fields : List (String × Expr) → List ExprPath
  | [] => []
  | (_, expr) :: fields => paths expr ++ paths_fields fields

end

/-- A path to a variant of `Signature`, to `signature::Child` or to `signature::Fields`, under the
crate path `zv`. -/
def Rooted (zv : CratePath) (path : ExprPath) : Prop :=
  ∃ suffix, path = join zv suffix ∧
    ((∃ name, suffix = ["Signature", name]) ∨ suffix = ["signature", "Child", "Static"] ∨
      suffix = ["signature", "Fields", "Static"])

/-! ### Reading the tokens of a path -/

/-- Where an expression can end in the tokens the code emits: at the end of a group, or before a
`,`. -/
def Stops (rest : List TokenTree) : Prop := rest = [] ∨ ∃ more, rest = .Punct ',' .Alone :: more

/-- Tokens that start a path. -/
def PathStart (tokens : List TokenTree) : Prop :=
  ∃ more, (∃ first, tokens = .Ident first :: more) ∨ tokens = .Punct ':' .Joint :: more

theorem segment_tokens_append (a b : List String) : segment_tokens (a ++ b) = segment_tokens a ++ segment_tokens b :=
  List.flatMap_append ..

theorem parse_segments_segment_tokens (segments : List String) {rest : List TokenTree}
    (stop : parse_segments rest = ([], rest)) : parse_segments (segment_tokens segments ++ rest) = (segments, rest) := by
  induction segments with
  | nil => exact stop
  | cons segment segments ih =>
    rw [segment_tokens_cons, List.cons_append, List.cons_append, List.cons_append, parse_segments, ih]

theorem path_start (zv : CratePath) (suffix : List String) (rest : List TokenTree) :
    PathStart (path_tokens zv.tokens suffix ++ rest) := by
  obtain ⟨global, _ | ⟨first, more⟩, nonempty⟩ := zv
  · exact absurd rfl nonempty
  · cases global <;> simp [path_tokens, CratePath.tokens, colon2, PathStart]

/-- The tokens of a path under `zv` read as that path, when no more segments follow. -/
theorem parse_path_join (zv : CratePath) (suffix : List String) {rest : List TokenTree}
    (stop : parse_segments rest = ([], rest)) : parse_path (path_tokens zv.tokens suffix ++ rest) = some (join zv suffix, rest) := by
  obtain ⟨global, _ | ⟨first, more⟩, nonempty⟩ := zv
  · exact absurd rfl nonempty
  · have segments := parse_segments_segment_tokens (more ++ suffix) stop
    rw [segment_tokens_append, List.append_assoc] at segments
    cases global <;> simp [path_tokens, CratePath.tokens, colon2, parse_path, segments, join]

theorem strip_join (zv : CratePath) (suffix : List String) : strip zv (join zv suffix) = some suffix := by
  simp [strip, join, List.isPrefixOf_iff_prefix]

theorem succ_of_le {bound fuel : Nat} (enough : bound + 1 ≤ fuel) : ∃ less, fuel = less + 1 ∧ bound ≤ less :=
  ⟨fuel - 1, by omega, by omega⟩

theorem parse_expr_nil (fuel : Nat) : parse_expr fuel [] = none := by
  cases fuel <;> rfl

section
variable {fuel : Nat} {tokens rest inner : List TokenTree} {path : ExprPath}

theorem parse_expr_path (start : PathStart tokens) (read : parse_path tokens = some (path, rest)) (stops : Stops rest) :
    parse_expr (fuel + 1) tokens = some (.path path, rest) := by
  obtain ⟨more, ⟨first, rfl⟩ | rfl⟩ := start <;> simp only [parse_expr, read] <;>
    rcases stops with rfl | ⟨more, rfl⟩ <;> rfl

theorem parse_expr_call (start : PathStart tokens) (read : parse_path tokens = some (path, .Group .Parenthesis inner :: rest)) :
    parse_expr (fuel + 1) tokens = (parse_list fuel inner).map fun args => (.call path args, rest) := by
  obtain ⟨more, ⟨first, rfl⟩ | rfl⟩ := start <;> simp only [parse_expr, read]

theorem parse_expr_struct (start : PathStart tokens) (read : parse_path tokens = some (path, .Group .Brace inner :: rest)) :
    parse_expr (fuel + 1) tokens = (parse_fields fuel inner).map fun fields => (.struct path fields, rest) := by
  obtain ⟨more, ⟨first, rfl⟩ | rfl⟩ := start <;> simp only [parse_expr, read]

end

/-! ### Reading back, shape by shape -/

/-- The tokens read as one expression, whatever follows them where the code ends an expression,
for every fuel from some bound on; the expression has the value `value`, and its paths are rooted
at `zv`. -/
def ReadsBack (zv : CratePath) (tokens : List TokenTree) (value : Value) : Prop :=
  ∃ expr bound, (∀ fuel, bound ≤ fuel → ∀ rest, Stops rest → parse_expr fuel (tokens ++ rest) = some (expr, rest)) ∧
    eval zv expr = some value ∧ ∀ path ∈ paths expr, Rooted zv path

/-- The tokens read as a whole list of expressions, with the values `values`. -/
def ListReadsBack (zv : CratePath) (tokens : List TokenTree) (values : List Value) : Prop :=
  ∃ exprs bound, (∀ fuel, bound ≤ fuel → parse_list fuel tokens = some exprs) ∧ eval_list zv exprs = some values ∧
    ∀ path ∈ paths_list exprs, Rooted zv path

/-- The tokens read as the whole fields of a struct expression, with the values `values`. -/
def FieldsReadBack (zv : CratePath) (tokens : List TokenTree) (values : List (String × Value)) : Prop :=
  ∃ fields bound, (∀ fuel, bound ≤ fuel → parse_fields fuel tokens = some fields) ∧
    eval_fields zv fields = some values ∧ ∀ path ∈ paths_fields fields, Rooted zv path

section
variable {zv : CratePath} {tokens more : List TokenTree} {value : Value} {values : List Value}

theorem ReadsBack.ne_nil (read : ReadsBack zv tokens value) : tokens ≠ [] := by
  rintro rfl
  obtain ⟨_, bound, parsed, -⟩ := read
  simpa [parse_expr_nil] using parsed bound le_rfl [] (.inl rfl)

theorem leaf_reads_back {name : String} {signature : Signature} (named : leaf name = some signature) :
    ReadsBack zv (leaf_tokens zv.tokens name) (.signature signature) := by
  refine ⟨.path (join zv ["Signature", name]), 1, fun fuel enough rest stops => ?_, ?_, ?_⟩
  · obtain ⟨fuel, rfl, -⟩ := @succ_of_le 0 _ enough
    have stop : parse_segments rest = ([], rest) := by rcases stops with rfl | ⟨more, rfl⟩ <;> rfl
    exact parse_expr_path (path_start zv _ rest) (parse_path_join zv _ stop) stops
  · simp [eval, strip_join, path_value, named]
  · simp only [paths, List.mem_singleton]
    rintro _ rfl
    exact ⟨_, rfl, .inl ⟨name, rfl⟩⟩

theorem ref_reads_back (read : ReadsBack zv tokens value) : ReadsBack zv (.Punct '&' .Alone :: tokens) (.ref value) := by
  obtain ⟨expr, bound, parsed, evaluated, rooted⟩ := read
  refine ⟨.ref expr, bound + 1, fun fuel enough rest stops => ?_, by simp [eval, evaluated], rooted⟩
  obtain ⟨fuel, rfl, enough⟩ := succ_of_le enough
  simp [parse_expr, parsed fuel (by omega) rest stops]

theorem array_reads_back (read : ListReadsBack zv tokens values) : ReadsBack zv [.Group .Bracket tokens] (.array values) := by
  obtain ⟨exprs, bound, parsed, evaluated, rooted⟩ := read
  refine ⟨.array exprs, bound + 1, fun fuel enough rest stops => ?_, by simp [eval, evaluated], rooted⟩
  obtain ⟨fuel, rfl, enough⟩ := succ_of_le enough
  simp [parse_expr, parsed fuel (by omega)]

theorem list_nil_reads_back : ListReadsBack zv [] [] :=
  ⟨[], 1, fun fuel enough => by obtain ⟨fuel, rfl, -⟩ := @succ_of_le 0 _ enough; rfl, rfl, nofun⟩

theorem list_last_reads_back (read : ReadsBack zv tokens value) : ListReadsBack zv tokens [value] := by
  have nonempty := read.ne_nil
  obtain ⟨expr, bound, parsed, evaluated, rooted⟩ := read
  refine ⟨[expr], bound + 1, fun fuel enough => ?_, by simp [eval_list, evaluated], by simpa [paths_list] using rooted⟩
  obtain ⟨fuel, rfl, enough⟩ := succ_of_le enough
  obtain ⟨token, tokens, rfl⟩ := List.exists_cons_of_ne_nil nonempty
  have last := parsed fuel (by omega) [] (.inl rfl)
  rw [List.append_nil] at last
  simp only [parse_list, last]

theorem list_cons_reads_back (read : ReadsBack zv tokens value) (reads : ListReadsBack zv more values) :
    ListReadsBack zv (tokens ++ .Punct ',' .Alone :: more) (value :: values) := by
  have nonempty := read.ne_nil
  obtain ⟨expr, bound, parsed, evaluated, rooted⟩ := read
  obtain ⟨exprs, bound', parsed', evaluated', rooted'⟩ := reads
  refine ⟨expr :: exprs, max bound bound' + 1, fun fuel enough => ?_, by simp [eval_list, evaluated, evaluated'], ?_⟩
  · obtain ⟨fuel, rfl, enough⟩ := succ_of_le enough
    obtain ⟨token, tokens, rfl⟩ := List.exists_cons_of_ne_nil nonempty
    have first := parsed fuel (by omega) _ (.inr ⟨more, rfl⟩)
    rw [List.cons_append] at first ⊢
    generalize tokens ++ _ = after at first ⊢
    simp only [parse_list, first, parsed' fuel (by omega), Option.map_some']
  · simp only [paths_list, List.mem_append]
    rintro path (inFirst | inRest)
    exacts [rooted path inFirst, rooted' path inRest]

theorem fields_nil_reads_back : FieldsReadBack zv [] [] :=
  ⟨[], 1, fun fuel enough => by obtain ⟨fuel, rfl, -⟩ := @succ_of_le 0 _ enough; rfl, rfl, nofun⟩

theorem fields_cons_reads_back (name : String) {values : List (String × Value)} (read : ReadsBack zv tokens value)
    (reads : FieldsReadBack zv more values) : FieldsReadBack zv (field_tokens name tokens ++ more) ((name, value) :: values) := by
  obtain ⟨expr, bound, parsed, evaluated, rooted⟩ := read
  obtain ⟨fields, bound', parsed', evaluated', rooted'⟩ := reads
  refine ⟨(name, expr) :: fields, max bound bound' + 1, fun fuel enough => ?_,
    by simp [eval_fields, evaluated, evaluated'], ?_⟩
  · obtain ⟨fuel, rfl, enough⟩ := succ_of_le enough
    have first := parsed fuel (by omega) _ (.inr ⟨more, rfl⟩)
    have shape : field_tokens name tokens ++ more = .Ident name :: .Punct ':' .Alone :: (tokens ++ .Punct ',' .Alone :: more) := by
      simp [field_tokens]
    rw [shape]
    generalize tokens ++ _ = after at first ⊢
    simp only [parse_fields, first, parsed' fuel (by omega), Option.map_some']
  · simp only [paths_fields, List.mem_append]
    rintro path (inFirst | inRest)
    exacts [rooted path inFirst, rooted' path inRest]

theorem call_reads_back {suffix : List String} {result : Value} (reads : ListReadsBack zv tokens values)
    (means : call_value (some suffix) values = some result) (root : Rooted zv (join zv suffix)) :
    ReadsBack zv (path_tokens zv.tokens suffix ++ [.Group .Parenthesis tokens]) result := by
  obtain ⟨exprs, bound, parsed, evaluated, rooted⟩ := reads
  refine ⟨.call (join zv suffix) exprs, bound + 1, fun fuel enough rest _ => ?_,
    by simp [eval, evaluated, strip_join, means], ?_⟩
  · obtain ⟨fuel, rfl, enough⟩ := succ_of_le enough
    rw [List.append_assoc, List.singleton_append,
      parse_expr_call (path_start zv suffix _) (parse_path_join zv suffix rfl), parsed fuel (by omega)]
    rfl
  · simp only [paths, List.mem_cons]
    rintro path (rfl | inArgs)
    exacts [root, rooted path inArgs]

theorem struct_reads_back {suffix : List String} {fieldValues : List (String × Value)} {result : Value}
    (reads : FieldsReadBack zv tokens fieldValues) (means : struct_value (some suffix) fieldValues = some result)
    (root : Rooted zv (join zv suffix)) :
    ReadsBack zv (path_tokens zv.tokens suffix ++ [.Group .Brace tokens]) result := by
  obtain ⟨fields, bound, parsed, evaluated, rooted⟩ := reads
  refine ⟨.struct (join zv suffix) fields, bound + 1, fun fuel enough rest _ => ?_,
    by simp [eval, evaluated, strip_join, means], ?_⟩
  · obtain ⟨fuel, rfl, enough⟩ := succ_of_le enough
    rw [List.append_assoc, List.singleton_append,
      parse_expr_struct (path_start zv suffix _) (parse_path_join zv suffix rfl), parsed fuel (by omega)]
    rfl
  · simp only [paths, List.mem_cons]
    rintro path (rfl | inFields)
    exacts [root, rooted path inFields]

theorem static_child_reads_back {signature : Signature} (read : ReadsBack zv tokens (.signature signature)) :
    ReadsBack zv (static_child zv.tokens tokens) (.child signature) := by
  have fields := fields_cons_reads_back "child" (ref_reads_back read) fields_nil_reads_back
  rw [List.append_nil] at fields
  exact struct_reads_back fields rfl ⟨_, rfl, .inr (.inl rfl)⟩

end

theorem referenced_map (fields : List Signature) :
    referenced (fields.map fun field => Value.ref (.signature field)) = some fields := by
  induction fields with
  | nil => rfl
  | cons field fields ih => simp [referenced, ih]

theorem struct_value_fields_static (fields : List Signature) :
    struct_value (some ["signature", "Fields", "Static"]) [("fields", .ref (.array (fields.map fun field => .ref (.signature field))))] =
      some (.fields fields) :=
  (congrArg (Option.map Value.fields) (referenced_map fields) :)

/-! ### Every signature -/

mutual

/-- The tokens of every signature read back as the signature, with every path under `zv`. -/
theorem signature_reads_back (zv : CratePath) :
    ∀ signature, ReadsBack zv (signature_to_tokens_with_crate zv.tokens signature) (.signature signature)
  | .Array child => call_reads_back (list_last_reads_back (static_child_reads_back (signature_reads_back zv child))) rfl
      ⟨_, rfl, .inl ⟨_, rfl⟩⟩
  | .Maybe child => call_reads_back (list_last_reads_back (static_child_reads_back (signature_reads_back zv child))) rfl
      ⟨_, rfl, .inl ⟨_, rfl⟩⟩
  | .Dict key value => by
    have fields := fields_cons_reads_back "key" (static_child_reads_back (signature_reads_back zv key))
      (fields_cons_reads_back "value" (static_child_reads_back (signature_reads_back zv value)) fields_nil_reads_back)
    rw [List.append_nil] at fields
    exact struct_reads_back fields rfl ⟨_, rfl, .inl ⟨_, rfl⟩⟩
  | .Structure fields => by
    have inner := fields_cons_reads_back "fields" (ref_reads_back (array_reads_back (fields_read_back zv fields)))
      fields_nil_reads_back
    rw [List.append_nil] at inner
    have fieldsValue : ReadsBack zv _ (.fields fields) :=
      struct_reads_back inner (struct_value_fields_static fields) ⟨_, rfl, .inr (.inr rfl)⟩
    exact call_reads_back (list_last_reads_back fieldsValue) rfl ⟨_, rfl, .inl ⟨_, rfl⟩⟩
  | .Unit => leaf_reads_back rfl
  | .Bool => leaf_reads_back rfl
  | .U8 => leaf_reads_back rfl
  | .I16 => leaf_reads_back rfl
  | .U16 => leaf_reads_back rfl
  | .I32 => leaf_reads_back rfl
  | .U32 => leaf_reads_back rfl
  | .I64 => leaf_reads_back rfl
  | .U64 => leaf_reads_back rfl
  | .F64 => leaf_reads_back rfl
  | .Str => leaf_reads_back rfl
  | .Signature => leaf_reads_back rfl
  | .ObjectPath => leaf_reads_back rfl
  | .Variant => leaf_reads_back rfl
  | .Fd => leaf_reads_back rfl

/-- `#(&#fields),*` reads back as a reference to each field, in order. -/
theorem fields_read_back (zv : CratePath) :
    ∀ fields, ListReadsBack zv (fields_to_tokens zv.tokens fields) (fields.map fun field => .ref (.signature field))
  | [] => list_nil_reads_back
  | [field] => list_last_reads_back (ref_reads_back (signature_reads_back zv field))
  | field :: next :: fields => by
    have rest := fields_read_back zv (next :: fields)
    rw [fields_to_tokens, List.cons_append]
    exact list_cons_reads_back (ref_reads_back (signature_reads_back zv field)) rest

end

/-- For every signature and every crate path `zv`, the tokens `signature_to_tokens_with_crate` emits
read as one expression, for every fuel from some bound on; the expression denotes the signature,
and each of its paths is a path to `Signature`, `signature::Child` or `signature::Fields` under
`zv`. -/
theorem signature_tokens_read_back (zv : CratePath) (signature : Signature) :
    ∃ expr bound, (∀ fuel, bound ≤ fuel →
        parse_expr fuel (signature_to_tokens_with_crate zv.tokens signature) = some (expr, [])) ∧
      eval zv expr = some (.signature signature) ∧ ∀ path ∈ paths expr, Rooted zv path := by
  obtain ⟨expr, bound, parsed, evaluated, rooted⟩ := signature_reads_back zv signature
  exact ⟨expr, bound, fun fuel enough => by simpa using parsed fuel enough [] (.inl rfl), evaluated, rooted⟩

/-- Different signatures give different tokens, under every crate path. -/
theorem signature_to_tokens_injective (zv : CratePath) :
    Function.Injective (signature_to_tokens_with_crate zv.tokens) := by
  intro first second same
  obtain ⟨expr, bound, parsed, evaluated, -⟩ := signature_reads_back zv first
  obtain ⟨expr', bound', parsed', evaluated', -⟩ := signature_reads_back zv second
  have read := parsed (max bound bound') (le_max_left _ _) [] (.inl rfl)
  rw [same, parsed' (max bound bound') (le_max_right _ _) [] (.inl rfl)] at read
  cases read
  rw [evaluated] at evaluated'
  cases evaluated'
  rfl

end Zbus.SignatureReadBack
