import Mathlib

/-!
`signature_to_tokens_with_crate` of `zvariant_derive`: the tokens of a constant expression that
builds a signature at compile time, with every path under a given crate path. Tokens are
`proc_macro2` token trees as `quote!` emits them: `::` is a joint `:` followed by an alone `:`, and
`&`, `,` and the `:` of a field are alone. `Zbus.SignatureReadBack` reads the tokens back.
-/
namespace Zbus.Signature
set_option linter.dupNamespace false

/-- Modelled from the spec: `zvariant_utils::signature::Signature`, the signature tree, with the
`unix` target and the `gvariant` feature enabled. A child and the fields are held directly; the
code reads them only through `Child::signature` and `Fields::iter`. -/
inductive Signature where
  | Unit
  | Bool
  | U8
  | I16
  | U16
  | I32
  | U32
  | I64
  | U64
  | F64
  | Str
  | Signature
  | ObjectPath
  | Variant
  | Fd
  | Array (child : Signature)
  | Dict (key value : Signature)
  | Structure (fields : List Signature)
  | Maybe (child : Signature)

/-- `proc_macro2::Delimiter`, without the invisible delimiter, which `quote!` never emits here. -/
inductive Delimiter where
  | Parenthesis
  | Brace
  | Bracket
deriving DecidableEq, Repr

/-- `proc_macro2::Spacing`. -/
inductive Spacing where
  | Alone
  | Joint
deriving DecidableEq, Repr

/-- `proc_macro2::TokenTree`, without literals, which this code never emits. -/
inductive TokenTree where
  | Group (delimiter : Delimiter) (stream : List TokenTree)
  | Ident (name : String)
  | Punct (ch : Char) (spacing : Spacing)

/-! ### What `quote!` emits -/

/-- `::`. -/
def colon2 : List TokenTree := [.Punct ':' .Joint, .Punct ':' .Alone]

/-- `::a::b`: each segment after a `::`. -/
def segment_tokens (segments : List String) : List TokenTree :=
  segments.flatMap fun segment => colon2 ++ [.Ident segment]

/-- `#zv::a::b`. -/
def path_tokens (zv : List TokenTree) (segments : List String) : List TokenTree := zv ++ segment_tokens segments

/-- `name: value,` in a struct expression. -/
def field_tokens (name : String) (value : List TokenTree) : List TokenTree :=
  [.Ident name, .Punct ':' .Alone] ++ value ++ [.Punct ',' .Alone]

/-- `#zv::signature::Child::Static { child: &#signature, }`. -/
def static_child (zv signature : List TokenTree) : List TokenTree :=
  path_tokens zv ["signature", "Child", "Static"] ++
    [.Group .Brace (field_tokens "child" (.Punct '&' .Alone :: signature))]

/-- `#zv::Signature::Unit` and the other childless signatures. -/
def leaf_tokens (zv : List TokenTree) (name : String) : List TokenTree := path_tokens zv ["Signature", name]

/-! ### `signature_to_tokens_with_crate` -/

mutual

/-- `signature_to_tokens_with_crate`. -/
def signature_to_tokens_with_crate (zv : List TokenTree) : Signature → List TokenTree
  | .Unit => leaf_tokens zv "Unit"
  | .Bool => leaf_tokens zv "Bool"
  | .U8 => leaf_tokens zv "U8"
  | .I16 => leaf_tokens zv "I16"
  | .U16 => leaf_tokens zv "U16"
  | .I32 => leaf_tokens zv "I32"
  | .U32 => leaf_tokens zv "U32"
  | .I64 => leaf_tokens zv "I64"
  | .U64 => leaf_tokens zv "U64"
  | .F64 => leaf_tokens zv "F64"
  | .Str => leaf_tokens zv "Str"
  | .Signature => leaf_tokens zv "Signature"
  | .ObjectPath => leaf_tokens zv "ObjectPath"
  | .Variant => leaf_tokens zv "Variant"
  | .Fd => leaf_tokens zv "Fd"
  | .Array child =>
    path_tokens zv ["Signature", "Array"] ++
      [.Group .Parenthesis (static_child zv (signature_to_tokens_with_crate zv child))]
  | .Dict key value =>
    path_tokens zv ["Signature", "Dict"] ++
      [.Group .Brace (field_tokens "key" (static_child zv (signature_to_tokens_with_crate zv key)) ++
        field_tokens "value" (static_child zv (signature_to_tokens_with_crate zv value)))]
  | .Structure fields =>
    path_tokens zv ["Signature", "Structure"] ++
      [.Group .Parenthesis (path_tokens zv ["signature", "Fields", "Static"] ++
        [.Group .Brace (field_tokens "fields" [.Punct '&' .Alone, .Group .Bracket (fields_to_tokens zv fields)])])]
  | .Maybe child =>
    path_tokens zv ["Signature", "Maybe"] ++
      [.Group .Parenthesis (static_child zv (signature_to_tokens_with_crate zv child))]

/-- `#(&#fields),*`: each field's tokens after a `&`, separated by `,`, with no comma after the
last. -/
def fields_to_tokens (zv : List TokenTree) : List Signature → List TokenTree
  | [] => []
  | [field] => .Punct '&' .Alone :: signature_to_tokens_with_crate zv field
  | field :: next :: fields =>
    .Punct '&' .Alone :: signature_to_tokens_with_crate zv field ++ .Punct ',' .Alone ::
      fields_to_tokens zv (next :: fields)

end

/-- `signature_to_tokens`: the crate path `::zvariant`. -/
def signature_to_tokens (signature : Signature) : List TokenTree :=
  signature_to_tokens_with_crate [.Punct ':' .Joint, .Punct ':' .Alone, .Ident "zvariant"] signature

/-! ### Crate paths -/

/-- A crate path such as `::zvariant` or `::zbus::zvariant`: a leading `::` or not, and one or more
segments. It is the `zv` the callers pass. -/
structure CratePath where
  global : Bool
  segments : List String
  nonempty : segments ≠ []

/-- The tokens of a crate path. -/
def CratePath.tokens (zv : CratePath) : List TokenTree :=
  match zv.segments with
  | [] => []
  | first :: rest => (if zv.global then colon2 else []) ++ .Ident first :: segment_tokens rest

/-- `::zvariant`, the crate path of `signature_to_tokens`. -/
def CratePath.zvariant : CratePath := ⟨true, ["zvariant"], nofun⟩

theorem signature_to_tokens_eq (signature : Signature) :
    signature_to_tokens signature = signature_to_tokens_with_crate CratePath.zvariant.tokens signature := rfl

@[simp] theorem segment_tokens_nil : segment_tokens [] = [] := rfl

@[simp] theorem segment_tokens_cons (segment : String) (segments : List String) :
    segment_tokens (segment :: segments) = .Punct ':' .Joint :: .Punct ':' .Alone :: .Ident segment :: segment_tokens segments :=
  rfl

end Zbus.Signature
