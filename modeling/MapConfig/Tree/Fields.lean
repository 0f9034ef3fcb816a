import MapConfig.Error

/-! Typed access to the settings of a tree. The `subject` of a reader names the
section in the error it may give. The readers are `as_map`, `req_str`, `opt_str`,
`bool_or` and `str_list`; a key value is read by `key_text`. -/
namespace MapConfig

/-- The entries of a tree that has to be a mapping. -/
def Tree.asMapping (tree : Tree) (subject : String) : Except ConfigError Mapping :=
  match tree with
  | .mapping entries => .ok entries
  | other => .error (.invalid (.notMapping subject other.kind))

/-- A scalar as it is compared with key values, which are text. -/
def Tree.keyText? : Tree → Option String
  | .text value => some value
  | .number n => some (Json.numberLiteral n)
  | .bool value => some (toString value)
  | _ => none

/-- A list of texts, if every item is one. -/
def Tree.texts? (items : List Tree) : Option (List String) := items.mapM Tree.text?

namespace Mapping

/-- A text that must be given. -/
def text (m : Mapping) (key subject : String) : Except ConfigError String :=
  match Table.find? m key with
  | some (.text value) => .ok value
  | some other => .error (.invalid (.wrongKind subject key "a string" other.kind))
  | none => .error (.missing subject key)

/-- A text that may be left out or be null. -/
def text? (m : Mapping) (key subject : String) : Except ConfigError (Option String) :=
  match Table.find? m key with
  | none | some .null => .ok none
  | some (.text value) => .ok (some value)
  | some other => .error (.invalid (.wrongKind subject key "a string" other.kind))

/-- Anything but a boolean counts as left out. -/
def flag (m : Mapping) (key : String) (fallback : Bool) : Bool :=
  ((Table.find? m key).bind Tree.bool?).getD fallback

/-- A list of texts, empty if left out or null. -/
def texts (m : Mapping) (key subject : String) : Except ConfigError (List String) :=
  match Table.find? m key with
  | none | some .null => .ok []
  | some (.list items) =>
    match Tree.texts? items with
    | some values => .ok values
    | none => .error (.invalid (.notTexts subject key))
  | some other => .error (.invalid (.wrongKind subject key "a list" other.kind))

end Mapping

end MapConfig
