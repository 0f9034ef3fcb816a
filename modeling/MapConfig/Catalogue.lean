import MapConfig.Tree.Fields

/-! The catalogue of entries that other entries can refer to. An entry is known
by its kind and by the values of the attributes that identify that kind; the
catalogue holds its raw tree, which is all that inheritance needs. The catalogue is the
program's `EntryIndex`; it answers by searching the records in order. -/
namespace MapConfig

/-- Identifying values by attribute name. Further attributes may be present. -/
abbrev KeyValues := OrderedTable String

/-- What identifies a layer. -/
def layerKeys (layer : String) : KeyValues := .ofList [("layer", layer)]

/-- What identifies a style of a layer. -/
def styleKeys (layer style : String) : KeyValues := .ofList [("layer", layer), ("style", style)]

/-- A kind of entry, and the attributes that identify an entry of it. -/
structure EntryKind where
  name : String
  keys : List String
deriving DecidableEq

namespace EntryKind

def layer : EntryKind := ⟨"layer", ["layer"]⟩

def style : EntryKind := ⟨"style", ["layer", "style"]⟩

/-- The identifying values in the order of the attributes, if none is missing. -/
def identity? (kind : EntryKind) (values : KeyValues) : Option (List String) :=
  kind.keys.mapM fun key => values.find? key

/-- The attributes of the kind that have no value. -/
def missingKeys (kind : EntryKind) (values : KeyValues) : List String :=
  kind.keys.filter fun key => !values.contains key

end EntryKind

/-- An entry as it was registered (`IndexRecord`). -/
structure Record where
  kind : EntryKind
  keys : KeyValues
  raw : Tree

/-- Records in the order of their registration. -/
structure Catalogue where
  records : List Record

namespace Catalogue

def empty : Catalogue := ⟨[]⟩

def size (c : Catalogue) : Nat := c.records.length

/-- The record of the entry that the key values identify. Records of kinds with one name
belong together, also where the kinds list their attributes differently. -/
def find? (c : Catalogue) (kind : EntryKind) (keys : KeyValues) : Option Record := do
  let identity ← kind.identity? keys
  c.records.find? fun record =>
    decide (record.kind.name = kind.name ∧ record.kind.identity? record.keys = some identity)

/-- Whether an entry of the kind is registered under the key values. -/
def contains (c : Catalogue) (kind : EntryKind) (keys : KeyValues) : Bool :=
  (c.find? kind keys).isSome

/-- Adds a record at the end. Every identifying value has to be there, and no entry may
be registered twice. -/
def register (c : Catalogue) (kind : EntryKind) (keys : KeyValues) (raw : Tree) :
    Except ConfigError Catalogue :=
  if (kind.identity? keys).isNone then
    .error (.invalid (.missingKeys (kind.missingKeys keys) keys))
  else if c.contains kind keys then .error (.invalid (.duplicateEntry kind.name keys))
  else .ok ⟨c.records ++ [⟨kind, keys, raw⟩]⟩

/-- Substituted key values are tried before the values as written. -/
def lookup (c : Catalogue) (kind : EntryKind) (keys : KeyValues)
    (substitutes : Option KeyValues) : Except ConfigError Record :=
  let substituted := match substitutes with
    | some given => if given.isEmpty then none else c.find? kind (keys.override given)
    | none => none
  match substituted.or (c.find? kind keys) with
  | some record => .ok record
  | none => .error (.notFound (.entry kind.name keys))

end Catalogue

end MapConfig
