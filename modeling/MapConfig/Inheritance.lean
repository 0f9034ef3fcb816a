import MapConfig.Catalogue
import MapConfig.Tree.Merge

/-! Inheritance between entries. A mapping may name its parent under `inherits`:
by key values, where they identify an entry of the catalogue, or by giving the
parent's tree itself. The mapping is then merged over its parent and marked, so
that it never inherits twice. -/
namespace MapConfig.Inheritance

/-- The key of the directive. -/
def directiveKey : String := "inherits"

/-- The key of the mark, which is set by inheriting and may also be written. -/
def markKey : String := "inheritance_expanded"

/-- Whether a tree carries the mark; only the value `true` counts. -/
def isExpanded (raw : Tree) : Bool := ((raw.get? markKey).bind Tree.bool?).getD false

/-- The key values that a directive and the defaults give together (`lookup_keys`), if
they give one for every attribute of a kind that has attributes. -/
def parentKeys? (directive : Mapping) (kind : EntryKind) (defaults : KeyValues) :
    Option KeyValues := do
  let values ← kind.keys.mapM fun key => do
    let value ← ((Table.find? directive key).bind Tree.keyText?).or (defaults.find? key)
    some (key, value)
  if values.isEmpty then none else some (.ofList values)

/-- The tree of the parent: that of the entry identified, or the directive itself. Key
values that lead nowhere are an error. -/
def parent (directive : Mapping) (kind : EntryKind) (catalogue : Catalogue)
    (substitutes : Option KeyValues) (defaults : KeyValues) : Except ConfigError Tree :=
  match parentKeys? directive kind defaults with
  | some keys => (catalogue.lookup kind keys substitutes).map Record.raw
  | none => .ok (.mapping directive)

/-- The child without its directive, merged over the parent and marked. -/
def join (parent : Tree) (child : Mapping) : Tree :=
  match Tree.merge parent (.mapping (Table.erase child directiveKey)) with
  | .mapping entries =>
    .mapping (Table.insert (Table.erase entries directiveKey) markKey (.bool true))
  | other => other

/-- Applies the directive of a tree (`expand_inherit`). Trees without one, and trees
that are marked, stay as they are. -/
def expand (raw : Tree) (kind : EntryKind) (catalogue : Catalogue)
    (substitutes : Option KeyValues) (defaults : KeyValues) : Except ConfigError Tree :=
  match raw with
  | .mapping child =>
    if isExpanded raw then .ok raw else
      match Table.find? child directiveKey with
      | none => .ok raw
      | some (.mapping directive) => do
        let parent ← parent directive kind catalogue substitutes defaults
        return join parent child
      | some other => .error (.malformed (.inherits other.kind))
  | other => .ok other

end MapConfig.Inheritance
