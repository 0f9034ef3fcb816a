import MapConfig.Table

/-! Tables that carry the order of their keys. What the program collects under names
itself, the keys of an entry (`KeyValues`), the aliases of bands, the texts of the
registry, the positions of layers and of styles, is held so; the mappings of a tree are
plain tables, whose order `Tree.Canonical` states. -/
namespace MapConfig

universe u v

/-- A table with its keys in ascending order. -/
structure OrderedTable (α : Type u) where
  entries : Table α
  sorted : entries.Sorted
deriving DecidableEq

namespace OrderedTable
variable {α : Type u} {β : Type v}

theorem sorted_nil : Table.Sorted ([] : Table α) := List.Pairwise.nil

instance : EmptyCollection (OrderedTable α) := ⟨⟨[], sorted_nil⟩⟩

def find? (t : OrderedTable α) (key : String) : Option α := t.entries.find? key

def contains (t : OrderedTable α) (key : String) : Bool := t.entries.contains key

def keys (t : OrderedTable α) : List String := t.entries.keys

def isEmpty (t : OrderedTable α) : Bool := t.entries.isEmpty

/-- Replaces the entry of `key`, or adds one in its place. -/
def insert (t : OrderedTable α) (key : String) (value : α) : OrderedTable α :=
  ⟨t.entries.insert key value, Table.sorted_insert t.sorted key value⟩

/-- The entries of `upper` win over those of `base`. -/
def override (base upper : OrderedTable α) : OrderedTable α :=
  ⟨Table.override base.entries upper.entries, Table.sorted_override base.sorted upper.entries⟩

/-- A key given twice keeps its last value. -/
def ofList (entries : List (String × α)) : OrderedTable α :=
  ⟨Table.ofList entries, Table.sorted_ofList entries⟩

/-- Where each name stands in a list. A name that is repeated has its last position. -/
def positions (names : List String) : OrderedTable Nat := ofList names.zipIdx

@[simp] theorem find?_entries (t : OrderedTable α) (key : String) :
    Table.find? t.entries key = t.find? key := rfl

@[simp] theorem find?_empty (key : String) : (∅ : OrderedTable α).find? key = none := rfl

@[simp] theorem keys_empty : (∅ : OrderedTable α).keys = [] := rfl

theorem isEmpty_iff {t : OrderedTable α} : t.isEmpty = true ↔ t = ∅ := by
  rw [isEmpty, List.isEmpty_iff]
  refine ⟨fun none => ?_, fun none => none ▸ rfl⟩
  cases t
  cases none
  rfl

theorem find?_insert (t : OrderedTable α) (key other : String) (value : α) :
    (t.insert key value).find? other = if key = other then some value else t.find? other :=
  Table.find?_insert t.entries key other value

theorem mem_keys_insert (t : OrderedTable α) (key other : String) (value : α) :
    other ∈ (t.insert key value).keys ↔ other = key ∨ other ∈ t.keys :=
  Table.mem_keys_insert t.entries key other value

theorem mem_keys_iff (t : OrderedTable α) (key : String) :
    key ∈ t.keys ↔ (t.find? key).isSome := Table.mem_keys_iff t.entries key

/-- An ordered table has no other content than its look-ups. -/
theorem eq_of_find?_eq {s t : OrderedTable α} (same : ∀ key, s.find? key = t.find? key) :
    s = t := by
  cases s with
  | mk entries sorted =>
    cases t with
    | mk others sorted' =>
      cases Table.eq_of_find?_eq sorted sorted' same
      rfl

end OrderedTable

end MapConfig
