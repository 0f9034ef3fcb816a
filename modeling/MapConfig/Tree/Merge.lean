import MapConfig.Tree

/-! Merging a child tree over a parent. Where both hold a mapping the merge
goes on key by key; anywhere else the child's value replaces the parent's, so
lists are not concatenated and a null clears what was there. This is `deep_merge`,
which the program applies to an entry and the parent it inherits from. -/
namespace MapConfig.Tree

mutual

/-- The child over the parent. -/
def merge : Tree → Tree → Tree
  | .mapping parent, .mapping child => .mapping (mergeEntries parent child)
  | _, child => child

/-- The entries of the child, put one by one over those of the parent. -/
def mergeEntries (parent : Mapping) : List (String × Tree) → Mapping
  | [] => parent
  | (key, value) :: rest =>
    let merged := match Table.find? parent key with
      | some inherited => merge inherited value
      | none => value
    mergeEntries (Table.insert parent key merged) rest

end

/-- What a merge holds under one key. -/
theorem find?_mergeEntries (parent : Mapping) {child : Mapping} (h : Table.Sorted child)
    (key : String) :
    Table.find? (mergeEntries parent child) key =
      match Table.find? child key, Table.find? parent key with
      | none, inherited => inherited
      | some value, some inherited => some (merge inherited value)
      | some value, none => some value := by
  induction child generalizing parent with
  | nil => simp [mergeEntries]
  | cons entry rest ih =>
    obtain ⟨k, value⟩ := entry
    obtain ⟨above, sorted⟩ := (Table.sorted_cons k value rest).1 h
    rw [mergeEntries, ih _ sorted]
    by_cases hk : k = key
    · subst hk
      rw [Table.find?_eq_none_of_above above (String.le_refl k), Table.find?_insert_self]
      cases Table.find? parent k <;> simp [Table.find?]
    · rw [Table.find?_insert_ne _ _ hk]
      simp [Table.find?, hk]

/-- A merge keeps the keys in order, whatever the order of the child. -/
theorem sorted_mergeEntries {parent : Mapping} (h : Table.Sorted parent) (child : Mapping) :
    Table.Sorted (mergeEntries parent child) := by
  induction child generalizing parent with
  | nil => simpa [mergeEntries] using h
  | cons entry rest ih =>
    rw [mergeEntries]
    exact ih (Table.sorted_insert h entry.1 _)

end MapConfig.Tree
