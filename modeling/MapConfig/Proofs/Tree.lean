import MapConfig.Proofs.Results
import MapConfig.Tree.Fields
import Mathlib.Data.List.Forall2

/-! Induction over trees, with the parts of a list or mapping as members, what a
look-up in a table says of its entries, what canonical trees are made of, and
when a typed setting is read. -/
namespace MapConfig

universe u v

instance {α : Type u} (t : Table α) : Decidable t.Sorted :=
  inferInstanceAs (Decidable (t.keys.Pairwise (· < ·)))

theorem Table.mem_of_find? {α : Type u} {t : Table α} {key : String} {value : α}
    (h : t.find? key = some value) : (key, value) ∈ t := by
  induction t with
  | nil => cases h
  | cons entry rest ih =>
    obtain ⟨k, v⟩ := entry
    simp only [Table.find?] at h
    split at h
    · next hk =>
      cases h
      simp [hk]
    · exact List.mem_cons_of_mem _ (ih h)

theorem Table.find?_of_mem {α : Type u} {t : Table α} (sorted : t.Sorted) {key : String}
    {value : α} (h : (key, value) ∈ t) : t.find? key = some value := by
  induction t with
  | nil => cases h
  | cons entry rest ih =>
    obtain ⟨k, v⟩ := entry
    obtain ⟨above, sorted⟩ := (Table.sorted_cons k v rest).mp sorted
    rcases List.mem_cons.mp h with same | hm
    · cases same
      simp [Table.find?]
    · have hne : k ≠ key := by
        rintro rfl
        exact String.lt_irrefl k (above k (List.mem_map.mpr ⟨_, hm, rfl⟩))
      rw [Table.find?, if_neg hne]
      exact ih sorted hm

theorem OrderedTable.find?_of_mem {α : Type u} {t : OrderedTable α} {key : String} {value : α}
    (h : (key, value) ∈ t.entries) : t.find? key = some value :=
  Table.find?_of_mem t.sorted h

theorem Table.find?_override_some {α : Type u} {base upper : Table α} {key : String} {value : α}
    (h : (override base upper).find? key = some value) :
    base.find? key = some value ∨ (key, value) ∈ upper := by
  unfold override at h
  induction upper generalizing base with
  | nil => exact .inl h
  | cons entry rest ih =>
    rcases ih h with h | hm
    · rw [find?_insert] at h
      split at h
      · next hk =>
        cases h
        exact .inr (hk ▸ List.mem_cons_self)
      · exact .inl h
    · exact .inr (List.mem_cons_of_mem entry hm)

theorem Table.find?_override {α : Type u} (base : Table α) {upper : Table α}
    (sorted : upper.Sorted) (key : String) :
    (override base upper).find? key = (upper.find? key).or (base.find? key) := by
  unfold override
  induction upper generalizing base with
  | nil => rfl
  | cons entry rest ih =>
    obtain ⟨k, v⟩ := entry
    obtain ⟨above, sorted⟩ := (Table.sorted_cons k v rest).mp sorted
    rw [List.foldl_cons, ih _ sorted, find?_insert, Table.find?]
    by_cases hk : k = key
    · subst hk
      have absent : Table.find? rest k = none := by
        refine Option.not_isSome_iff_eq_none.mp fun given => ?_
        exact String.lt_irrefl k (above k ((mem_keys_iff rest k).mpr given))
      simp [absent]
    · simp [hk]

theorem OrderedTable.find?_override {α : Type u} (base upper : OrderedTable α) (key : String) :
    (base.override upper).find? key = (upper.find? key).or (base.find? key) :=
  Table.find?_override base.entries upper.sorted key

theorem Table.find?_ofList {α : Type u} {t : Table α} (sorted : t.Sorted) (key : String) :
    (ofList t).find? key = t.find? key := by
  rw [ofList, find?_override [] sorted, find?_nil, Option.or_none]

theorem Table.find?_mapValues {α : Type u} {β : Type v} (f : α → β) (t : Table α)
    (key : String) : (mapValues f t).find? key = (t.find? key).map f := by
  induction t with
  | nil => rfl
  | cons entry rest ih =>
    simp only [mapValues, List.map_cons, Table.find?] at ih ⊢
    split
    · rfl
    · exact ih

theorem Table.sorted_filter {α : Type u} {t : Table α} (sorted : t.Sorted)
    (p : String × α → Bool) : Table.Sorted (t.filter p) :=
  List.Pairwise.sublist (List.filter_sublist.map Prod.fst) sorted

theorem Table.find?_filter {α : Type u} {t : Table α} (sorted : t.Sorted)
    (p : String × α → Bool) (key : String) :
    Table.find? (t.filter p) key = (t.find? key).filter fun value => p (key, value) := by
  ext value
  constructor
  · intro h
    obtain ⟨hm, kept⟩ := List.mem_filter.mp (mem_of_find? h)
    exact Option.filter_eq_some_iff.mpr ⟨find?_of_mem sorted hm, kept⟩
  · intro h
    obtain ⟨hf, kept⟩ := Option.filter_eq_some_iff.mp h
    exact find?_of_mem (sorted_filter sorted p) (List.mem_filter.mpr ⟨mem_of_find? hf, kept⟩)

theorem Table.mem_insert {α : Type u} {t : Table α} {key : String} {value : α}
    {entry : String × α} (h : entry ∈ t.insert key value) : entry = (key, value) ∨ entry ∈ t := by
  induction t with
  | nil => exact .inl (List.mem_singleton.mp h)
  | cons first rest ih =>
    obtain ⟨k, v⟩ := first
    rw [insert] at h
    split at h
    · rcases List.mem_cons.mp h with rfl | hm
      · exact .inl rfl
      · exact .inr (List.mem_cons_of_mem _ hm)
    · split at h
      · rcases List.mem_cons.mp h with rfl | hm
        · exact .inr List.mem_cons_self
        · exact (ih hm).imp_right (List.mem_cons_of_mem _)
      · exact (List.mem_cons.mp h).imp_right id

theorem Table.erase_insert_self {α : Type u} (t : Table α) (key : String) (value : α) :
    (t.insert key value).erase key = t.erase key := by
  induction t with
  | nil => simp [insert, erase]
  | cons first rest ih =>
    obtain ⟨k, v⟩ := first
    rw [insert]
    split
    · next same => simp [erase, same]
    · split
      · simp only [erase, List.filter_cons] at ih ⊢
        rw [ih]
      · simp [erase]

theorem Table.mem_of_find?_ofList {α : Type u} {entries : List (String × α)} {key : String}
    {value : α} (h : (ofList entries).find? key = some value) : (key, value) ∈ entries := by
  rcases find?_override_some h with h | hm
  · cases h
  · exact hm

/-- Tables whose entries correspond have corresponding values under each key. -/
theorem Table.find?_of_forall₂ {α : Type u} {β : Type v} {R : String → α → β → Prop}
    {t : Table α} {t' : Table β}
    (h : List.Forall₂ (fun entry entry' => entry'.1 = entry.1 ∧ R entry.1 entry.2 entry'.2) t t')
    {key : String} {value : α} (hf : t.find? key = some value) :
    ∃ value', t'.find? key = some value' ∧ R key value value' := by
  induction h with
  | nil => cases hf
  | @cons entry entry' _ _ hentry _ ih =>
    obtain ⟨k, v⟩ := entry
    obtain ⟨k', v'⟩ := entry'
    obtain ⟨rfl, hR⟩ := hentry
    rw [Table.find?] at hf ⊢
    split at hf
    · next hk =>
      subst hk
      cases hf
      exact ⟨v', if_pos rfl, hR⟩
    · next hk =>
      rw [if_neg hk]
      exact ih hf

namespace Tree

/-- Neither a list nor a mapping. -/
def IsScalar (tree : Tree) : Prop := tree.list? = none ∧ tree.mapping? = none

theorem sizeOf_item {items : List Tree} {item : Tree} (h : item ∈ items) :
    sizeOf item < sizeOf (Tree.list items) := by
  have hlt := List.sizeOf_lt_of_mem h
  simp only [Tree.list.sizeOf_spec]
  omega

theorem sizeOf_entry {entries : List (String × Tree)} {entry : String × Tree}
    (h : entry ∈ entries) : sizeOf entry.2 < sizeOf (Tree.mapping entries) := by
  have hlt := List.sizeOf_lt_of_mem h
  obtain ⟨key, value⟩ := entry
  simp only [Prod.mk.sizeOf_spec, Tree.mapping.sizeOf_spec] at hlt ⊢
  omega

/-- What holds of a tree whenever it holds of its parts holds of every tree. -/
@[elab_as_elim]
theorem inductionOnParts {motive : Tree → Prop}
    (scalar : ∀ tree, tree.IsScalar → motive tree)
    (list : ∀ items, (∀ item ∈ items, motive item) → motive (.list items))
    (mapping : ∀ entries, (∀ entry ∈ entries, motive entry.2) → motive (.mapping entries))
    (tree : Tree) : motive tree := by
  induction h : sizeOf tree using Nat.strongRecOn generalizing tree with
  | ind size ih =>
    subst h
    cases tree with
    | list items => exact list items fun item hm => ih _ (sizeOf_item hm) item rfl
    | mapping entries => exact mapping entries fun entry hm => ih _ (sizeOf_entry hm) entry.2 rfl
    | null | bool | number | text => exact scalar _ ⟨rfl, rfl⟩

/-! ### Canonical trees

A tree is canonical if its parts are and its own keys ascend. Being so can be decided,
and the operations on mappings preserve it. -/

theorem canonicalItems_iff {items : List Tree} :
    CanonicalItems items ↔ ∀ item ∈ items, item.Canonical := by
  induction items with
  | nil => simp [CanonicalItems]
  | cons item rest ih => simp [CanonicalItems, ih]

theorem canonicalEntries_iff {entries : List (String × Tree)} :
    CanonicalEntries entries ↔ ∀ entry ∈ entries, entry.2.Canonical := by
  induction entries with
  | nil => simp [CanonicalEntries]
  | cons entry rest ih => simp [CanonicalEntries, ih]

theorem canonical_list_iff {items : List Tree} :
    (Tree.list items).Canonical ↔ ∀ item ∈ items, item.Canonical := by
  rw [Canonical, canonicalItems_iff]

theorem canonical_mapping_iff {entries : Mapping} : (Tree.mapping entries).Canonical ↔
    Table.Sorted entries ∧ ∀ entry ∈ entries, entry.2.Canonical := by
  rw [Canonical, canonicalEntries_iff]

mutual

def decideCanonical : (tree : Tree) → Decidable tree.Canonical
  | .list items => decideCanonicalItems items
  | .mapping entries =>
    have := decideCanonicalEntries entries
    inferInstanceAs (Decidable (Table.Sorted entries ∧ CanonicalEntries entries))
  | .null | .bool _ | .number _ | .text _ => .isTrue trivial

def decideCanonicalItems : (items : List Tree) → Decidable (CanonicalItems items)
  | [] => .isTrue trivial
  | item :: rest =>
    have := decideCanonical item
    have := decideCanonicalItems rest
    inferInstanceAs (Decidable (item.Canonical ∧ CanonicalItems rest))

def decideCanonicalEntries : (entries : List (String × Tree)) → Decidable (CanonicalEntries entries)
  | [] => .isTrue trivial
  | (_, value) :: rest =>
    have := decideCanonical value
    have := decideCanonicalEntries rest
    inferInstanceAs (Decidable (value.Canonical ∧ CanonicalEntries rest))

end

instance : DecidablePred Canonical := decideCanonical

theorem Canonical.value {entries : Mapping} (h : (Tree.mapping entries).Canonical) {key : String}
    {value : Tree} (hf : Table.find? entries key = some value) : value.Canonical :=
  (canonical_mapping_iff.mp h).2 _ (Table.mem_of_find? hf)

theorem Canonical.get? {tree value : Tree} (h : tree.Canonical) {key : String}
    (hf : tree.get? key = some value) : value.Canonical := by
  cases tree with
  | mapping entries => exact h.value hf
  | _ => cases hf

theorem IsScalar.canonical {tree : Tree} (h : tree.IsScalar) : tree.Canonical := by
  cases tree with
  | list => cases h.1
  | mapping => cases h.2
  | _ => trivial

theorem Canonical.insert {entries : Mapping} (h : (Tree.mapping entries).Canonical) (key : String)
    {value : Tree} (hvalue : value.Canonical) :
    (Tree.mapping (Table.insert entries key value)).Canonical := by
  obtain ⟨sorted, values⟩ := canonical_mapping_iff.mp h
  refine canonical_mapping_iff.mpr ⟨Table.sorted_insert sorted key value, fun entry hm => ?_⟩
  rcases Table.mem_insert hm with rfl | hm
  · exact hvalue
  · exact values entry hm

theorem Canonical.erase {entries : Mapping} (h : (Tree.mapping entries).Canonical)
    (key : String) : (Tree.mapping (Table.erase entries key)).Canonical := by
  obtain ⟨sorted, values⟩ := canonical_mapping_iff.mp h
  refine canonical_mapping_iff.mpr ⟨Table.sorted_erase sorted key, fun entry hm => ?_⟩
  exact values entry (List.mem_of_mem_filter hm)

end Tree

/-! ## Typed settings

When a reader of a setting succeeds, and with what. Loading is taken apart with these. -/

theorem Tree.asMapping_ok_iff {tree : Tree} {subject : String} {cfg : Mapping} :
    tree.asMapping subject = .ok cfg ↔ tree = .mapping cfg := by
  cases tree <;> simp [asMapping]

/-- The entries of a mapping that may be missing. -/
theorem Tree.mem_getD_mapping? {given : Option Tree} {entry : String × Tree} :
    entry ∈ (given.bind mapping?).getD [] ↔
      ∃ entries, given = some (.mapping entries) ∧ entry ∈ entries := by
  cases given with
  | none => simp
  | some tree => cases tree <;> simp [mapping?]

theorem Tree.word64?_eq_some_iff {tree : Tree} {n : Nat} :
    tree.word64? = some n ↔ tree = .number (.whole n) := by
  constructor
  · intro h
    cases tree with
    | number given =>
      cases given with
      | whole given =>
        rw [word64?, Number.word64?] at h
        split at h
        · next nonneg =>
          cases h
          rw [Int.toNat_of_nonneg nonneg]
        · cases h
      | double => cases h
    | _ => cases h
  · rintro rfl
    rw [word64?, Number.word64?, if_pos (Int.natCast_nonneg n), Int.toNat_natCast]

theorem Tree.texts?_eq_some_iff {items : List Tree} {texts : List String} :
    Tree.texts? items = some texts ↔ items = texts.map .text := by
  rw [Tree.texts?, mapM_eq_some_iff]
  induction items generalizing texts with
  | nil => cases texts <;> simp
  | cons item items ih =>
    cases texts with
    | nil => simp
    | cons text texts => cases item <;> simp [Tree.text?, ih]

namespace Mapping
variable {m : Mapping} {key subject : String}

theorem text_ok_iff {value : String} :
    text m key subject = .ok value ↔ Table.find? m key = some (.text value) := by
  unfold text
  cases hf : Table.find? m key with
  | none => simp
  | some found => cases found <;> simp

theorem text?_ok_iff {result : Option String} : text? m key subject = .ok result ↔
    ((Table.find? m key = none ∨ Table.find? m key = some .null) ∧ result = none) ∨
      ∃ value, Table.find? m key = some (.text value) ∧ result = some value := by
  unfold text?
  cases hf : Table.find? m key with
  | none => simp [eq_comm]
  | some found => cases found <;> simp [eq_comm]

theorem texts_ok_iff {result : List String} : texts m key subject = .ok result ↔
    ((Table.find? m key = none ∨ Table.find? m key = some .null) ∧ result = []) ∨
      Table.find? m key = some (.list (result.map .text)) := by
  unfold texts
  cases hf : Table.find? m key with
  | none => simp [eq_comm]
  | some found =>
    cases found with
    | list items =>
      simp only [Option.some.injEq, reduceCtorEq, or_self, false_and, false_or, Tree.list.injEq,
        ← Tree.texts?_eq_some_iff]
      cases Tree.texts? items <;> simp
    | _ => simp [eq_comm]

end Mapping

end MapConfig
