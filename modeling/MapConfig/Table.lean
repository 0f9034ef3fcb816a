/-! Finite tables keyed by text. A table is an association list whose keys
ascend by code point, so two tables with the same entries are equal and a walk
over one needs no sorting. `insert` looks for its place without assuming the
order; the look-up laws below therefore hold of any list. -/
namespace MapConfig

universe u v

/-- Entries under text keys, in the order of the list. -/
abbrev Table (α : Type u) := List (String × α)

namespace Table
variable {α : Type u} {β : Type v}

/-- The value of the first entry with the key. -/
def find? : Table α → String → Option α
  | [], _ => none
  | (k, v) :: rest, key => if k = key then some v else find? rest key

/-- Replaces the entry of `key`, or adds one before the first greater key. -/
def insert : Table α → String → α → Table α
  | [], key, value => [(key, value)]
  | (k, v) :: rest, key, value =>
    if k = key then (key, value) :: rest
    else if k < key then (k, v) :: insert rest key value
    else (key, value) :: (k, v) :: rest

/-- All entries but those of the key. -/
def erase (t : Table α) (key : String) : Table α :=
  t.filter fun entry => !decide (entry.1 = key)

/-- The keys in the order of the entries. -/
def keys (t : Table α) : List String := t.map Prod.fst

def contains (t : Table α) (key : String) : Bool := (t.find? key).isSome

/-- The entries of `upper` win over those of `base`. -/
def override (base upper : Table α) : Table α :=
  upper.foldl (fun t entry => t.insert entry.1 entry.2) base

/-- A key given twice keeps its last value. -/
def ofList (entries : List (String × α)) : Table α := override [] entries

/-- The same keys over other values. -/
def mapValues (f : α → β) (t : Table α) : Table β :=
  t.map fun entry => (entry.1, f entry.2)

/-- The keys ascend by code point, so none of them is repeated. -/
def Sorted (t : Table α) : Prop := t.keys.Pairwise (· < ·)

/-! ## Look-ups

What each operation does to the look-ups. None of these laws needs the order of the
keys, so they hold of the tables of any tree. -/

@[simp] theorem find?_nil (key : String) : find? ([] : Table α) key = none := rfl

theorem find?_insert (t : Table α) (key other : String) (value : α) :
    (t.insert key value).find? other = if key = other then some value else t.find? other := by
  induction t with
  | nil => simp [insert, find?]
  | cons entry rest ih =>
    obtain ⟨k, v⟩ := entry
    simp only [insert]
    split
    · next h => subst h; by_cases ho : k = other <;> simp [find?, ho]
    · next h =>
      split
      · by_cases ho : k = other
        · subst ho
          simp [find?, Ne.symm h]
        · simp [find?, ho, ih]
      · by_cases ho : key = other <;> simp [find?, ho]

theorem find?_insert_self (t : Table α) (key : String) (value : α) :
    (t.insert key value).find? key = some value := by simp [find?_insert]

theorem find?_insert_ne (t : Table α) {key other : String} (value : α) (h : key ≠ other) :
    (t.insert key value).find? other = t.find? other := by simp [find?_insert, h]

theorem find?_erase (t : Table α) (key other : String) :
    (t.erase key).find? other = if key = other then none else t.find? other := by
  induction t with
  | nil => simp [erase]
  | cons entry rest ih =>
    obtain ⟨k, v⟩ := entry
    simp only [erase] at ih
    by_cases hk : k = key
    · subst hk
      by_cases ho : k = other <;> simp_all [erase, find?]
    · by_cases ho : k = other
      · subst ho
        simp [erase, find?, hk, Ne.symm hk]
      · simp_all [erase, find?]

theorem mem_keys_iff (t : Table α) (key : String) : key ∈ t.keys ↔ (t.find? key).isSome := by
  induction t with
  | nil => simp [keys]
  | cons entry rest ih =>
    obtain ⟨k, v⟩ := entry
    simp only [keys, List.map_cons, List.mem_cons, find?]
    by_cases hk : k = key
    · simp [hk]
    · simpa [hk, Ne.symm hk, keys] using ih

theorem mem_keys_insert (t : Table α) (key other : String) (value : α) :
    other ∈ (t.insert key value).keys ↔ other = key ∨ other ∈ t.keys := by
  rw [mem_keys_iff, mem_keys_iff, find?_insert]
  by_cases h : key = other
  · simp [h]
  · simp [h, Ne.symm h]

/-! ## The order of the keys

Every operation keeps the keys in order, and a table in order is determined by its
look-ups. -/

theorem sorted_cons (k : String) (v : α) (t : Table α) :
    Sorted ((k, v) :: t) ↔ (∀ key ∈ t.keys, k < key) ∧ t.Sorted := by
  simp [Sorted, keys]

theorem sorted_insert {t : Table α} (h : t.Sorted) (key : String) (value : α) :
    (t.insert key value).Sorted := by
  induction t with
  | nil => simp [insert, Sorted, keys]
  | cons entry rest ih =>
    obtain ⟨k, v⟩ := entry
    obtain ⟨above, sorted⟩ := (sorted_cons k v rest).1 h
    simp only [insert]
    split
    · next hk => subst hk; exact (sorted_cons k value rest).2 ⟨above, sorted⟩
    · next hk =>
      split
      · next hlt =>
        refine (sorted_cons k v _).2 ⟨fun other hm => ?_, ih sorted⟩
        rcases (mem_keys_insert rest key other value).1 hm with rfl | hm
        · exact hlt
        · exact above other hm
      · next hlt =>
        have hlt : key < k := by grind
        refine (sorted_cons key value _).2 ⟨fun other hm => ?_, h⟩
        rcases List.mem_cons.1 hm with rfl | hm
        · exact hlt
        · exact String.lt_trans hlt (above other hm)

theorem sorted_erase {t : Table α} (h : t.Sorted) (key : String) : (t.erase key).Sorted := by
  have sub : (t.erase key).keys.Sublist t.keys := (List.filter_sublist).map Prod.fst
  exact List.Pairwise.sublist sub h

theorem sorted_override {base : Table α} (h : base.Sorted) (upper : Table α) :
    (override base upper).Sorted := by
  rw [override]
  induction upper generalizing base with
  | nil => exact h
  | cons entry rest ih => exact ih (sorted_insert h entry.1 entry.2)

theorem sorted_ofList (entries : List (String × α)) : (ofList entries).Sorted := by
  have empty : Sorted ([] : Table α) := by simp [Sorted, keys]
  exact sorted_override empty entries

theorem keys_mapValues (f : α → β) (t : Table α) : (mapValues f t).keys = t.keys := by
  simp [keys, mapValues]

theorem sorted_mapValues {t : Table α} (h : t.Sorted) (f : α → β) : (mapValues f t).Sorted := by
  rw [Sorted, keys_mapValues]
  exact h

/-- A key that is not above the keys of a table is not among them. -/
theorem find?_eq_none_of_above {t : Table α} {low key : String} (above : ∀ k ∈ t.keys, low < k)
    (le : key ≤ low) : t.find? key = none := by
  refine Option.not_isSome_iff_eq_none.1 fun found => ?_
  have lt := above key ((mem_keys_iff t key).2 found)
  grind

/-- Tables with the same look-ups start with the same key: the smaller of two first keys
would be missing from the other table. -/
theorem head_eq_of_find?_eq {k l : String} {v w : α} {s t : Table α}
    (aboveK : ∀ key ∈ s.keys, k < key) (aboveL : ∀ key ∈ t.keys, l < key)
    (h : ∀ key, find? ((k, v) :: s) key = find? ((l, w) :: t) key) : k = l := by
  by_cases same : k = l
  · exact same
  · by_cases lt : k < l
    · have absent := find?_eq_none_of_above aboveL (String.not_lt.1 (String.lt_asymm lt))
      have found := h k
      simp [find?, Ne.symm same, absent] at found
    · have absent := find?_eq_none_of_above aboveK (String.not_lt.1 lt)
      have found := h l
      simp [find?, same, absent] at found

/-- A table has no other content than its look-ups. -/
theorem eq_of_find?_eq {s t : Table α} (hs : s.Sorted) (ht : t.Sorted)
    (h : ∀ key, s.find? key = t.find? key) : s = t := by
  induction s generalizing t with
  | nil =>
    cases t with
    | nil => rfl
    | cons entry rest => simpa [find?] using h entry.1
  | cons entry rest ih =>
    obtain ⟨k, v⟩ := entry
    cases t with
    | nil => simpa [find?] using h k
    | cons other others =>
      obtain ⟨l, w⟩ := other
      obtain ⟨aboveK, sortedK⟩ := (sorted_cons k v rest).1 hs
      obtain ⟨aboveL, sortedL⟩ := (sorted_cons l w others).1 ht
      obtain rfl := head_eq_of_find?_eq aboveK aboveL h
      obtain rfl : v = w := by simpa [find?] using h k
      congr 1
      -- The shared first key is in neither rest; any other key is looked up in the rests.
      refine ih sortedK sortedL fun key => ?_
      by_cases hkey : k = key
      · subst hkey
        rw [find?_eq_none_of_above aboveK (String.le_refl k),
          find?_eq_none_of_above aboveL (String.le_refl k)]
      · simpa [find?, hkey] using h key

end Table

end MapConfig
