/-! Finite sets of names. A set lists its names by code point and none of them
twice, which is the order in which it is shown; two sets with the same names are
therefore equal. -/
namespace MapConfig

/-- Names in ascending order. -/
structure NameSet where
  names : List String
  ascending : names.Pairwise (· < ·)
deriving DecidableEq

namespace NameSet

instance : Membership String NameSet := ⟨fun s name => name ∈ s.names⟩

instance (name : String) (s : NameSet) : Decidable (name ∈ s) :=
  inferInstanceAs (Decidable (name ∈ s.names))

instance : EmptyCollection NameSet := ⟨⟨[], .nil⟩⟩

instance : Singleton String NameSet := ⟨fun name => ⟨[name], List.pairwise_singleton _ name⟩⟩

def isEmpty (s : NameSet) : Bool := s.names.isEmpty

/-- The names with one more, in its place unless it is there. -/
def place : List String → String → List String
  | [], name => [name]
  | n :: rest, name =>
    if n = name then n :: rest
    else if n < name then n :: place rest name
    else name :: n :: rest

theorem mem_place (names : List String) (name other : String) :
    other ∈ place names name ↔ other = name ∨ other ∈ names := by
  induction names with
  | nil => simp [place]
  | cons n rest ih =>
    simp only [place]
    split
    · next h => subst h; simp
    · split
      · simp only [List.mem_cons, ih]
        constructor
        · rintro (h | h | h) <;> simp [h]
        · rintro (h | h | h) <;> simp [h]
      · simp

/-- Placing a name keeps the order, so a set stays one under `insert`. -/
theorem pairwise_place {names : List String} (h : names.Pairwise (· < ·)) (name : String) :
    (place names name).Pairwise (· < ·) := by
  induction names with
  | nil => simp [place]
  | cons n rest ih =>
    obtain ⟨above, ascending⟩ := List.pairwise_cons.1 h
    simp only [place]
    split
    · exact h
    · next hn =>
      split
      · next hlt =>
        refine List.pairwise_cons.2 ⟨fun other hm => ?_, ih ascending⟩
        rcases (mem_place rest name other).1 hm with rfl | hm
        · exact hlt
        · exact above other hm
      · next hlt =>
        have hlt : name < n := by grind
        refine List.pairwise_cons.2 ⟨fun other hm => ?_, h⟩
        rcases List.mem_cons.1 hm with rfl | hm
        · exact hlt
        · exact String.lt_trans hlt (above other hm)

def insert (s : NameSet) (name : String) : NameSet :=
  ⟨place s.names name, pairwise_place s.ascending name⟩

def erase (s : NameSet) (name : String) : NameSet where
  names := s.names.filter fun n => !decide (n = name)
  ascending := s.ascending.filter _

/-- The names of both sets: those of `t` are put into `s` one by one. -/
def union (s t : NameSet) : NameSet := t.names.foldl insert s

/-- The names of a list, each of them once. -/
def ofList (names : List String) : NameSet := names.foldl insert ∅

/-- The names of a set in one line, in order. -/
def listing (s : NameSet) : String := ", ".intercalate s.names

@[simp] theorem mem_names {s : NameSet} {name : String} : name ∈ s.names ↔ name ∈ s := Iff.rfl

@[simp] theorem not_mem_empty (name : String) : name ∉ (∅ : NameSet) := List.not_mem_nil

@[simp] theorem mem_singleton {name other : String} : name ∈ ({other} : NameSet) ↔ name = other :=
  List.mem_singleton

/-- A set is no more than the names it lists. -/
@[ext] theorem ext {s t : NameSet} (same : s.names = t.names) : s = t := by
  cases s
  cases t
  cases same
  rfl

theorem eq_empty_iff {s : NameSet} : s = ∅ ↔ ∀ name, name ∉ s :=
  ⟨fun none name => none ▸ not_mem_empty name,
    fun none => ext (List.eq_nil_iff_forall_not_mem.mpr none)⟩

theorem isEmpty_iff {s : NameSet} : s.isEmpty = true ↔ s = ∅ := by
  rw [isEmpty, List.isEmpty_iff, eq_empty_iff]
  exact List.eq_nil_iff_forall_not_mem

@[simp] theorem erase_empty (name : String) : (∅ : NameSet).erase name = ∅ := rfl

theorem mem_insert (s : NameSet) (name other : String) :
    other ∈ s.insert name ↔ other = name ∨ other ∈ s := mem_place s.names name other

theorem mem_erase (s : NameSet) (name other : String) :
    other ∈ s.erase name ↔ other ∈ s ∧ other ≠ name := by
  rw [← mem_names, erase, List.mem_filter]
  simp

theorem mem_foldl_insert (names : List String) (s : NameSet) (name : String) :
    name ∈ names.foldl insert s ↔ name ∈ s ∨ name ∈ names := by
  induction names generalizing s with
  | nil => simp
  | cons n rest ih =>
    rw [List.foldl_cons, ih, mem_insert, List.mem_cons]
    constructor
    · rintro ((h | h) | h) <;> simp [h]
    · rintro (h | h | h) <;> simp [h]

theorem mem_union (s t : NameSet) (name : String) : name ∈ s.union t ↔ name ∈ s ∨ name ∈ t :=
  mem_foldl_insert t.names s name

theorem mem_ofList (names : List String) (name : String) : name ∈ ofList names ↔ name ∈ names := by
  rw [ofList, mem_foldl_insert]
  simp

end NameSet

end MapConfig
