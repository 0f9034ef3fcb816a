import MapConfig.Proofs.Tree
import MapConfig.Tree.Merge
import Mathlib.Data.List.Infix

/-! What a merge holds at a path of keys. It is what the child holds there, if the
child takes over at the path or on the way to it; otherwise the merge of two
mappings where the child holds one, and what the parent holds where the child
holds nothing.

For anything but a mapping this says: it is what the child holds there, or, where
the child leaves the path open, what the parent does. Of a row of trees merged one
over the other the last one that does not leave the path open is the one that
counts. -/
namespace MapConfig.Tree
variable {parent child value : Tree}

theorem merge_of_not_mapping (parent : Tree) (h : child.mapping? = none) :
    merge parent child = child := by
  cases child with
  | mapping entries => cases h
  | _ => cases parent <;> rfl

theorem mapping?_merge_isSome (parent : Tree) (entries : Mapping) :
    (merge parent (.mapping entries)).mapping?.isSome := by
  cases parent <;> rfl

/-- Under one key, whatever the parent is. -/
theorem get?_merge (parent : Tree) {entries : Mapping} (h : Table.Sorted entries) (key : String) :
    (merge parent (.mapping entries)).get? key =
      match Table.find? entries key, parent.get? key with
      | none, inherited => inherited
      | some value, some inherited => some (merge inherited value)
      | some value, none => some value := by
  cases parent with
  | mapping inherited => exact find?_mergeEntries inherited h key
  | _ =>
    show Table.find? entries key = _
    cases Table.find? entries key <;> rfl

theorem Canonical.merge (hparent : parent.Canonical) (hchild : child.Canonical) :
    (parent.merge child).Canonical := by
  induction child using inductionOnParts generalizing parent with
  | scalar child hs =>
    rw [merge_of_not_mapping parent hs.2]
    exact hchild
  | list items _ =>
    rw [merge_of_not_mapping parent rfl]
    exact hchild
  | mapping entries ih =>
    cases parent with
    | mapping inherited =>
      obtain ⟨sorted, _⟩ := canonical_mapping_iff.mp hchild
      have merged := sorted_mergeEntries (canonical_mapping_iff.mp hparent).1 entries
      refine canonical_mapping_iff.mpr ⟨merged, fun (key, value) hm => ?_⟩
      have hf := Table.find?_of_mem merged hm
      rw [find?_mergeEntries inherited sorted] at hf
      cases hown : Table.find? entries key with
      | none =>
        rw [hown] at hf
        exact hparent.value hf
      | some own =>
        have canonical := hchild.value hown
        cases hold : Table.find? inherited key with
        | none =>
          rw [hown, hold] at hf
          cases hf
          exact canonical
        | some old =>
          rw [hown, hold] at hf
          cases hf
          -- Both sides have the key: the merge goes down, and so does the induction.
          exact ih _ (Table.mem_of_find? hown) (hparent.value hold) canonical
    | _ => exact hchild

/-- Two trees are two mappings, or else the child replaces the whole parent. -/
theorem mappings_or_merge_eq (parent child : Tree) :
    (∃ inherited entries, parent = .mapping inherited ∧ child = .mapping entries) ∨
      merge parent child = child ∧ (parent.mapping? = none ∨ child.mapping? = none) := by
  cases parent <;> cases child <;> simp [Tree.merge, mapping?]

/-! ## Where the child takes over

The path is followed in both trees at once. As long as both hold mappings the merge goes
on below, and from the first place where they do not the child alone counts. -/

def HoldsMapping (tree : Tree) (path : List String) : Prop :=
  ((tree.at? path).bind mapping?).isSome

/-- The child holds a value at the path, and the two do not both hold a mapping. -/
def TakesOver (parent child : Tree) (path : List String) : Prop :=
  (child.at? path).isSome ∧ ¬ (parent.HoldsMapping path ∧ child.HoldsMapping path)

/-- The child takes over at the path or on the way to it. -/
def Overridden (parent child : Tree) (path : List String) : Prop :=
  ∃ front, front <+: path ∧ TakesOver parent child front

instance (tree : Tree) (path : List String) : Decidable (tree.HoldsMapping path) :=
  inferInstanceAs (Decidable (_ = true))

instance (parent child : Tree) (path : List String) : Decidable (TakesOver parent child path) :=
  inferInstanceAs (Decidable (_ ∧ _))

instance (parent child : Tree) (path : List String) : Decidable (Overridden parent child path) :=
  decidable_of_iff (∃ front ∈ path.inits, TakesOver parent child front) (by
    simp [Overridden, List.mem_inits])

theorem holdsMapping_iff {tree : Tree} {path : List String} :
    tree.HoldsMapping path ↔ ∃ entries, tree.at? path = some (.mapping entries) := by
  unfold HoldsMapping
  cases tree.at? path with
  | none => simp
  | some found => cases found <;> simp [mapping?]

theorem takesOver_nil_iff :
    TakesOver parent child [] ↔ parent.mapping? = none ∨ child.mapping? = none := by
  simp only [TakesOver, HoldsMapping, at?_nil, Option.isSome_some, Option.bind_some, true_and]
  cases parent.mapping? <;> cases child.mapping? <;> simp

/-- Below two mappings the child takes over under the keys of its own, and further
down where both have the key. -/
theorem overridden_mapping_cons {inherited entries : Mapping} {key : String}
    {path : List String} : Overridden (.mapping inherited) (.mapping entries) (key :: path) ↔
      ∃ own, Table.find? entries key = some own ∧
        ∀ old, Table.find? inherited key = some old → Overridden old own path := by
  have below {old own : Tree} (hold : Table.find? inherited key = some old)
      (hown : Table.find? entries key = some own) (front : List String) :
      TakesOver (.mapping inherited) (.mapping entries) (key :: front) ↔
        TakesOver old own front := by
    simp [TakesOver, HoldsMapping, at?_cons, hold, hown]
  constructor
  · rintro ⟨front, hfront, takes⟩
    rcases List.prefix_cons_iff.mp hfront with rfl | ⟨front, rfl, hfront⟩
    -- Two mappings at the top: the child does not take over here.
    · simp [takesOver_nil_iff, mapping?] at takes
    · cases hown : Table.find? entries key with
      | none => simp [TakesOver, at?_cons, hown] at takes
      | some own =>
        have inner := (List.prefix_cons_inj key).mp hfront
        exact ⟨own, rfl, fun old hold => ⟨front, inner, (below hold hown front).mp takes⟩⟩
  · rintro ⟨own, hown, deeper⟩
    cases hold : Table.find? inherited key with
    | none =>
      refine ⟨[key], by simp, ?_⟩
      simp [TakesOver, HoldsMapping, at?_cons, hown, hold]
    | some old =>
      obtain ⟨front, hfront, takes⟩ := deeper old hold
      exact ⟨key :: front, (List.prefix_cons_inj key).mpr hfront, (below hold hown front).mpr takes⟩

theorem at?_merge_of_overridden (canonical : child.Canonical) {path : List String}
    (h : Overridden parent child path) : (merge parent child).at? path = child.at? path := by
  induction path generalizing parent child with
  | nil =>
    obtain ⟨front, hfront, takes⟩ := h
    obtain rfl := List.prefix_nil.mp hfront
    obtain ⟨inherited, entries, rfl, rfl⟩ | ⟨same, _⟩ := mappings_or_merge_eq parent child
    · simp [takesOver_nil_iff, mapping?] at takes
    · rw [same]
  | cons key path ih =>
    obtain ⟨inherited, entries, rfl, rfl⟩ | ⟨same, _⟩ := mappings_or_merge_eq parent child
    · obtain ⟨sorted, _⟩ := canonical_mapping_iff.mp canonical
      obtain ⟨own, hown, deeper⟩ := overridden_mapping_cons.mp h
      rw [at?_cons, get?_merge _ sorted, at?_cons, get?_mapping, get?_mapping, hown]
      cases hold : Table.find? inherited key with
      | none => rfl
      | some old => exact ih (canonical.value hown) (deeper old hold)
    · rw [same]

/-- The same as under one key, see `get?_merge`. -/
theorem at?_merge_of_not_overridden (canonical : child.Canonical) {path : List String}
    (h : ¬ Overridden parent child path) : (merge parent child).at? path =
      match child.at? path, parent.at? path with
      | none, inherited => inherited
      | some value, some inherited => some (merge inherited value)
      | some value, none => some value := by
  induction path generalizing parent child with
  | nil => simp
  | cons key path ih =>
    obtain ⟨inherited, entries, rfl, rfl⟩ | ⟨_, takes⟩ := mappings_or_merge_eq parent child
    · obtain ⟨sorted, _⟩ := canonical_mapping_iff.mp canonical
      rw [at?_cons, get?_merge _ sorted, at?_cons, at?_cons, get?_mapping, get?_mapping]
      cases hown : Table.find? entries key with
      | none => simp
      | some own =>
        cases hold : Table.find? inherited key with
        | none => exact absurd (overridden_mapping_cons.mpr ⟨own, hown, by simp [hold]⟩) h
        | some old =>
          refine ih (canonical.value hown) fun deeper => h ?_
          exact overridden_mapping_cons.mpr ⟨own, hown, by simpa [hold] using deeper⟩
    · exact absurd ⟨[], List.nil_prefix, takesOver_nil_iff.mpr takes⟩ h

/-- A value of the child with which it does not take over is a mapping, and so is
what the parent holds there. -/
theorem mappings_of_not_overridden {path : List String} (h : ¬ Overridden parent child path)
    (hvalue : child.at? path = some value) : ∃ inherited entries,
      parent.at? path = some (.mapping inherited) ∧ value = .mapping entries := by
  have both : parent.HoldsMapping path ∧ child.HoldsMapping path := by
    by_contra neither
    exact h ⟨path, List.prefix_rfl, by simp [hvalue], neither⟩
  obtain ⟨inherited, hinherited⟩ := holdsMapping_iff.mp both.1
  obtain ⟨entries, hentries⟩ := holdsMapping_iff.mp both.2
  exact ⟨inherited, entries, hinherited, Option.some.inj (hvalue.symm.trans hentries)⟩

/-- What a merge holds at every path, the empty one included. Every tree that is read
is canonical, see `canonical_of_readConfig`, and so is a merge of two of them. -/
theorem merge_at_every_path (canonical : child.Canonical) :
    (parent.Canonical → (merge parent child).Canonical) ∧ ∀ path,
      (Overridden parent child path → (merge parent child).at? path = child.at? path) ∧
      (¬ Overridden parent child path →
        (∀ value, child.at? path = some value → ∃ inherited entries,
          parent.at? path = some (.mapping inherited) ∧ value = .mapping entries ∧
            (merge parent child).at? path =
              some (merge (.mapping inherited) (.mapping entries))) ∧
        (child.at? path = none → (merge parent child).at? path = parent.at? path)) := by
  refine ⟨fun hparent => hparent.merge canonical, fun path => ?_⟩
  refine ⟨at?_merge_of_overridden canonical, fun h => ⟨fun value hvalue => ?_, fun absent => ?_⟩⟩
  · obtain ⟨inherited, entries, hinherited, rfl⟩ := mappings_of_not_overridden h hvalue
    refine ⟨inherited, entries, hinherited, rfl, ?_⟩
    rw [at?_merge_of_not_overridden canonical h, hvalue, hinherited]
  · rw [at?_merge_of_not_overridden canonical h, absent]

/-! ### A legend over another one

The value at one path is replaced, at another it is kept, and a list is replaced as a
whole. -/

def olderLegend : Tree := .mapping [
  ("legend", .mapping [
    ("labels", .mapping [("low", .text "dry")]),
    ("ticks", .list [.number (.whole 0), .number (.whole 1)])]),
  ("title", .text "Moisture")]

def newerLegend : Tree := .mapping [
  ("legend", .mapping [
    ("labels", .mapping [("high", .text "wet")]),
    ("ticks", .list [.number (.whole 2)])]),
  ("title", .null)]

theorem merge_at_every_path_legend :
    newerLegend.Canonical ∧ (merge olderLegend newerLegend).Canonical ∧
      (merge olderLegend newerLegend).at? ["title"] = some .null ∧
      (merge olderLegend newerLegend).at? ["legend", "ticks"] =
        some (.list [.number (.whole 2)]) ∧
      (merge olderLegend newerLegend).at? ["legend", "labels"] =
        some (.mapping [("high", .text "wet"), ("low", .text "dry")]) ∧
      (merge olderLegend newerLegend).at? ["legend", "labels", "low"] = some (.text "dry") := by
  have canonical : newerLegend.Canonical := by decide +kernel
  obtain ⟨merges, paths⟩ := @merge_at_every_path olderLegend newerLegend canonical
  refine ⟨canonical, merges (by decide +kernel), ?_, ?_, ?_, ?_⟩
  · exact (paths ["title"]).1 (by decide +kernel)
  · exact (paths ["legend", "ticks"]).1 (by decide +kernel)
  · obtain ⟨inherited, entries, hinherited, hentries, merged⟩ :=
      ((paths ["legend", "labels"]).2 (by decide +kernel)).1 _ rfl
    cases hinherited
    cases hentries
    exact merged
  · exact ((paths ["legend", "labels", "low"]).2 (by decide +kernel)).2 rfl

/-! ## Paths that a tree leaves open

For anything but a mapping the question is only whether the child gets in the way of
what the parent holds. -/

/-- The tree holds nothing at the path, and only mappings on the way there. -/
def LeavesOpen (tree : Tree) (path : List String) : Prop :=
  tree.at? path = none ∧ ∀ front value, front <+: path → front ≠ path →
    tree.at? front = some value → value.mapping?.isSome

theorem not_leavesOpen_nil (tree : Tree) : ¬ tree.LeavesOpen [] := by
  rintro ⟨absent, _⟩
  simp at absent

theorem LeavesOpen.mapping?_isSome {tree : Tree} {path : List String} (h : tree.LeavesOpen path) :
    tree.mapping?.isSome := by
  cases path with
  | nil => exact absurd h tree.not_leavesOpen_nil
  | cons key path => exact h.2 [] tree List.nil_prefix (by simp) (at?_nil tree)

theorem leavesOpen_mapping_cons {entries : Mapping} {key : String} {path : List String} :
    (Tree.mapping entries).LeavesOpen (key :: path) ↔
      ∀ value, Table.find? entries key = some value → value.LeavesOpen path := by
  constructor
  · rintro ⟨absent, mappings⟩ value hf
    rw [at?_cons, get?_mapping, hf] at absent
    refine ⟨absent, fun front inner hfront proper hinner => ?_⟩
    refine mappings (key :: front) inner ((List.prefix_cons_inj key).mpr hfront) ?_ ?_
    · simpa using proper
    · rw [at?_cons, get?_mapping, hf]
      exact hinner
  · intro h
    refine ⟨?_, fun front inner hfront proper hinner => ?_⟩
    · rw [at?_cons, get?_mapping]
      cases hf : Table.find? entries key with
      | none => rfl
      | some value => exact (h value hf).1
    · rcases List.prefix_cons_iff.mp hfront with rfl | ⟨front, rfl, hfront⟩
      · rw [at?_nil] at hinner
        cases hinner
        rfl
      · rw [at?_cons, get?_mapping] at hinner
        obtain ⟨value, hf, hinner⟩ := Option.bind_eq_some_iff.mp hinner
        exact (h value hf).2 front inner ((List.prefix_cons_inj key).mp hfront)
          (by simpa using proper) hinner

/-- Anything but a mapping is in a merge where the child holds it, or where the
parent holds it and the child leaves the path open. -/
theorem at?_merge_iff (canonical : child.Canonical) (leaf : value.mapping? = none)
    (path : List String) : (merge parent child).at? path = some value ↔
      child.at? path = some value ∨ child.LeavesOpen path ∧ parent.at? path = some value := by
  induction path generalizing parent child with
  | nil =>
    simp only [at?_nil, Option.some.injEq, not_leavesOpen_nil, false_and, or_false]
    cases hchild : child.mapping? with
    | none => rw [merge_of_not_mapping parent hchild]
    | some entries =>
      -- The merge and the child are mappings, the value is not.
      cases child with
      | mapping entries =>
        have merged := mapping?_merge_isSome parent entries
        constructor <;> rintro rfl
        · simp [leaf] at merged
        · cases leaf
      | _ => cases hchild
  | cons key path ih =>
    cases child with
    | mapping entries =>
      -- Only where both hold the key does the merge go on below it.
      obtain ⟨sorted, _⟩ := canonical_mapping_iff.mp canonical
      rw [at?_cons, get?_merge parent sorted, at?_cons, at?_cons, get?_mapping,
        leavesOpen_mapping_cons]
      cases hchild : Table.find? entries key with
      | none => simp
      | some own =>
        cases hparent : parent.get? key with
        | none => simp
        | some inherited => simpa using ih (canonical.value hchild)
    | _ =>
      -- The parent does not show through anything else.
      rw [merge_of_not_mapping parent rfl, or_iff_left]
      rintro ⟨opened, _⟩
      cases opened.mapping?_isSome

/-! ## Rows of trees

Induction from the last tree on. -/

/-- The value is held at the path by one of the trees, and all after it leave
the path open. -/
def HeldLast (trees : List Tree) (path : List String) (value : Tree) : Prop :=
  ∃ before tree after, trees = before ++ tree :: after ∧ tree.at? path = some value ∧
    ∀ later ∈ after, later.LeavesOpen path

theorem heldLast_singleton {tree : Tree} {path : List String} :
    HeldLast [tree] path value ↔ tree.at? path = some value := by
  constructor
  · rintro ⟨before, held, after, same, hvalue, _⟩
    obtain ⟨rfl, same⟩ | ⟨_, rfl, same⟩ := List.append_eq_cons_iff.mp same.symm
    · cases same
      exact hvalue
    · simp at same
  · intro hvalue
    exact ⟨[], tree, [], rfl, hvalue, by simp⟩

theorem heldLast_concat {trees : List Tree} {tree : Tree} {path : List String} :
    HeldLast (trees ++ [tree]) path value ↔
      tree.at? path = some value ∨ tree.LeavesOpen path ∧ HeldLast trees path value := by
  constructor
  · rintro ⟨before, held, after, same, hvalue, opened⟩
    rcases List.eq_nil_or_concat after with rfl | ⟨others, last, rfl⟩
    · obtain rfl := List.singleton_inj.mp (List.append_inj' same rfl).2
      exact .inl hvalue
    · have same : trees ++ [tree] = (before ++ held :: others) ++ [last] := by simpa using same
      obtain ⟨rfl, ends⟩ := List.append_inj' same rfl
      obtain rfl := List.singleton_inj.mp ends
      exact .inr ⟨opened tree (by simp),
        before, held, others, rfl, hvalue, fun later hm => opened later (by simp [hm])⟩
  · rintro (hvalue | ⟨hopen, before, held, after, rfl, hvalue, opened⟩)
    · exact ⟨trees, tree, [], rfl, hvalue, by simp⟩
    · refine ⟨before, held, after ++ [tree], by simp, hvalue, fun later hm => ?_⟩
      rcases List.mem_append.mp hm with hm | hm
      · exact opened later hm
      · cases List.mem_singleton.mp hm
        exact hopen

end MapConfig.Tree
