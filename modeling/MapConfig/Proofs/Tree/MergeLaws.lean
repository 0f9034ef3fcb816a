import MapConfig.Proofs.Tree.Merge

/-! Merging more than two trees. A child merged once more changes nothing, and a tree
merged over itself stays as it is. How three trees are grouped matters only where the
middle one holds something other than a mapping between two mappings: merged from the
left it cuts off what the first one holds there, merged from the right it is itself
replaced before it meets the first one. -/
namespace MapConfig.Tree
variable {tree other parent child first middle last value : Tree} {key : String}
  {path : List String}

/-! ## One key at a time

Two canonical mappings are equal if they hold the same under every key. So the laws are
proved under a key and lifted to mappings; the induction is on the trees. -/

theorem exists_mapping (h : tree.mapping?.isSome) : ∃ entries, tree = .mapping entries := by
  cases tree with
  | mapping entries => exact ⟨entries, rfl⟩
  | _ => cases h

/-- Canonical mappings have no other content than what they hold under their keys. -/
theorem eq_of_get?_eq (canonical : tree.Canonical) (canonical' : other.Canonical)
    (mapping : tree.mapping?.isSome) (mapping' : other.mapping?.isSome)
    (same : ∀ key, tree.get? key = other.get? key) : tree = other := by
  obtain ⟨entries, rfl⟩ := exists_mapping mapping
  obtain ⟨entries', rfl⟩ := exists_mapping mapping'
  obtain ⟨sorted, _⟩ := canonical_mapping_iff.mp canonical
  obtain ⟨sorted', _⟩ := canonical_mapping_iff.mp canonical'
  rw [Table.eq_of_find?_eq sorted sorted' same]

theorem merge_of_not_mapping_parent (h : parent.mapping? = none) (child : Tree) :
    merge parent child = child := by
  obtain ⟨_, _, rfl, _⟩ | ⟨same, _⟩ := mappings_or_merge_eq parent child
  · cases h
  · exact same

theorem mapping?_merge_isSome_of_child (parent : Tree) (h : child.mapping?.isSome) :
    (merge parent child).mapping?.isSome := by
  obtain ⟨entries, rfl⟩ := exists_mapping h
  exact mapping?_merge_isSome parent entries

/-- What a merge holds under a key of its own, see `get?_merge`. -/
theorem get?_merge_of_canonical (parent : Tree) (canonical : child.Canonical)
    (mapping : child.mapping?.isSome) (key : String) : (merge parent child).get? key =
      match child.get? key, parent.get? key with
      | none, inherited => inherited
      | some value, some inherited => some (merge inherited value)
      | some value, none => some value := by
  obtain ⟨entries, rfl⟩ := exists_mapping mapping
  exact get?_merge parent (canonical_mapping_iff.mp canonical).1 key

/-! ## The same tree again

Every key of the child is one of the merge, with the merged value. -/

theorem merge_self (canonical : tree.Canonical) : merge tree tree = tree := by
  induction tree using inductionOnParts with
  | scalar tree scalar => exact merge_of_not_mapping tree scalar.2
  | list items _ => exact merge_of_not_mapping _ rfl
  | mapping entries ih =>
    refine eq_of_get?_eq (canonical.merge canonical) canonical
      (mapping?_merge_isSome _ entries) rfl fun key => ?_
    rw [get?_merge_of_canonical _ canonical rfl, get?_mapping]
    cases found : Table.find? entries key with
    | none => rfl
    | some value =>
      have unchanged := ih _ (Table.mem_of_find? found) (canonical.value found)
      simp [unchanged]

theorem merge_merge_self (hparent : parent.Canonical) (hchild : child.Canonical) :
    merge (merge parent child) child = merge parent child := by
  induction child using inductionOnParts generalizing parent with
  | scalar child scalar =>
    rw [merge_of_not_mapping _ scalar.2, merge_of_not_mapping _ scalar.2]
  | list items _ => rw [merge_of_not_mapping _ rfl, merge_of_not_mapping _ rfl]
  | mapping entries ih =>
    have merged := hparent.merge hchild
    refine eq_of_get?_eq (merged.merge hchild) merged
      (mapping?_merge_isSome _ entries) (mapping?_merge_isSome _ entries) fun key => ?_
    rw [get?_merge_of_canonical _ hchild rfl, get?_merge_of_canonical _ hchild rfl, get?_mapping]
    cases own : Table.find? entries key with
    | none => rfl
    | some value =>
      -- Under a key that the parent lacks the child has been merged over itself.
      cases old : parent.get? key with
      | none => simp [merge_self (hchild.value own)]
      | some inherited =>
        have again := ih _ (Table.mem_of_find? own) (hparent.get? old) (hchild.value own)
        simp [again]

/-! ## Three trees

The induction goes over the three trees at once, and the condition descends with it: a
cut below a common key is one of the whole. -/

/-- The first and the last tree hold mappings at the path, and the middle one holds
something else. -/
def CutsOff (first middle last : Tree) (path : List String) : Prop :=
  first.HoldsMapping path ∧ last.HoldsMapping path ∧
    (middle.at? path).isSome ∧ ¬ middle.HoldsMapping path

theorem holdsMapping_nil : tree.HoldsMapping [] ↔ tree.mapping?.isSome := by
  simp [HoldsMapping]

theorem holdsMapping_cons (found : tree.get? key = some value) :
    tree.HoldsMapping (key :: path) ↔ value.HoldsMapping path := by
  simp [HoldsMapping, at?_cons, found]

theorem exists_of_holdsMapping_cons (h : tree.HoldsMapping (key :: path)) :
    ∃ value, tree.get? key = some value := by
  obtain ⟨entries, found⟩ := holdsMapping_iff.mp h
  rw [at?_cons] at found
  exact (Option.bind_eq_some_iff.mp found).imp fun _ => And.left

/-- A cut below a key is one of what the three trees hold under the key. -/
theorem cutsOff_cons_iff : CutsOff first middle last (key :: path) ↔
    ∃ old own new, first.get? key = some old ∧ middle.get? key = some own ∧
      last.get? key = some new ∧ CutsOff old own new path := by
  constructor
  · rintro ⟨before, after, holds, other⟩
    obtain ⟨old, hfirst⟩ := exists_of_holdsMapping_cons before
    obtain ⟨new, hlast⟩ := exists_of_holdsMapping_cons after
    cases hmiddle : middle.get? key with
    | none => simp [at?_cons, hmiddle] at holds
    | some own =>
      refine ⟨old, own, new, hfirst, rfl, hlast, ?_⟩
      rw [holdsMapping_cons hfirst] at before
      rw [holdsMapping_cons hlast] at after
      rw [at?_cons, hmiddle] at holds
      rw [holdsMapping_cons hmiddle] at other
      exact ⟨before, after, holds, other⟩
  · rintro ⟨old, own, new, hfirst, hmiddle, hlast, before, after, holds, other⟩
    refine ⟨(holdsMapping_cons hfirst).mpr before, (holdsMapping_cons hlast).mpr after, ?_, ?_⟩
    · rw [at?_cons, hmiddle]
      exact holds
    · rwa [holdsMapping_cons hmiddle]

theorem not_cutsOff_of_not_mapping (h : first.mapping? = none) (path : List String) :
    ¬ CutsOff first middle last path := by
  rintro ⟨before, _⟩
  cases path with
  | nil => simp [holdsMapping_nil, h] at before
  | cons key path =>
    obtain ⟨value, found⟩ := exists_of_holdsMapping_cons before
    simp [get?, h] at found

/-- Mappings are uncut where what they hold under common keys is. -/
theorem not_cutsOff_mappings {old own new : Mapping}
    (below : ∀ key value before after, (key, value) ∈ own → Table.find? old key = some before →
      Table.find? new key = some after → ∀ path, ¬ CutsOff before value after path)
    (path : List String) : ¬ CutsOff (.mapping old) (.mapping own) (.mapping new) path := by
  intro cut
  cases path with
  | nil => exact cut.2.2.2 (holdsMapping_nil.mpr rfl)
  | cons key path =>
    obtain ⟨before, value, after, hfirst, hmiddle, hlast, cut⟩ := cutsOff_cons_iff.mp cut
    exact below key value before after (Table.mem_of_find? hmiddle) hfirst hlast path cut

theorem merge_assoc (hfirst : first.Canonical) (hmiddle : middle.Canonical)
    (hlast : last.Canonical) (uncut : ∀ path, ¬ CutsOff first middle last path) :
    merge (merge first middle) last = merge first (merge middle last) := by
  induction last using inductionOnParts generalizing first middle with
  | scalar last scalar => simp only [merge_of_not_mapping _ scalar.2]
  | list items _ =>
    have plain : (Tree.list items).mapping? = none := rfl
    simp only [merge_of_not_mapping _ plain]
  | mapping entries ih =>
    cases mapped : middle.mapping? with
    | none =>
      -- The middle tree would cut the first one off at the root, so that is no mapping.
      have replaced : first.mapping? = none := by
        by_contra holds
        refine uncut [] ⟨holdsMapping_nil.mpr ?_, holdsMapping_nil.mpr rfl, by simp, ?_⟩
        · exact Option.isSome_iff_ne_none.mpr holds
        · simp [holdsMapping_nil, mapped]
      rw [merge_of_not_mapping_parent replaced, merge_of_not_mapping_parent replaced]
    | some own =>
      have mapping : middle.mapping?.isSome := by simp [mapped]
      have merged := hmiddle.merge hlast
      refine eq_of_get?_eq ((hfirst.merge hmiddle).merge hlast) (hfirst.merge merged)
        (mapping?_merge_isSome _ entries)
        (mapping?_merge_isSome_of_child _ (mapping?_merge_isSome _ entries)) fun key => ?_
      rw [get?_merge_of_canonical _ hlast rfl, get?_merge_of_canonical _ hmiddle mapping,
        get?_merge_of_canonical _ merged (mapping?_merge_isSome _ entries),
        get?_merge_of_canonical _ hlast rfl, get?_mapping]
      cases new : Table.find? entries key with
      | none => simp
      | some value =>
        cases inner : middle.get? key with
        | none => cases first.get? key <;> simp
        | some own =>
          cases old : first.get? key with
          | none => simp
          | some inherited =>
            -- Only where all three hold the key are there three values to group.
            have grouped := ih _ (Table.mem_of_find? new) (hfirst.get? old) (hmiddle.get? inner)
              (hlast.value new) fun path cut =>
                uncut (key :: path) (cutsOff_cons_iff.mpr ⟨_, _, _, old, inner, new, cut⟩)
            simp [grouped]

/-- Merging the same tree again changes nothing, and three trees may be grouped either
way unless the middle one cuts the first one off from the last. Every tree that is read
is canonical, see `canonical_of_readConfig`. -/
theorem merge_again_and_grouped (hfirst : first.Canonical) (hmiddle : middle.Canonical)
    (hlast : last.Canonical) :
    merge (merge first middle) middle = merge first middle ∧
      merge first first = first ∧
      ((∀ path, ¬ CutsOff first middle last path) →
        merge (merge first middle) last = merge first (merge middle last)) :=
  ⟨merge_merge_self hfirst hmiddle, merge_self hfirst, merge_assoc hfirst hmiddle hlast⟩

/-! ### A third legend -/

/-- Over the two legends: a title where they hold a text and a null. -/
def newestLegend : Tree := .mapping [
  ("legend", .mapping [("labels", .mapping [("low", .text "parched")])]),
  ("title", .mapping [("en", .text "Wetness")])]

theorem not_cutsOff_legends : ∀ path, ¬ CutsOff olderLegend newerLegend newestLegend path := by
  refine not_cutsOff_mappings fun key own before after hm holder hnewest => ?_
  rcases List.mem_pair.mp hm with same | same <;> cases same
  · cases holder
    cases hnewest
    refine not_cutsOff_mappings fun key own before after hm holder hnewest => ?_
    rcases List.mem_pair.mp hm with same | same <;> cases same
    · cases holder
      cases hnewest
      refine not_cutsOff_mappings fun key own before after hm holder _ => ?_
      cases List.mem_singleton.mp hm
      cases holder
    · cases hnewest
  · cases holder
    exact not_cutsOff_of_not_mapping rfl

theorem merge_again_and_grouped_legends :
    olderLegend.Canonical ∧ newerLegend.Canonical ∧ newestLegend.Canonical ∧
      merge (merge olderLegend newerLegend) newerLegend = merge olderLegend newerLegend ∧
      merge olderLegend olderLegend = olderLegend ∧
      (∀ path, ¬ CutsOff olderLegend newerLegend newestLegend path) ∧
      merge (merge olderLegend newerLegend) newestLegend =
        merge olderLegend (merge newerLegend newestLegend) := by
  have older : olderLegend.Canonical := by decide +kernel
  have newer : newerLegend.Canonical := by decide +kernel
  have newest : newestLegend.Canonical := by decide +kernel
  obtain ⟨again, itself, grouped⟩ := merge_again_and_grouped older newer newest
  exact ⟨older, newer, newest, again, itself, not_cutsOff_legends, grouped not_cutsOff_legends⟩

/-- A null between two mappings cuts the first one off only if it is merged first. -/
example : (merge (merge olderLegend (.mapping [("legend", .null)])) newestLegend).same
    (merge olderLegend (merge (.mapping [("legend", .null)]) newestLegend)) = false := by
  decide +kernel

end MapConfig.Tree
