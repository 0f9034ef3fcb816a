import MapConfig.Proofs.Service.Inheritance

/-! The tree of layers. A position leads into it by one number for each level; the
order of a walk in depth, as layers are declared, is the order of positions as
words. The entries that loading collects are those at all positions that hold no
folder, each once and in this order. -/
namespace MapConfig

namespace Tree

/-! ## Positions

The specification of the walk: positions are words of numbers, and an entry stands at a
position whether or not the walk gets there. -/

/-- The entry at a position, whose numbers lead from `layers` to `layers`; the tree
itself is at the empty position. -/
def entryAt? : Tree → List Nat → Option Tree
  | tree, [] => some tree
  | tree, index :: position =>
    ((tree.get? "layers").bind Tree.list?).bind fun items =>
      items[index]?.bind fun item => item.entryAt? position

/-- The position holds the entry of a layer: it is no folder. -/
def LayerAt (tree : Tree) (position : List Nat) (entry : Tree) : Prop :=
  tree.entryAt? position = some entry ∧ entry.get? "layers" = none

theorem layerAt_nil {tree entry : Tree} :
    tree.LayerAt [] entry ↔ entry = tree ∧ tree.get? "layers" = none := by
  rw [LayerAt, entryAt?, Option.some.injEq, eq_comm]
  exact and_congr_right fun same => by rw [same]

theorem not_layerAt_cons {tree : Tree} (h : tree.get? "layers" = none) (index : Nat)
    (position : List Nat) (entry : Tree) : ¬ tree.LayerAt (index :: position) entry := by
  rintro ⟨found, -⟩
  rw [entryAt?, h] at found
  cases found

end Tree

/-! ## Positions in order

`InOrder` says that a list has what stands at the positions of a kind, each once and in
the order of words. It is put together along the tree: below one number, and for one
number after the other. -/

/-- What stands at the positions of a kind, each once and from the first to the last. -/
def InOrder (At : List Nat → Tree → Prop) (entries : List Tree) : Prop :=
  ∃ positions : List (List Nat), positions.Pairwise (· < ·) ∧
    (∀ position entry, At position entry → position ∈ positions) ∧
    List.Forall₂ At positions entries

namespace InOrder
variable {At Other : List Nat → Tree → Prop} {entries others : List Tree}

theorem nil (h : ∀ position entry, ¬ At position entry) : InOrder At [] :=
  ⟨[], .nil, fun position entry ha => (h position entry ha).elim, .nil⟩

theorem single {position : List Nat} {entry : Tree} (here : At position entry)
    (only : ∀ other entry, At other entry → other = position) : InOrder At [entry] :=
  ⟨[position], List.pairwise_singleton .., fun other entry ha =>
    List.mem_singleton.mpr (only other entry ha), .cons here .nil⟩

theorem congr (h : InOrder At entries)
    (same : ∀ position entry, Other position entry ↔ At position entry) :
    InOrder Other entries := by
  obtain ⟨positions, ascending, all, corresponds⟩ := h
  exact ⟨positions, ascending, fun position entry ha => all _ _ ((same _ _).mp ha),
    corresponds.imp fun _ _ => (same _ _).mpr⟩

theorem below (h : InOrder At entries) (index : Nat) :
    InOrder (fun position entry => ∃ rest, position = index :: rest ∧ At rest entry) entries := by
  obtain ⟨positions, ascending, all, corresponds⟩ := h
  refine ⟨positions.map (index :: ·), ?_, ?_, ?_⟩
  · refine List.pairwise_map.mpr (ascending.imp fun less => ?_)
    exact List.cons_lt_cons_iff.mpr (.inr ⟨rfl, less⟩)
  · rintro _ entry ⟨rest, rfl, ha⟩
    exact List.mem_map_of_mem (all rest entry ha)
  · exact List.forall₂_map_left_iff.mpr (corresponds.imp fun rest _ ha => ⟨rest, rfl, ha⟩)

theorem append (h : InOrder At entries) (h' : InOrder Other others)
    (before : ∀ position entry position' entry', At position entry → Other position' entry' →
      position < position') :
    InOrder (fun position entry => At position entry ∨ Other position entry)
      (entries ++ others) := by
  obtain ⟨positions, ascending, all, corresponds⟩ := h
  obtain ⟨positions', ascending', all', corresponds'⟩ := h'
  refine ⟨positions ++ positions', ?_, ?_, ?_⟩
  · refine List.pairwise_append.mpr ⟨ascending, ascending', fun position hm position' hm' => ?_⟩
    obtain ⟨entry, _, ha⟩ := exists_mem_of_forall₂ corresponds hm
    obtain ⟨entry', _, ha'⟩ := exists_mem_of_forall₂ corresponds' hm'
    exact before position entry position' entry' ha ha'
  · rintro position entry (ha | ha)
    · exact List.mem_append_left _ (all position entry ha)
    · exact List.mem_append_right _ (all' position entry ha)
  · exact List.rel_append (corresponds.imp fun _ _ => .inl) (corresponds'.imp fun _ _ => .inr)

end InOrder

/-! ## The walk through the tree

A simultaneous induction along the three functions of the walk. -/

namespace Service

/-- A layer stands at or below one of the items, which are numbered from `first`. -/
def ItemAt (first : Nat) (items : List Tree) (position : List Nat) (entry : Tree) : Prop :=
  ∃ index rest item, position = (first + index) :: rest ∧ items[index]? = some item ∧
    item.LayerAt rest entry

theorem itemAt_cons {first : Nat} {item : Tree} {items : List Tree} {position : List Nat}
    {entry : Tree} : ItemAt first (item :: items) position entry ↔
      (∃ rest, position = first :: rest ∧ item.LayerAt rest entry) ∨
        ItemAt (first + 1) items position entry := by
  constructor
  · rintro ⟨index, rest, found, rfl, hfound, ha⟩
    cases index with
    | zero =>
      cases hfound
      exact .inl ⟨rest, rfl, ha⟩
    | succ index =>
      exact .inr ⟨index, rest, found, by rw [Nat.add_assoc, Nat.add_comm 1], hfound, ha⟩
  · rintro (⟨rest, rfl, ha⟩ | ⟨index, rest, found, rfl, hfound, ha⟩)
    · exact ⟨0, rest, item, rfl, rfl, ha⟩
    · exact ⟨index + 1, rest, found, by rw [Nat.add_assoc, Nat.add_comm 1], hfound, ha⟩

/-- A position in a folder leads to one of its items. -/
theorem layerAt_cons_iff {tree : Tree} {items : List Tree}
    (h : tree.get? "layers" = some (.list items)) {position : List Nat} {entry : Tree} :
    position ≠ [] ∧ tree.LayerAt position entry ↔ ItemAt 0 items position entry := by
  cases position with
  | nil => simp [ItemAt]
  | cons index rest =>
    simp [ItemAt, Tree.LayerAt, Tree.entryAt?, h, Tree.list?, Option.bind_eq_some_iff,
      ← and_assoc]

mutual

/-- The entries collected from a list of layers are those at its positions, in order. -/
theorem inOrder_of_collectLayers {tree : Tree} {entries : List Tree}
    (h : collectLayers tree = .ok entries) :
    ∃ items, tree = .list items ∧ InOrder (ItemAt 0 items) entries := by
  cases tree with
  | list items =>
    exact ⟨items, rfl, inOrder_of_collectItems (by simpa [collectLayers] using h) 0⟩
  | _ => simp [collectLayers] at h

theorem inOrder_of_collectItems {items entries : List Tree} (h : collectItems items = .ok entries)
    (first : Nat) : InOrder (ItemAt first items) entries := by
  match items with
  | [] =>
    cases h
    exact .nil (by simp [ItemAt])
  | .mapping settings :: rest =>
    rw [collectItems] at h
    obtain ⟨here, hhere, h⟩ := bind_ok_iff.mp h
    obtain ⟨others, hothers, h⟩ := bind_ok_iff.mp h
    cases h
    have item := (inOrder_of_collectEntry hhere rfl).below first
    refine (item.append (inOrder_of_collectItems hothers (first + 1)) ?_).congr
      fun position entry => itemAt_cons
    -- Positions in the first item come before those in the items after it.
    rintro _ _ _ _ ⟨below, rfl, -⟩ ⟨index, below', item, rfl, -⟩
    exact List.cons_lt_cons_iff.mpr (.inl (by omega))
  | .null :: _ | .bool _ :: _ | .number _ :: _ | .text _ :: _ | .list _ :: _ => cases h

theorem inOrder_of_collectEntry {item : Tree} {named : Bool} {settings : List (String × Tree)}
    {entries : List Tree} (h : collectEntry item named settings = .ok entries)
    (remaining : item.get? "layers" = Table.find? settings "layers") :
    InOrder item.LayerAt entries := by
  match settings with
  | [] =>
    cases h
    refine .single (Tree.layerAt_nil.mpr ⟨rfl, remaining⟩) ?_
    intro position entry ha
    cases position with
    | nil => rfl
    | cons index rest => exact (Tree.not_layerAt_cons remaining index rest entry ha).elim
  | (key, value) :: rest =>
    rw [collectEntry] at h
    rw [Table.find?] at remaining
    split at h
    -- The key is that of the layers below: the positions go on through its list.
    · next hkey =>
      rw [if_pos hkey] at remaining
      split at h
      · cases h
      · obtain ⟨items, rfl, inOrder⟩ := inOrder_of_collectLayers h
        refine inOrder.congr fun position entry => ?_
        rw [← layerAt_cons_iff remaining, and_iff_right_of_imp]
        rintro ha rfl
        cases remaining.symm.trans (Tree.layerAt_nil.mp ha).2
    · next hkey =>
      rw [if_neg hkey] at remaining
      exact inOrder_of_collectEntry h remaining

end

/-- The entries of a configuration are those at all positions in its tree of layers. -/
theorem inOrder_of_entriesOf {raw : Tree} {entries : List Tree} (h : entriesOf raw = .ok entries) :
    InOrder (fun position entry => position ≠ [] ∧ raw.LayerAt position entry) entries := by
  unfold entriesOf at h
  cases hlayers : raw.get? "layers" with
  | none =>
    rw [hlayers] at h
    cases h
    refine .nil fun position entry ha => ?_
    obtain ⟨index, rest, rfl⟩ := List.exists_cons_of_ne_nil ha.1
    exact Tree.not_layerAt_cons hlayers index rest entry ha.2
  | some layers =>
    rw [hlayers] at h
    obtain ⟨items, rfl, inOrder⟩ := inOrder_of_collectLayers h
    exact inOrder.congr fun position entry => layerAt_cons_iff hlayers

end Service

end MapConfig
