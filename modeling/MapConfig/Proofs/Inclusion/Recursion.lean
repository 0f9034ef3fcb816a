import MapConfig.Inclusion
import MapConfig.Proofs.Document
import Mathlib.Data.Finset.Card
import Mathlib.Data.Prod.Lex

/-! The recursion of the expansion. A call works on a node, a location and the
chain above the node; `CalledBy` relates it to the calls that it makes, and
goes down without end nowhere. The depth that `expand` allows is therefore
always enough, so that `expand` satisfies the equations of that recursion. -/
namespace MapConfig

/-! ## Replacing the inclusions of a tree

The walk over one tree, with what it puts in the place of an inclusion left open. It is
determined by what it puts at the inclusions that it meets, `Includes`. -/

namespace Tree

/-- The mappings of a tree that its expansion replaces, with what they include:
those below another one are no longer there. -/
inductive Includes : Tree → Mapping → Tree → Prop where
  | here {entries : Mapping} {target : Tree} (h : Table.find? entries "include" = some target) :
      Includes (.mapping entries) entries target
  | item {items : List Tree} {item : Tree} {directive : Mapping} {target : Tree}
      (hm : item ∈ items) (h : Includes item directive target) :
      Includes (.list items) directive target
  | entry {entries : Mapping} {entry : String × Tree} {directive : Mapping} {target : Tree}
      (plain : Table.find? entries "include" = none) (hm : entry ∈ entries)
      (h : Includes entry.2 directive target) : Includes (.mapping entries) directive target

variable (f : Mapping → Tree → Except ConfigError Tree)

theorem replaceIncludes_scalar {tree : Tree} (h : tree.IsScalar) :
    tree.replaceIncludes f = .ok tree := by
  obtain ⟨hlist, hmapping⟩ := h
  cases tree with
  | list => cases hlist
  | mapping => cases hmapping
  | null | bool | number | text => rfl

theorem replaceIncludes_list (items : List Tree) :
    replaceIncludes f (.list items) = .list <$> items.mapM (replaceIncludes f) := by
  have items_eq : replaceIncludesItems f items = items.mapM (replaceIncludes f) := by
    induction items with
    | nil => rfl
    | cons item rest ih => rw [replaceIncludesItems, List.mapM_cons, ih]
  rw [replaceIncludes, items_eq]

theorem replaceIncludes_plain {entries : Mapping} (h : Table.find? entries "include" = none) :
    replaceIncludes f (.mapping entries) = .mapping <$> entries.mapM fun entry => do
      return (entry.1, ← replaceIncludes f entry.2) := by
  have entries_eq : ∀ rest : List (String × Tree), replaceIncludesEntries f rest =
      rest.mapM fun entry => do return (entry.1, ← replaceIncludes f entry.2) := by
    intro rest
    induction rest with
    | nil => rfl
    | cons entry rest ih =>
      rw [replaceIncludesEntries, List.mapM_cons, ih, bind_assoc]
      rfl
  rw [replaceIncludes, h]
  show mapping <$> replaceIncludesEntries f entries = _
  rw [entries_eq]

theorem replaceIncludes_include {entries : Mapping} {target : Tree}
    (h : Table.find? entries "include" = some target) :
    replaceIncludes f (.mapping entries) = f entries target := by
  rw [replaceIncludes, h]

/-- Only what is put in the place of an inclusion matters. -/
theorem replaceIncludes_congr {f g : Mapping → Tree → Except ConfigError Tree} {tree : Tree}
    (h : ∀ directive target, tree.Includes directive target →
      f directive target = g directive target) :
    tree.replaceIncludes f = tree.replaceIncludes g := by
  induction tree using inductionOnParts with
  | scalar tree hs => rw [replaceIncludes_scalar f hs, replaceIncludes_scalar g hs]
  | list items ih =>
    rw [replaceIncludes_list, replaceIncludes_list]
    exact congrArg _ (mapM_congr fun item hm => ih item hm fun d t hi => h d t (.item hm hi))
  | mapping entries ih =>
    cases hf : Table.find? entries "include" with
    | some target =>
      rw [replaceIncludes_include f hf, replaceIncludes_include g hf]
      exact h entries target (.here hf)
    | none =>
      rw [replaceIncludes_plain f hf, replaceIncludes_plain g hf]
      refine congrArg _ (mapM_congr fun entry hm => ?_)
      rw [ih entry hm fun d t hi => h d t (.entry hf hm hi)]

/-! ## The strings that a tree includes

Whatever is included is one of the finitely many documents and objects of the world, so
all strings that a run can ever meet are known before it starts: `targetsFrom` of the
first tree. -/

theorem includeTargets_item {items : List Tree} {item : Tree} (h : item ∈ items) :
    item.includeTargets ⊆ (Tree.list items).includeTargets := by
  have sub : item.includeTargets ⊆ includeTargetsItems items := by
    induction items with
    | nil => cases h
    | cons first rest ih =>
      rw [includeTargetsItems]
      rcases List.mem_cons.mp h with rfl | h
      · exact List.subset_append_left _ _
      · exact List.subset_append_of_subset_right _ (ih h)
  rw [includeTargets]
  exact sub

theorem includeTargets_entry {entries : Mapping} {entry : String × Tree} (h : entry ∈ entries) :
    entry.2.includeTargets ⊆ (Tree.mapping entries).includeTargets := by
  have sub : ∀ rest : List (String × Tree), entry ∈ rest →
      entry.2.includeTargets ⊆ includeTargetsEntries rest := by
    intro rest hm
    induction rest with
    | nil => cases hm
    | cons first rest ih =>
      rw [includeTargetsEntries]
      rcases List.mem_cons.mp hm with rfl | hm
      · exact List.subset_append_left _ _
      · exact List.subset_append_of_subset_right _ (ih hm)
  rw [includeTargets]
  exact List.subset_append_of_subset_right _ (sub entries h)

theorem Includes.mem_includeTargets {tree : Tree} {directive : Mapping} {target : String}
    (h : tree.Includes directive (.text target)) : target ∈ tree.includeTargets := by
  generalize hs : Tree.text target = included at h
  induction h with
  | here h =>
    subst hs
    simp [includeTargets, h, text?]
  | item hm _ ih => exact includeTargets_item hm (ih hs)
  | entry _ hm _ ih => exact includeTargets_entry hm (ih hs)

end Tree

/-- What is found under a name is one of the host objects. -/
theorem Objects.mem_of_resolve {α : Type} {objects : Objects α} {name : String} {value : α}
    (h : objects.resolve name = .ok value) : (name, value) ∈ objects.entries := by
  unfold resolve at h
  split at h
  · next found =>
    cases h
    exact Table.mem_of_find? found
  · cases h

namespace Inclusion
variable (w : World)

/-- The strings that documents and objects include. -/
def World.targets : List String :=
  (w.library.trees ++ w.objects.entries.map Prod.snd).flatMap Tree.includeTargets

/-- The strings that a tree, the documents and the objects include. -/
def targetsFrom (tree : Tree) : Finset String :=
  (tree.includeTargets ++ w.targets).toFinset

variable {w}

/-- Whichever of the two references is loaded, it leads to a document of the library. -/
theorem load_of_document {target : String} {location : Location} {doc : DocumentRef} {tree : Tree}
    (h : document w target location = .ok (doc, tree)) : w.library.load doc = .ok tree := by
  obtain ⟨direct, -, h⟩ := bind_ok_iff.mp h
  split at h
  · next loaded =>
    cases h
    exact loaded
  · obtain ⟨relative, -, h⟩ := bind_ok_iff.mp h
    split at h
    · next loaded =>
      cases h
      exact loaded
    · cases h

/-- What is included is a document or an object of the world. -/
theorem tree_mem_of_content {source : Source} {target : String} {location : Location}
    {inner : Content} (h : content w source target location = .ok inner) :
    inner.tree ∈ w.library.trees ++ w.objects.entries.map Prod.snd := by
  cases source with
  | object =>
    obtain ⟨tree, resolved, h⟩ := bind_ok_iff.mp h
    cases h
    exact List.mem_append_right _ (List.mem_map_of_mem (Objects.mem_of_resolve resolved))
  | document =>
    obtain ⟨⟨doc, tree⟩, found, h⟩ := bind_ok_iff.mp h
    simp only at h
    split at h
    · cases h
      exact List.mem_append_left _ (Library.mem_trees_of_load (load_of_document found))
    · cases h

theorem targetsFrom_subset_of_content {source : Source} {target : String} {location : Location}
    {inner : Content} (h : content w source target location = .ok inner) (tree : Tree) :
    targetsFrom w inner.tree ⊆ targetsFrom w tree := by
  intro name hname
  simp only [targetsFrom, List.mem_toFinset, List.mem_append] at hname ⊢
  right
  rcases hname with hname | hname
  · exact List.mem_flatMap.mpr ⟨inner.tree, tree_mem_of_content h, hname⟩
  · exact hname

/-! ## Calls

An inclusion moves one string of this set to the chain, and any other call goes to a
smaller node. The two are ordered lexicographically, so the calls form a well-founded
relation. -/

variable (w)

/-- What one call of the expansion works on. -/
structure Call where
  tree : Tree
  location : Location
  chain : List String

/-- One call makes another: on a part of its node, or on what an inclusion at
its node brings in, unless that stands on the chain. -/
inductive CalledBy : Call → Call → Prop where
  | item {items : List Tree} {item : Tree} {location : Location} {chain : List String}
      (hm : item ∈ items) : CalledBy ⟨item, location, chain⟩ ⟨.list items, location, chain⟩
  | entry {entries : Mapping} {entry : String × Tree} {location : Location} {chain : List String}
      (plain : Table.find? entries "include" = none) (hm : entry ∈ entries) :
      CalledBy ⟨entry.2, location, chain⟩ ⟨.mapping entries, location, chain⟩
  | content {entries : Mapping} {target : String} {location : Location} {chain : List String}
      {kind : Source} {inner : Content}
      (found : Table.find? entries "include" = some (.text target)) (fresh : target ∉ chain)
      (hkind : source entries = .ok kind) (hinner : content w kind target location = .ok inner) :
      CalledBy ⟨inner.tree, inner.location, chain ++ [target]⟩ ⟨.mapping entries, location, chain⟩

/-- The strings that can still be included below a call. -/
def Call.fresh (call : Call) : Finset String := targetsFrom w call.tree \ call.chain.toFinset

variable {w}

theorem fresh_subset_of_targets {tree part : Tree} (h : part.includeTargets ⊆ tree.includeTargets)
    (location : Location) (chain : List String) :
    Call.fresh w ⟨part, location, chain⟩ ⊆ Call.fresh w ⟨tree, location, chain⟩ := by
  intro name hname
  simp only [Call.fresh, targetsFrom, Finset.mem_sdiff, List.mem_toFinset,
    List.mem_append] at hname ⊢
  exact ⟨hname.1.imp_left fun hm => h hm, hname.2⟩

/-- An inclusion uses up a string. -/
theorem fresh_ssubset_of_content {tree : Tree} {target : String} {location : Location}
    {chain : List String} {kind : Source} {inner : Content}
    (hm : target ∈ tree.includeTargets) (fresh : target ∉ chain)
    (hinner : content w kind target location = .ok inner) :
    Call.fresh w ⟨inner.tree, inner.location, chain ++ [target]⟩ ⊂
      Call.fresh w ⟨tree, location, chain⟩ := by
  refine Finset.ssubset_iff_subset_ne.mpr ⟨?_, ?_⟩
  · intro name hname
    simp only [Call.fresh, Finset.mem_sdiff, List.mem_toFinset, List.mem_append,
      not_or] at hname ⊢
    exact ⟨targetsFrom_subset_of_content hinner tree hname.1, hname.2.1⟩
  · intro heq
    have outer : target ∈ Call.fresh w ⟨tree, location, chain⟩ := by
      simp [Call.fresh, targetsFrom, hm, fresh]
    rw [← heq] at outer
    simp [Call.fresh] at outer

/-- Either a string is used up, or the node gets smaller. -/
theorem CalledBy.decreases {inner outer : Call} (h : CalledBy w inner outer) :
    Prod.Lex (· < ·) (· < ·) ((inner.fresh w).card, sizeOf inner.tree)
      ((outer.fresh w).card, sizeOf outer.tree) := by
  -- A part of the node includes no string that the node does not include.
  have part {tree part : Tree} {location : Location} {chain : List String}
      (sub : part.includeTargets ⊆ tree.includeTargets) (size : sizeOf part < sizeOf tree) :
      Prod.Lex (· < ·) (· < ·) ((Call.fresh w ⟨part, location, chain⟩).card, sizeOf part)
        ((Call.fresh w ⟨tree, location, chain⟩).card, sizeOf tree) := by
    have hle := Finset.card_le_card (fresh_subset_of_targets (w := w) sub location chain)
    rcases Nat.lt_or_eq_of_le hle with hlt | heq
    · exact Prod.Lex.left _ _ hlt
    · rw [heq]
      exact Prod.Lex.right _ size
  cases h with
  | item hm => exact part (Tree.includeTargets_item hm) (Tree.sizeOf_item hm)
  | entry _ hm => exact part (Tree.includeTargets_entry hm) (Tree.sizeOf_entry hm)
  | content found fresh _ hinner =>
    have hm := (Tree.Includes.here found).mem_includeTargets
    exact Prod.Lex.left _ _ (Finset.card_lt_card (fresh_ssubset_of_content hm fresh hinner))

theorem calledBy_wellFounded (w : World) : WellFounded (CalledBy w) :=
  Subrelation.wf CalledBy.decreases
    (InvImage.wf (fun call : Call => ((call.fresh w).card, sizeOf call.tree))
      (WellFounded.prod_lex Nat.lt_wfRel.wf Nat.lt_wfRel.wf))

/-! ## The equations of the recursion

The depth is a bound on the strings that are left, and beyond that bound it changes
nothing (`expandWithin_stable`). So the depth can be dropped from the equations, which
then are those of the recursion on calls. -/

variable (w)

/-- What expands the contents of an inclusion when `depth` levels are left. -/
def deeper : Nat → Content → List String → Except ConfigError Tree
  | 0 => fun _ chain => .error (.cyclicInclusion (chain.getLastD ""))
  | depth + 1 => expandWithin w depth

theorem expandWithin_eq (depth : Nat) (outer : Content) (chain : List String) :
    expandWithin w depth outer chain =
      outer.tree.replaceIncludes (expandTarget w (deeper w depth) outer.location chain) := by
  cases depth <;> rfl

variable {w} {location : Location} {chain : List String}

theorem expandTarget_congr {inside inside' : Content → List String → Except ConfigError Tree}
    {directive : Mapping} {target : Tree}
    (h : ∀ name kind inner, target = .text name → name ∉ chain →
      content w kind name location = .ok inner →
      inside inner (chain ++ [name]) = inside' inner (chain ++ [name])) :
    expandTarget w inside location chain directive target =
      expandTarget w inside' location chain directive target := by
  cases target with
  | text name =>
    rw [expandTarget, expandTarget]
    split
    · rfl
    · next fresh =>
      cases hkind : source directive with
      | error => rfl
      | ok kind =>
        cases hinner : content w kind name location with
        | error e => simp [Bind.bind, Except.bind, hinner]
        | ok inner =>
          simpa [Bind.bind, Except.bind, hinner] using h name kind inner rfl fresh hinner
  | null | bool | number | list | mapping => rfl

/-- Beyond the number of strings that can still be included, depth changes
nothing. -/
theorem expandWithin_stable {outer : Content} {n m : Nat}
    (hn : (Call.fresh w ⟨outer.tree, outer.location, chain⟩).card ≤ n)
    (hm : (Call.fresh w ⟨outer.tree, outer.location, chain⟩).card ≤ m) :
    expandWithin w n outer chain = expandWithin w m outer chain := by
  induction hk : (Call.fresh w ⟨outer.tree, outer.location, chain⟩).card using Nat.strongRecOn
    generalizing n m outer chain with
  | ind k ih =>
    rw [expandWithin_eq, expandWithin_eq]
    refine Tree.replaceIncludes_congr fun directive target hi => ?_
    refine expandTarget_congr fun name kind inner ht fresh hinner => ?_
    subst ht
    have hlt := Finset.card_lt_card (fresh_ssubset_of_content hi.mem_includeTargets fresh hinner)
    -- `name` can still be included here, so neither depth is used up.
    obtain ⟨n, rfl⟩ := Nat.exists_eq_succ_of_ne_zero (show n ≠ 0 by omega)
    obtain ⟨m, rfl⟩ := Nat.exists_eq_succ_of_ne_zero (show m ≠ 0 by omega)
    exact ih _ (by omega) (by omega) (by omega) rfl

theorem fresh_card_le_depthBound {tree part : Tree}
    (h : part.includeTargets ⊆ tree.includeTargets) :
    (Call.fresh w ⟨part, location, chain⟩).card ≤ depthBound w tree :=
  calc (Call.fresh w ⟨part, location, chain⟩).card
      ≤ (Call.fresh w ⟨tree, location, chain⟩).card :=
        Finset.card_le_card (fresh_subset_of_targets h location chain)
    _ ≤ (targetsFrom w tree).card := Finset.card_le_card Finset.sdiff_subset
    _ ≤ depthBound w tree := List.toFinset_card_le _

theorem expandWithin_eq_expand {tree : Tree} {depth : Nat}
    (h : (Call.fresh w ⟨tree, location, chain⟩).card ≤ depth) :
    expandWithin w depth ⟨tree, location⟩ chain = expand w tree location chain :=
  expandWithin_stable h (fresh_card_le_depthBound (List.Subset.refl _))

theorem expand_scalar {tree : Tree} (h : tree.IsScalar) :
    expand w tree location chain = .ok tree := by
  rw [expand, expandWithin_eq]
  exact Tree.replaceIncludes_scalar _ h

theorem expand_list (items : List Tree) :
    expand w (.list items) location chain =
      .list <$> items.mapM fun item => expand w item location chain := by
  rw [expand, expandWithin_eq, Tree.replaceIncludes_list]
  refine congrArg _ (mapM_congr fun item hm => ?_)
  rw [← expandWithin_eq_expand (fresh_card_le_depthBound (Tree.includeTargets_item hm)),
    expandWithin_eq]

theorem expand_plain {entries : Mapping} (h : Table.find? entries "include" = none) :
    expand w (.mapping entries) location chain =
      .mapping <$> entries.mapM fun entry => do
        return (entry.1, ← expand w entry.2 location chain) := by
  rw [expand, expandWithin_eq, Tree.replaceIncludes_plain _ h]
  refine congrArg _ (mapM_congr fun entry hm => ?_)
  rw [← expandWithin_eq_expand (fresh_card_le_depthBound (Tree.includeTargets_entry hm)),
    expandWithin_eq]

theorem expand_include {entries : Mapping} {target : Tree}
    (h : Table.find? entries "include" = some target) :
    expand w (.mapping entries) location chain =
      expandTarget w (fun inner chain => expand w inner.tree inner.location chain) location chain
        entries target := by
  rw [expand, expandWithin_eq, Tree.replaceIncludes_include _ h]
  refine expandTarget_congr fun name kind inner ht fresh hinner => ?_
  subst ht
  have hlt : (Call.fresh w ⟨inner.tree, inner.location, chain ++ [name]⟩).card <
      (Call.fresh w ⟨.mapping entries, location, chain⟩).card :=
    Finset.card_lt_card
      (fresh_ssubset_of_content (Tree.Includes.here h).mem_includeTargets fresh hinner)
  have hle : (Call.fresh w ⟨.mapping entries, location, chain⟩).card ≤
      depthBound w (.mapping entries) := fresh_card_le_depthBound (List.Subset.refl _)
  obtain ⟨depth, hdepth⟩ := Nat.exists_eq_succ_of_ne_zero
    (show depthBound w (.mapping entries) ≠ 0 by omega)
  -- The level below has one depth less than its own expansion would begin with.
  rw [hdepth]
  exact expandWithin_eq_expand (by omega)

/-! ## Results and failures

The same equations, read from a result: what has been expanded at each part of a node.
The proofs about results below use these and unfold no walk. -/

theorem forall₂_entries_iff {R : Tree → Tree → Prop} {entries results : Mapping} :
    List.Forall₂ (fun a b : String × Tree => a.1 = b.1 ∧ R a.2 b.2) entries results ↔
      Table.keys entries = Table.keys results ∧
        ∀ pair ∈ entries.zip results, R pair.1.2 pair.2.2 := by
  induction entries generalizing results with
  | nil => cases results <;> simp [Table.keys]
  | cons entry entries ih =>
    cases results with
    | nil => simp [Table.keys]
    | cons result results =>
      rw [List.forall₂_cons, ih]
      simp only [Table.keys, List.map_cons, List.cons.injEq, List.zip_cons_cons,
        List.forall_mem_cons]
      tauto

theorem expand_list_ok_iff {items : List Tree} {result : Tree} :
    expand w (.list items) location chain = .ok result ↔ ∃ results,
      items.length = results.length ∧
      (∀ pair ∈ items.zip results, expand w pair.1 location chain = .ok pair.2) ∧
      .list results = result := by
  rw [expand_list, map_ok_iff]
  simp only [mapM_ok_iff, forall₂_iff_forall_zip, and_assoc]

theorem expand_plain_ok_iff {entries : Mapping} {result : Tree}
    (h : Table.find? entries "include" = none) :
    expand w (.mapping entries) location chain = .ok result ↔ ∃ results,
      Table.keys entries = Table.keys results ∧
      (∀ pair ∈ entries.zip results, expand w pair.1.2 location chain = .ok pair.2.2) ∧
      .mapping results = result := by
  have entry_iff (a b : String × Tree) : (do return (a.1, ← expand w a.2 location chain)) =
      (.ok b : Except ConfigError (String × Tree)) ↔
        a.1 = b.1 ∧ expand w a.2 location chain = .ok b.2 := by
    obtain ⟨key, value⟩ := b
    cases expand w a.2 location chain <;>
      simp [Bind.bind, Except.bind, Pure.pure, Except.pure]
  rw [expand_plain h, map_ok_iff]
  simp only [mapM_ok_iff, entry_iff, and_assoc,
    forall₂_entries_iff (R := fun a b => expand w a location chain = .ok b)]

theorem expand_include_ok_iff {entries : Mapping} {target result : Tree}
    (h : Table.find? entries "include" = some target) :
    expand w (.mapping entries) location chain = .ok result ↔
      ∃ name kind inner, target = .text name ∧ name ∉ chain ∧ source entries = .ok kind ∧
        content w kind name location = .ok inner ∧
        expand w inner.tree inner.location (chain ++ [name]) = .ok result := by
  rw [expand_include h]
  cases target with
  | text name =>
    rw [expandTarget]
    split
    · next hm => simp [hm]
    · next hm => simp [hm, bind_ok_iff]
  | null | bool | number | list | mapping => simp [expandTarget]

end Inclusion
end MapConfig
