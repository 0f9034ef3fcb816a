import MapConfig.Proofs.Inclusion.Unfolding
import Mathlib.Logic.Relation

/-! Every expansion ends. No chain of calls goes on for ever, since an inclusion
uses up one of the finitely many strings that are written anywhere, and what is
not an inclusion makes the node smaller. So nesting has a bound that does not
depend on the documents' paths, and endless nesting is an error. -/
namespace MapConfig.Inclusion

/-! ## How far calls can go

A call has at most as many strings below it as it has not yet used. So the chain of any
call, however far down, is longer than that at the root by no more than the strings that
are written anywhere. -/

variable {w : World} {location : Location} {chain : List String}

/-- Inclusions nest in one another without a bound. -/
def NestsEndlessly (w : World) (location : Location) (tree : Tree) : Prop :=
  ∀ depth, ∃ nested, Nests w location tree nested ∧ depth < nested.length

/-- A call has used up the strings by which its chain is longer. -/
theorem CalledBy.fresh_le {inner outer : Call} (h : CalledBy w inner outer) :
    ∃ nested, inner.chain = outer.chain ++ nested ∧
      (inner.fresh w).card + nested.length ≤ (outer.fresh w).card := by
  cases h with
  | item hm =>
    refine ⟨[], by simp, ?_⟩
    exact Finset.card_le_card (fresh_subset_of_targets (Tree.includeTargets_item hm) _ _)
  | entry _ hm =>
    refine ⟨[], by simp, ?_⟩
    exact Finset.card_le_card (fresh_subset_of_targets (Tree.includeTargets_entry hm) _ _)
  | @content entries target location chain kind inner found fresh _ hinner =>
    have hm := (Tree.Includes.here found).mem_includeTargets
    exact ⟨[target], rfl, Finset.card_lt_card (fresh_ssubset_of_content hm fresh hinner)⟩

/-- The same for calls at any distance. -/
theorem fresh_le_of_calls {inner outer : Call}
    (h : Relation.ReflTransGen (CalledBy w) inner outer) :
    ∃ nested, inner.chain = outer.chain ++ nested ∧
      (inner.fresh w).card + nested.length ≤ (outer.fresh w).card := by
  induction h with
  | refl => exact ⟨[], by simp, by simp⟩
  | tail _ hcall ih =>
    obtain ⟨nested, hchain, hle⟩ := ih
    obtain ⟨first, hfirst, hle'⟩ := hcall.fresh_le
    refine ⟨first ++ nested, by rw [hchain, hfirst, List.append_assoc], ?_⟩
    rw [List.length_append]
    omega

theorem Nests.mem_targetsFrom {tree : Tree} {nested : List String}
    (h : Nests w location tree nested) : ∀ name ∈ nested, name ∈ targetsFrom w tree := by
  induction h with
  | written hi =>
    intro name hm
    cases List.mem_singleton.mp hm
    simp [targetsFrom, hi.mem_includeTargets]
  | inside hi _ hinner _ ih =>
    intro name hm
    rcases List.mem_cons.mp hm with rfl | hm
    · simp [targetsFrom, hi.mem_includeTargets]
    · exact targetsFrom_subset_of_content hinner _ (ih name hm)

theorem exists_error_of_nestsEndlessly {tree : Tree} (h : NestsEndlessly w location tree)
    (chain : List String) : ∃ error, expand w tree location chain = .error error := by
  cases hr : expand w tree location chain with
  | error error => exact ⟨error, rfl⟩
  | ok result =>
    obtain ⟨nested, hn, hlt⟩ := h (targetsFrom w tree).card
    -- A nesting longer than the number of strings repeats one, against the success.
    have nodup := (fresh_of_expand hr hn).1
    have sub : nested.toFinset ⊆ targetsFrom w tree := fun name hm =>
      hn.mem_targetsFrom name (List.mem_toFinset.mp hm)
    have hle := Finset.card_le_card sub
    rw [List.toFinset_card_of_nodup nodup] at hle
    omega

/-- The expansion as one equation, without a depth. -/
theorem expand_eq (tree : Tree) : expand w tree location chain =
    tree.replaceIncludes (expandTarget w
      (fun inner chain => expand w inner.tree inner.location chain) location chain) := by
  induction tree using Tree.inductionOnParts with
  | scalar tree hs => rw [expand_scalar hs, Tree.replaceIncludes_scalar _ hs]
  | list items ih =>
    rw [expand_list, Tree.replaceIncludes_list]
    exact congrArg _ (mapM_congr ih)
  | mapping entries ih =>
    cases hf : Table.find? entries "include" with
    | some target => rw [expand_include hf, Tree.replaceIncludes_include _ hf]
    | none =>
      rw [expand_plain hf, Tree.replaceIncludes_plain _ hf]
      refine congrArg _ (mapM_congr fun entry hm => ?_)
      rw [ih entry hm]

/-- Expansion ends: its calls go down without end nowhere, it satisfies the
equation of its recursion, its chain grows by no more strings than are written
in the tree, the documents and the objects, and inclusions that nest endlessly
are an error. -/
theorem expand_terminates (w : World) :
    WellFounded (CalledBy w) ∧ ∀ tree location chain,
      expand w tree location chain = tree.replaceIncludes (expandTarget w
        (fun inner chain => expand w inner.tree inner.location chain) location chain) ∧
      (∀ inner, Relation.ReflTransGen (CalledBy w) inner ⟨tree, location, chain⟩ →
        ∃ nested, inner.chain = chain ++ nested ∧ nested.length ≤ (targetsFrom w tree).card) ∧
      (NestsEndlessly w location tree → ∃ error, expand w tree location chain = .error error) := by
  refine ⟨calledBy_wellFounded w, fun tree location chain => ⟨expand_eq tree, ?_, ?_⟩⟩
  · intro inner h
    obtain ⟨nested, hchain, hle⟩ := fresh_le_of_calls h
    have hcard : (Call.fresh w ⟨tree, location, chain⟩).card ≤ (targetsFrom w tree).card :=
      Finset.card_le_card Finset.sdiff_subset
    exact ⟨nested, hchain, by omega⟩
  · intro h
    exact exists_error_of_nestsEndlessly h chain

/-! ### Two objects that include each other

Their strings alternate on nestings of any length. -/

def includingObject (name : String) : Mapping := [("include", .text name), ("type", .text "python")]

def mutualWorld : World where
  library := ⟨⟨[], []⟩, none, false⟩
  objects := ⟨[("cfgs.a.cfg", .mapping (includingObject "cfgs.b.cfg")),
    ("cfgs.b.cfg", .mapping [("x", .mapping (includingObject "cfgs.a.cfg"))])]⟩

theorem nestsEndlessly_mutual (location : Location) :
    NestsEndlessly mutualWorld location (.mapping (includingObject "cfgs.a.cfg")) := by
  have step {name : String} {nested : List String} {inner : Tree}
      (hinner : content mutualWorld .object name location = .ok ⟨inner, location⟩)
      (hn : Nests mutualWorld location inner nested) :
      Nests mutualWorld location (.mapping (includingObject name)) (name :: nested) :=
    .inside (.here rfl) rfl hinner hn
  have through {nested : List String}
      (hn : Nests mutualWorld location (.mapping (includingObject "cfgs.a.cfg")) nested) :
      Nests mutualWorld location (.mapping [("x", .mapping (includingObject "cfgs.a.cfg"))])
        nested :=
    hn.of_part fun _ _ hi => .entry rfl (List.mem_singleton.mpr rfl) hi
  intro depth
  induction depth with
  | zero => exact ⟨["cfgs.a.cfg"], .written (.here rfl), by decide⟩
  | succ depth ih =>
    obtain ⟨nested, hn, hlt⟩ := ih
    refine ⟨"cfgs.a.cfg" :: "cfgs.b.cfg" :: nested, step rfl (step rfl (through hn)), ?_⟩
    simp only [List.length_cons]
    omega

theorem expand_terminates_mutual :
    NestsEndlessly mutualWorld (.remote "") (.mapping (includingObject "cfgs.a.cfg")) ∧
      ∃ error, expand mutualWorld (.mapping (includingObject "cfgs.a.cfg")) (.remote "") [] =
        .error error :=
  have endless := nestsEndlessly_mutual (.remote "")
  ⟨endless, (((expand_terminates mutualWorld).2 _ _ _).2.2) endless⟩

end MapConfig.Inclusion
