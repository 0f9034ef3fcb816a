import MapConfig.Proofs.Inclusion.Unfolding

/-! Expansion is final. A tree that is expanded has no directive left, at any
depth and whatever the documents and objects in it included in turn; and a tree
without a directive is its own expansion, in every world. -/
namespace MapConfig

namespace Tree

/-! ## Trees without directives

A plain tree is one in which no part is a directive. The expansion replaces directives
by unfolded contents only, so the induction on the unfolding finds none in the result;
and what is plain is passed over without a look at the world. -/

/-- What stands in a tree at any depth, the tree itself being one. -/
inductive Within : Tree → Tree → Prop where
  | self {tree : Tree} : Within tree tree
  | item {part item : Tree} {items : List Tree} (hm : item ∈ items) (h : Within part item) :
      Within part (.list items)
  | entry {part : Tree} {entries : Mapping} {entry : String × Tree} (hm : entry ∈ entries)
      (h : Within part entry.2) : Within part (.mapping entries)

/-- No mapping in the tree has the key `include`. -/
def Plain (tree : Tree) : Prop :=
  ∀ entries : Mapping, (Tree.mapping entries).Within tree → "include" ∉ Table.keys entries

theorem IsScalar.plain {tree : Tree} (h : tree.IsScalar) : tree.Plain := by
  intro entries within
  cases within with
  | self => cases h.2
  | item => cases h.1
  | entry => cases h.2

theorem plain_list_iff {items : List Tree} :
    (Tree.list items).Plain ↔ ∀ item ∈ items, item.Plain := by
  constructor
  · intro h item hm entries within
    exact h entries (.item hm within)
  · intro h entries within
    cases within with
    | item hm within => exact h _ hm entries within

theorem plain_mapping_iff {entries : Mapping} : (Tree.mapping entries).Plain ↔
    Table.find? entries "include" = none ∧ ∀ entry ∈ entries, entry.2.Plain := by
  have absent : "include" ∉ Table.keys entries ↔ Table.find? entries "include" = none := by
    rw [Table.mem_keys_iff, Option.not_isSome_iff_eq_none]
  rw [← absent]
  constructor
  · intro h
    exact ⟨h entries .self, fun entry hm inner within => h inner (.entry hm within)⟩
  · rintro ⟨here, below⟩ inner within
    cases within with
    | self => exact here
    | entry hm within => exact below _ hm inner within

end Tree

namespace Inclusion
variable {w : World} {location : Location} {tree result : Tree}

/-- What is put in the place of a directive is unfolded itself, so none is left. -/
theorem plain_of_unfolds (h : Unfolds w location tree result) : result.Plain := by
  induction h with
  | scalar hs => exact hs.plain
  | list same _ ih =>
    refine Tree.plain_list_iff.mpr fun item hm => ?_
    obtain ⟨before, hpair⟩ := exists_mem_zip_right same hm
    exact ih _ hpair
  | @plain _ entries results plain keys _ ih =>
    refine Tree.plain_mapping_iff.mpr ⟨?_, fun entry hm => ?_⟩
    · -- The keys are those of the mapping before, which was no directive.
      rw [← Option.not_isSome_iff_eq_none, ← Table.mem_keys_iff] at plain ⊢
      rwa [← keys]
    · have same : entries.length = results.length := by
        simpa [Table.keys] using congrArg List.length keys
      obtain ⟨before, hpair⟩ := exists_mem_zip_right same hm
      exact ih _ hpair
  | included _ _ _ _ ih => exact ih

theorem expand_of_plain (w : World) (location : Location) (chain : List String)
    (h : tree.Plain) : expand w tree location chain = .ok tree := by
  induction tree using Tree.inductionOnParts with
  | scalar tree hs => exact expand_scalar hs
  | list items ih =>
    have items_eq : items.mapM (fun item => expand w item location chain) = .ok items :=
      mapM_ok_iff.mpr (List.forall₂_same.mpr fun item hm =>
        ih item hm (Tree.plain_list_iff.mp h item hm))
    rw [expand_list, items_eq]
    rfl
  | mapping entries ih =>
    obtain ⟨plain, below⟩ := Tree.plain_mapping_iff.mp h
    have entries_eq : entries.mapM (fun entry => do
        return (entry.1, ← expand w entry.2 location chain)) = .ok entries :=
      mapM_ok_iff.mpr (List.forall₂_same.mpr fun entry hm => by
        rw [ih entry hm (below entry hm)]
        rfl)
    rw [expand_plain plain, entries_eq]
    rfl

/-- An expanded tree has no directive at any depth, and expanding it again, from
any location, below any chain and in any other world, gives the tree itself; and
so does expanding a tree without a directive. -/
theorem expansion_is_final :
    (∀ (w : World) (tree : Tree) (location : Location) (chain : List String) (result : Tree),
      expand w tree location chain = .ok result →
        result.Plain ∧ ∀ (w' : World) (location' : Location) (chain' : List String),
          expand w' result location' chain' = .ok result) ∧
    ∀ (w : World) (tree : Tree) (location : Location) (chain : List String),
      tree.Plain → expand w tree location chain = .ok tree := by
  refine ⟨fun w tree location chain result h => ?_, fun w tree location chain h => ?_⟩
  · have plain := plain_of_unfolds (unfolds_of_expand h)
    exact ⟨plain, fun w' location' chain' => expand_of_plain w' location' chain' plain⟩
  · exact expand_of_plain w location chain h

/-! ### An object that includes a document

The result stays as it is in a world that has neither the object nor the store. -/

/-- The document with the bands is one of a remote store. -/
def bandsWorld : World where
  library := ⟨⟨[], []⟩, some [("s3://b/bands.json", "\x7b\"red\": [\"r\"]\x7d".toUTF8)], true⟩
  objects := ⟨[("cfgs.layer",
    .mapping [("bands", .mapping [("include", .text "bands.json")]), ("name", .text "l")])]⟩

def bandsTree : Tree :=
  .list [.mapping [("include", .text "cfgs.layer"), ("type", .text "python")]]

def bandsResult : Tree := .list [.mapping [
  ("bands", .mapping [("red", .list [.text "r"])]), ("name", .text "l")]]

/-- Without the store there is nothing to include any more, and nothing is. -/
theorem expansion_is_final_bands : ∃ result,
    expand bandsWorld bandsTree (.remote "s3://b") [] = .ok result ∧
      result.same bandsResult ∧ result.Plain ∧
      expand ⟨⟨⟨[], []⟩, none, false⟩, Objects.empty⟩ result (.directory ⟨"/"⟩) ["cfgs.layer"] =
        .ok result ∧
      expand bandsWorld (.list [.text "r"]) (.remote "s3://b") [] = .ok (.list [.text "r"]) := by
  have tested : (expand bandsWorld bandsTree (.remote "s3://b") []).toOption.any
      (fun result => result.same bandsResult) = true := by decide +kernel
  obtain ⟨result, h, same⟩ := exists_ok_of_any tested
  obtain ⟨plain, again⟩ := expansion_is_final.1 _ _ _ _ _ h
  refine ⟨result, h, same, plain, again _ _ _, expansion_is_final.2 _ _ _ _ ?_⟩
  exact Tree.plain_list_iff.mpr fun item hm =>
    List.mem_singleton.mp hm ▸ Tree.IsScalar.plain ⟨rfl, rfl⟩

end Inclusion
end MapConfig
