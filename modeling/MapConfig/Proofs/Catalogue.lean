import MapConfig.Proofs.Loading

/-! What loading enters into the catalogue. Records are only ever added, and none
is entered twice, so that an entry which is found once is found from then on: a
layer with the tree that it was built from. -/
namespace MapConfig

/-! ## Records

A registration that succeeds puts one record at the end, apart from all before it. So
searches that found something find the same later on (`Grows`), and no record hides
another (`Distinct`). -/

/-- Two records are of different kinds or have different identities. -/
def Record.Apart (a b : Record) : Prop :=
  ¬ (a.kind.name = b.kind.name ∧ a.kind.identity? a.keys = b.kind.identity? b.keys)

namespace Catalogue
variable {c c' c'' : Catalogue} {kind : EntryKind} {keys : KeyValues} {raw : Tree}
  {record : Record}

/-- A catalogue and a later one, with further records at the end. -/
def Grows (c c' : Catalogue) : Prop := c.records <+: c'.records

theorem Grows.refl (c : Catalogue) : c.Grows c := List.prefix_refl c.records

theorem Grows.trans (h : c.Grows c') (h' : c'.Grows c'') : c.Grows c'' := List.IsPrefix.trans h h'

theorem Grows.find? (h : c.Grows c') (hf : c.find? kind keys = some record) :
    c'.find? kind keys = some record := by
  obtain ⟨identity, hidentity, hf⟩ := Option.bind_eq_some_iff.mp hf
  obtain ⟨more, hmore⟩ := h
  refine Option.bind_eq_some_iff.mpr ⟨identity, hidentity, ?_⟩
  rw [← hmore, List.find?_append, hf, Option.some_or]

theorem register_ok (h : c.register kind keys raw = .ok c') :
    (∃ identity, kind.identity? keys = some identity) ∧ c.find? kind keys = none ∧
      c' = ⟨c.records ++ [⟨kind, keys, raw⟩]⟩ := by
  unfold register at h
  split at h
  · cases h
  · next identified =>
    split at h
    · cases h
    · next fresh =>
      cases h
      refine ⟨?_, ?_, rfl⟩
      · exact Option.ne_none_iff_exists'.mp (by simpa using identified)
      · simpa [contains] using fresh

theorem grows_of_register (h : c.register kind keys raw = .ok c') : c.Grows c' := by
  obtain ⟨_, _, rfl⟩ := register_ok h
  exact List.prefix_append ..

theorem find?_of_register (h : c.register kind keys raw = .ok c') :
    c'.find? kind keys = some ⟨kind, keys, raw⟩ := by
  -- No record before it has the same identity, so the search goes on to it.
  obtain ⟨⟨identity, hidentity⟩, fresh, rfl⟩ := register_ok h
  rw [Catalogue.find?, hidentity, Option.bind_eq_bind, Option.bind_some] at fresh ⊢
  rw [List.find?_append, fresh, Option.none_or]
  simp [hidentity]

/-- No two records have the same kind and the same identity. -/
def Distinct (c : Catalogue) : Prop := c.records.Pairwise Record.Apart

theorem Distinct.register (distinct : c.Distinct) (h : c.register kind keys raw = .ok c') :
    c'.Distinct := by
  obtain ⟨⟨identity, hidentity⟩, fresh, rfl⟩ := register_ok h
  rw [Catalogue.find?, hidentity, Option.bind_eq_bind, Option.bind_some,
    List.find?_eq_none] at fresh
  refine List.pairwise_append.mpr ⟨distinct, List.pairwise_singleton .., ?_⟩
  intro earlier hm later hm'
  cases List.mem_singleton.mp hm'
  simpa [Record.Apart, hidentity] using fresh earlier hm

end Catalogue

/-! ## Loaded entries

What the steps of loading add. A layer stands in the catalogue before its styles, which
can therefore inherit from one another and from styles of layers before it. -/

/-- The records of a layer and of its styles, each with its own tree. -/
def Layer.records (l : Layer) : List Record :=
  ⟨.layer, layerKeys l.name, l.life.raw⟩ :: l.styles.map fun s =>
    ⟨.style, styleKeys l.name s.name, s.life.raw⟩

section
variable {scope : LayerScope} {functions : Objects HostFunction} {above : Heritage} {raw : Tree}
  {r r' : Registries}

theorem Style.Loads.grows {style : Style} (h : Style.Loads scope functions raw r style r') :
    r.catalogue.Grows r'.catalogue := by
  cases h with
  | intro _ _ _ _ entered => exact Catalogue.grows_of_register entered

/-- Registries whose catalogue has grown. -/
theorem Layer.grows_of_styles {raws : List Tree} {styles : List Style}
    (h : LoadsInTurn (Style.Loads scope functions) raws r styles r') :
    r.catalogue.Grows r'.catalogue :=
  h.relates (R := fun r r' => r.catalogue.Grows r'.catalogue) (fun r => .refl r.catalogue)
    (fun _ _ _ h h' => h.trans h') fun _ _ _ _ loads => loads.grows

theorem Layer.Loads.grows {layer : Layer} (h : Layer.Loads above functions raw r layer r') :
    r.catalogue.Grows r'.catalogue := by
  cases h with
  | intro _ _ _ _ _ _ _ _ _ entered _ rest =>
    exact (Catalogue.grows_of_register entered).trans (Layer.grows_of_styles rest)

/-- A layer is found under its name, with its tree. -/
theorem Layer.Loads.find? {layer : Layer} (h : Layer.Loads above functions raw r layer r') :
    r'.catalogue.find? .layer (layerKeys layer.name) =
      some ⟨.layer, layerKeys layer.name, layer.life.raw⟩ := by
  cases h with
  | intro _ _ _ _ _ _ _ _ _ entered _ rest =>
    exact (Layer.grows_of_styles rest).find? (Catalogue.find?_of_register entered)

/-- A style adds its record at the end. -/
theorem Style.Loads.records_eq {style : Style} (h : Style.Loads scope functions raw r style r') :
    r'.catalogue.records = r.catalogue.records ++
      [⟨.style, styleKeys scope.name style.name, style.life.raw⟩] := by
  cases h with
  | intro _ _ _ parts entered =>
    obtain ⟨_, _, hlayer⟩ := ofMapping_ok parts
    obtain ⟨_, _, rfl⟩ := Catalogue.register_ok entered
    rw [keyValues, hlayer]

/-- A layer adds its record, and then those of its styles. -/
theorem Layer.Loads.records_eq {layer : Layer} (h : Layer.Loads above functions raw r layer r') :
    r'.catalogue.records = r.catalogue.records ++ layer.records := by
  cases h with
  | intro _ _ _ _ _ _ _ _ _ entered _ rest =>
    obtain ⟨_, _, rfl⟩ := Catalogue.register_ok entered
    have styles := rest.appends (fun r => r.catalogue.records)
      fun _ _ _ _ loads => Style.Loads.records_eq loads
    rw [styles, List.append_assoc, ← List.map_eq_flatMap]
    rfl

theorem Style.Loads.distinct {style : Style} (h : Style.Loads scope functions raw r style r')
    (distinct : r.catalogue.Distinct) : r'.catalogue.Distinct := by
  cases h with
  | intro _ _ _ _ entered => exact distinct.register entered

theorem Layer.Loads.distinct {layer : Layer} (h : Layer.Loads above functions raw r layer r')
    (distinct : r.catalogue.Distinct) : r'.catalogue.Distinct := by
  cases h with
  | intro _ _ _ _ _ _ _ _ _ entered _ rest =>
    exact rest.keeps (P := fun r => r.catalogue.Distinct)
      (fun _ _ _ _ loads => loads.distinct) (distinct.register entered)

end

end MapConfig
