import MapConfig.Proofs.Service.SecondPhase
import MapConfig.Proofs.Style.Bands

/-! The bands of the styles of a service. The parts of a style have resolved the names
of bands at loading, with the table that the layer had then. The layer's table of today
still gives the same answers, whatever has been tried in between. -/
namespace MapConfig

namespace Layer
variable {l : Layer}

/-- Each style reads the bands to which its names lead in the table of the layer. -/
def StylesRead (l : Layer) : Prop :=
  ∀ s ∈ l.styles, s.ReadsThrough (Style.mapperOf s.bandNames l.bands.band)

theorem Loads.stylesRead {above : Heritage} {functions : Objects HostFunction} {raw : Tree}
    {r r' : Registries} (h : Loads above functions raw r l r') : l.StylesRead := by
  intro s hm
  obtain ⟨_, _, parts⟩ := h.exists_ofMapping s hm
  rw [← h.coherent.band]
  exact Style.readsThrough_of_ofMapping parts

theorem StylesRead.makeReady (h : l.StylesRead) (dc : Datacube) :
    (l.makeReady dc).entry.StylesRead := by
  -- Only two of the steps touch the names of bands or the styles.
  refine makeReady_entry h ?_ ?_ ?_ ?_ ?_ ?_
  · intro l h
    unfold readyProducts
    dsimp only
    split
    · exact h
    · exact h
  · intro l h s hm
    show s.ReadsThrough (Style.mapperOf s.bandNames (l.bands.makeReady dc).entry.band)
    rw [(BandTable.sameNames_makeReady l.bands dc).band_eq]
    exact h s hm
  · intro l h
    exact h
  · intro l h
    unfold regroup
    split
    · exact h
    · exact h
  · intro l h
    exact Attempt.forall_each_entry
      (motive := fun s : Style => s.ReadsThrough (Style.mapperOf s.bandNames l.bands.band))
      h fun s reads => Style.readsThrough_makeReady reads
  · intro l life _ h
    exact h

end Layer

namespace Service
variable {s : Service} {raw : Tree} {functions : Objects HostFunction}

/-- What an attempt on a layer keeps, attempts on the service keep in all layers. -/
theorem forall_layers_attempted {P : Layer → Prop}
    (keeps : ∀ l dc, P l → P (l.makeReady dc).entry) (start : ∀ l ∈ s.layers, P l)
    (attempts : List Datacube) : ∀ l ∈ (s.attempted attempts).layers, P l := by
  unfold attempted
  induction attempts generalizing s with
  | nil => exact start
  | cons dc attempts ih =>
    refine ih (makeReady_entry (motive := fun s => ∀ l ∈ s.layers, P l) ?_ ?_)
    · exact Attempt.forall_each_entry start fun l => keeps l dc
    · intro s life _ h
      exact h

/-- In a service as loaded, and after any attempts of the second phase, a style reads
the bands to which its own names and then those of the layer lead: as needed bands, in
its rules, and in the calls of its index function. -/
theorem styles_read_bands (h : ofTree raw functions = .ok s) (attempts : List Datacube) :
    ∀ l ∈ (s.attempted attempts).layers, ∀ style ∈ l.styles,
      style.ReadsThrough (Style.mapperOf style.bandNames l.bands.band) := by
  refine forall_layers_attempted (P := Layer.StylesRead)
    (fun l dc reads => reads.makeReady dc) ?_ attempts
  intro l hm
  obtain ⟨_, _, _, _, loads⟩ := exists_loads_of_mem h hm
  exact loads.stylesRead

/-! ### A name that the style and the layer use for different bands

The style's own name comes first, in the list and under the rules alike. -/

/-- What the style calls red is the near infrared of the layer. -/
def shadowedTree : Tree := .mapping [
  ("global", .mapping [("title", .text "Service")]),
  ("layers", .list [.mapping [
    ("abstract", .text "One layer"),
    ("bands", .mapping [("nir", .list [.text "near"]), ("red", .list [.text "r"])]),
    ("name", .text "l"),
    ("product_name", .text "p"),
    ("styling", .mapping [("styles", .list [.mapping [
      ("abstract", .text "One style"),
      ("band_map", .mapping [("red", .text "near")]),
      ("index_function", .mapping [
        ("function", .text "m.probe"), ("mapped_bands", .bool true)]),
      ("name", .text "s"),
      ("needed_bands", .list [.text "r"]),
      ("title", .text "Style"),
      ("value_map", .mapping [
        ("red", .list [.mapping [
          ("color", .text "#ffffff"), ("values", .list [.number (.whole 1)])]]),
        ("unknown", .list [])])]])]),
    ("title", .text "Layer")]])]

/-- Answers with the band that a name leads to. -/
def probe : HostFunction := fun call =>
  match call.args with
  | .text name :: _ => .text <$> call.mapBand name
  | _ => .ok .null

def probing : Objects HostFunction := ⟨[("m.probe", probe)]⟩

def twoMeasurements : Datacube :=
  [("p", ⟨"p", [("nir", ⟨[], none⟩), ("red", ⟨[], none⟩)]⟩)]

/-- Both bands are needed, since the list names the one and the rule the other; the name
without a rule leads nowhere and does not matter. -/
def isShadowed (style : Style) : Bool :=
  style.neededBands.names == ["nir", "red"] &&
    (Style.rules style.valueMap).map (fun r => r.rule.band) == ["nir"] &&
    style.indexFunction.any fun f =>
      ((f.call [.text "red"] []).toOption.bind Tree.text?) == some "nir"

theorem styles_read_bands_shadowed : ∃ s, ofTree shadowedTree probing = .ok s ∧
    ((s.attempted [[]]).makeReady twoMeasurements).failure? = none ∧
    ∃ l ∈ (s.attempted [[], twoMeasurements]).layers, ∃ style ∈ l.styles,
      isShadowed style ∧
      style.ReadsThrough (Style.mapperOf style.bandNames l.bands.band) := by
  have tested : (ofTree shadowedTree probing).toOption.any (fun s =>
      ((s.attempted [[]]).makeReady twoMeasurements).failure?.isNone &&
        (s.attempted [[], twoMeasurements]).layers.any fun l =>
          l.styles.any isShadowed) = true := by
    decide +kernel
  obtain ⟨s, hs, hp⟩ := exists_ok_of_any tested
  obtain ⟨succeeds, found⟩ := Bool.and_eq_true_iff.mp hp
  obtain ⟨l, hl, found⟩ := List.any_eq_true.mp found
  obtain ⟨style, hstyle, shadowed⟩ := List.any_eq_true.mp found
  exact ⟨s, hs, Option.isNone_iff_eq_none.mp succeeds, l, hl, style, hstyle, shadowed,
    styles_read_bands hs [[], twoMeasurements] l hl style hstyle⟩

end Service

end MapConfig
