import MapConfig.Proofs.Service.SecondPhase

/-! What a successful second phase has found. Every field that waited for it can
be read: the products of layers and flag bands are those that their settings
name, in order, and each band that a style needs is a measurement of the first
product of its layer. -/
namespace MapConfig

/-- Products are found under their own names. -/
theorem Datacube.name_of_find? {products : List Product} {name : String} {product : Product}
    (h : Table.find? (ofProducts products) name = some product) : product.name = name := by
  obtain ⟨_, _, hp⟩ := List.mem_map.mp (Table.mem_of_find?_ofList h)
  cases hp
  rfl

theorem FlagBand.names_of_findProducts {products : List Product} {names : List String}
    {missing : String → Fault} {found : List Product}
    (h : findProducts (Datacube.ofProducts products) names missing = .ok found) :
    found.map Product.name = names := by
  have names := map_eq_of_forall₂ (fun _ _ hf => Datacube.name_of_find? hf)
    (findProducts_ok_iff.mp h)
  rwa [List.map_id'] at names

/-! ## Band tables

The table has a measurement for each of its bands, and a name leads to one of its bands. -/

namespace BandTable
variable {t t' : BandTable} {dc : Datacube}

/-- Every name and alias of a band leads to a measurement. -/
structure Readable (t : BandTable) : Prop where
  unguarded : ∀ name, t.life.checkReadable name = .ok ()
  native : ∃ names, t.native.get = .ok names
  nativeBand : ∀ name band, t.band name = .ok band →
    ∃ measurement, t.nativeBand name = .ok measurement

/-- A name stands for a band that is listed. -/
theorem exists_aliases_of_band (coherent : Names.Coherent ⟨t.aliases, t.canonical⟩)
    {name band : String} (h : t.band name = .ok band) :
    ∃ aliases, t.aliases.find? band = some aliases := by
  unfold BandTable.band at h
  split at h
  · next hf =>
    cases h
    exact coherent.listed name band hf
  · cases h

/-- What a name stands for is a band of the table, which stands for itself. -/
theorem canonical_of_band (coherent : Names.Coherent ⟨t.aliases, t.canonical⟩)
    {name band : String} (h : t.band name = .ok band) :
    band ∈ t.names ∧ t.band band = .ok band := by
  obtain ⟨aliases, hf⟩ := exists_aliases_of_band coherent h
  refine ⟨(Table.mem_keys_iff _ _).mpr (by simp [hf]), ?_⟩
  rw [BandTable.band, coherent.named band aliases hf band List.mem_cons_self]

/-- The measurements found are all of the product of the bands. -/
theorem exists_measured_of_readied (coherent : Names.Coherent ⟨t.aliases, t.canonical⟩)
    (fillable : t.Fillable) (h : t.readied dc = .ok t') :
    ∃ product, Table.find? dc t.product = some product ∧
      ∀ name band, t'.band name = .ok band → ∃ measurement,
        t'.nativeBand name = .ok measurement ∧ measurement ∈ product.measurements.keys := by
  rw [← outcome_makeReady fillable] at h
  obtain ⟨succeeds, rfl⟩ := Attempt.outcome_ok_iff.mp h
  obtain ⟨product, hproduct, measured⟩ := exists_native_of_makeReady succeeds
  refine ⟨product, hproduct, fun name band hband => ?_⟩
  rw [(t.sameNames_makeReady dc).band_eq] at hband
  obtain ⟨aliases, haliases⟩ := exists_aliases_of_band coherent hband
  obtain ⟨measurement, found, hnative, hfound⟩ := measured name band aliases hband haliases
  obtain ⟨_, _, hmeasurement⟩ := List.exists_of_findSome?_eq_some hfound
  exact ⟨measurement, hnative, List.mem_map.mpr ⟨_, measurement?_mem hmeasurement, rfl⟩⟩

theorem readable_of_readied (coherent : Names.Coherent ⟨t.aliases, t.canonical⟩)
    (fillable : t.Fillable) (h : t.readied dc = .ok t') : t'.Readable := by
  obtain ⟨product, _, measured⟩ := exists_measured_of_readied coherent fillable h
  obtain ⟨names, _, rfl⟩ := map_ok_iff.mp h
  exact {
    unguarded := fun _ => Lifecycle.checkReadable_ended
    native := ⟨names, rfl⟩
    nativeBand := fun name band hband => (measured name band hband).imp fun _ => And.left }

end BandTable

/-! ## Flag bands

What can be read is what was looked up, and the products were looked up by the names of
the settings. -/

namespace FlagBand
variable {f f' : FlagBand} {scope : LayerScope} {products : List Product}

/-- All that the second phase looks up can be read, the products by their names
in the settings. -/
structure Readable (f : FlagBand) : Prop where
  unguarded : ∀ name, f.life.checkReadable name = .ok ()
  products : ∃ found, f.foundProducts.get = .ok found ∧ found.map Product.name = f.products
  lowResProducts : ∃ found, f.foundLowResProducts.get = .ok found ∧
    found.map Product.name = f.lowResProducts
  flags : ∃ flags, f.flags.get = .ok flags
  infoMask : ∃ mask, f.infoMask.get = .ok mask

theorem readable_of_readied (h : f.readied (Datacube.ofProducts products) scope = .ok f') :
    f'.Readable := by
  obtain ⟨found, hfound, rfl⟩ := map_ok_iff.mp h
  rw [resolved_eq_canonicalIn] at hfound
  obtain ⟨hproducts, hlowRes, _, _⟩ := find_ok_iff.mp hfound
  exact {
    unguarded := fun _ => Lifecycle.checkReadable_ended
    products := ⟨_, rfl, names_of_findProducts hproducts⟩
    lowResProducts := ⟨_, rfl, names_of_findProducts hlowRes⟩
    flags := ⟨_, rfl⟩
    infoMask := ⟨_, rfl⟩ }

end FlagBand

/-! ## Layers

The bands are looked up in the product whose name comes first, and the list of products
found starts with the product of that name: the measurements are those of the layer's
own product. -/

namespace Layer
variable {l l' : Layer} {products : List Product}

/-- A canonical band of the layer is a measurement of its first product. -/
structure Measured (l : Layer) (band : String) : Prop where
  canonical : band ∈ l.bands.names
  native : ∃ product others measurement, l.products.get = .ok (product :: others) ∧
    l.bands.nativeBand band = .ok measurement ∧ measurement ∈ product.measurements.keys

/-- All that the second phase looks up can be read, the products by their names
in the settings; the styles need no other bands than those measured. -/
structure Readable (l : Layer) : Prop where
  unguarded : ∀ name, l.life.checkReadable name = .ok ()
  products : ∃ found, l.products.get = .ok found ∧ found.map Product.name = l.scope.products
  lowResProducts : ∃ found, l.lowResProducts.get = .ok found ∧
    found.map Product.name = l.scope.lowResProducts
  bands : l.bands.Readable
  flagBands : ∀ f ∈ l.flagBands, f.Readable
  styles : ∀ s ∈ l.styles, ∀ band ∈ s.neededBands, l.Measured band

/-- What the settings of a layer ask for. -/
structure Asked where
  scope : LayerScope
  bands : List String
  flagBands : List (List String × List String)
  styles : List NameSet

def asked (l : Layer) : Asked where
  scope := l.scope
  bands := l.bands.names
  flagBands := l.flagBands.map fun f => (f.products, f.lowResProducts)
  styles := l.styles.map Style.neededBands

theorem Readies.asked_eq {dc : Datacube} (h : l.Readies dc l') : l'.asked = l.asked := by
  cases h with
  | intro found foundLowRes measured flagged grouped =>
    obtain ⟨_, _, rfl⟩ := map_ok_iff.mp measured
    have flagBands := map_eq_of_forall₂ (f := fun f => (f.products, f.lowResProducts))
      (g := fun f => (f.products, f.lowResProducts)) (fun f f' hf => by
        obtain ⟨_, _, rfl⟩ := map_ok_iff.mp hf
        rfl) flagged
    rw [asked, asked]
    simp only [flagBands, List.map_map]
    rfl

/-- The products found start with the one that the bands were looked up in. -/
theorem exists_first_of_findProducts {dc : Datacube} (coherent : l.Coherent)
    {found : List Product} {qualifier layer : String}
    (h : findProducts dc l.scope.products qualifier layer = .ok found) :
    ∃ product others, found = product :: others ∧
      Table.find? dc l.bands.product = some product := by
  have corresponds := FlagBand.findProducts_ok_iff.mp h
  obtain ⟨names, hnames⟩ := coherent.product
  rw [hnames] at corresponds
  obtain ⟨product, others, hproduct, _, rfl⟩ := List.forall₂_cons_left_iff.mp corresponds
  exact ⟨product, others, rfl, hproduct⟩

theorem Readies.readable (fillable : l.Fillable) (fit : ∀ s ∈ l.styles, s.Fits l.scope)
    (h : l.Readies (Datacube.ofProducts products) l') : l'.Readable := by
  have coherent := fillable.coherent
  cases h with
  | intro found foundLowRes measured flagged grouped =>
    refine {
      unguarded := fun _ => Lifecycle.checkReadable_ended
      products := ⟨_, rfl, FlagBand.names_of_findProducts found⟩
      lowResProducts := ⟨_, rfl, FlagBand.names_of_findProducts foundLowRes⟩
      bands := BandTable.readable_of_readied coherent.names fillable.bands measured
      flagBands := fun f' hf' => ?_
      styles := fun s' hs' band hband => ?_ }
    · obtain ⟨f, _, hf⟩ := exists_of_mem_mapM (mapM_ok_iff.mpr flagged) hf'
      exact FlagBand.readable_of_readied hf
    · obtain ⟨s, hs, rfl⟩ := List.mem_map.mp hs'
      -- The band is canonical, so it stands for itself; and the product that it
      -- was looked up in is the first of those found.
      obtain ⟨name, hname⟩ := (fit s hs).bands band hband
      rw [coherent.band] at hname
      obtain ⟨listed, itself⟩ := BandTable.canonical_of_band coherent.names hname
      obtain ⟨first, others, rfl, hfirst⟩ := exists_first_of_findProducts coherent found
      obtain ⟨product, hproduct, natives⟩ :=
        BandTable.exists_measured_of_readied coherent.names fillable.bands measured
      cases hfirst.symm.trans hproduct
      obtain ⟨_, _, rfl⟩ := map_ok_iff.mp measured
      obtain ⟨measurement, hnative, hm⟩ := natives band band itself
      exact ⟨listed, first, others, measurement, rfl, hnative, hm⟩

end Layer

/-! ## The service

A successful attempt, after whatever others, makes what the first one would have made.
So it is enough to look at a success on the service as loaded. -/

namespace Service
variable {s after : Service} {raw : Tree} {functions : Objects HostFunction}

/-- A successful second phase, whatever attempts came before it, leaves the
settings as they are and every field readable, with what the settings ask for. -/
theorem readable_of_ready (h : ofTree raw functions = .ok s) (attempts : List Datacube)
    (products : List Product)
    (made : ((s.attempted attempts).makeReady (Datacube.ofProducts products)).outcome =
      .ok after) :
    after.layers.map Layer.asked = s.layers.map Layer.asked ∧ ∀ l ∈ after.layers, l.Readable := by
  have fillable := fillable_of_ofTree h
  rw [outcome_attempted fillable] at made
  obtain ⟨layers, hlayers, rfl⟩ := readied_ok_iff.mp made
  refine ⟨map_eq_of_forall₂ (fun l l' hl => ?_) hlayers, fun l' hl' => ?_⟩
  · exact (Layer.readies_of_readied hl).asked_eq
  · obtain ⟨l, hl, hreadied⟩ := exists_of_mem_mapM (mapM_ok_iff.mpr hlayers) hl'
    obtain ⟨_, _, _, _, loads⟩ := exists_loads_of_mem h hl
    exact (Layer.readies_of_readied hreadied).readable loads.fillable loads.styles_fit

/-- The style and the flag band use aliases, the flag band has its own product. -/
def linkedTree : Tree := .mapping [
  ("global", .mapping [("title", .text "Service")]),
  ("layers", .list [.mapping [
    ("abstract", .text "One layer"),
    ("bands", .mapping [("b", .list [.text "red"])]),
    ("flags", .list [.mapping [("band", .text "quality"), ("product", .text "q")]]),
    ("low_res_product_name", .text "low"),
    ("name", .text "l"),
    ("product_name", .text "p"),
    ("styling", .mapping [("styles", .list [.mapping [
      ("abstract", .text "One style"),
      ("name", .text "s"),
      ("needed_bands", .list [.text "red"]),
      ("title", .text "Style")]])]),
    ("title", .text "Layer")]])]

/-- The band is measured as `nbart_red`, which has its own name as an alias. -/
def linkedProducts : List Product := [
  ⟨"q", [("quality", ⟨[], some Layer.oneFlag⟩)]⟩,
  ⟨"p", [("nbart_red", ⟨["red"], none⟩)]⟩,
  ⟨"low", []⟩]

/-- The first attempt fails for want of products. -/
theorem readable_of_ready_linked : ∃ s after l, ofTree linkedTree Objects.empty = .ok s ∧
    ((s.attempted [[]]).makeReady (Datacube.ofProducts linkedProducts)).outcome = .ok after ∧
    l ∈ after.layers ∧ l.Readable ∧ l.Measured "b" ∧
    l.asked.flagBands = [(["q"], [])] ∧ l.scope.lowResProducts = ["low"] := by
  have tested : (ofTree linkedTree Objects.empty).toOption.any (fun s =>
      ((s.attempted [[]]).makeReady (Datacube.ofProducts linkedProducts)).outcome.toOption.any
        fun after => after.layers.any fun l =>
          l.styles.any (fun style => decide ("b" ∈ style.neededBands)) &&
            decide (l.asked.flagBands = [(["q"], [])] ∧ l.scope.lowResProducts = ["low"])) =
      true := by
    decide +kernel
  obtain ⟨s, hs, hp⟩ := exists_ok_of_any tested
  obtain ⟨after, made, hp⟩ := exists_ok_of_any hp
  obtain ⟨l, hl, hp⟩ := List.any_eq_true.mp hp
  obtain ⟨needed, settings⟩ := Bool.and_eq_true_iff.mp hp
  obtain ⟨style, hstyle, hneeded⟩ := List.any_eq_true.mp needed
  obtain ⟨flagBands, lowRes⟩ := of_decide_eq_true settings
  have readable := (readable_of_ready hs [[]] linkedProducts made).2 l hl
  exact ⟨s, after, l, hs, made, hl, readable,
    readable.styles style hstyle "b" (of_decide_eq_true hneeded), flagBands, lowRes⟩

end Service

end MapConfig
