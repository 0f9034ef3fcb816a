import MapConfig.Proofs.Bands
import MapConfig.Proofs.FlagBand
import MapConfig.Proofs.Loading

/-! Bands and flag bands of one layer. Both find a band's measurement in the
layer's first product, but a band tries its canonical name and then its aliases,
a flag band the canonical name alone. So the two agree exactly where the product
knows the canonical name, and elsewhere the flag band finds nothing. -/
namespace MapConfig.Layer

/-! ## The states of a layer

A layer comes about by loading and changes by attempts alone. Loading makes its parts
fit together, `Coherent`; attempts are the subject of the next section. -/

/-- A layer as it is loaded, and as attempts to make it ready have left it. -/
inductive Reachable : Layer → Prop where
  | loaded {above : Heritage} {functions : Objects HostFunction} {raw : Tree}
      {r r' : Registries} {l : Layer} (h : load raw above functions r = .ok (l, r')) : Reachable l
  | attempted {l : Layer} (h : Reachable l) (dc : Datacube) : Reachable (l.makeReady dc).entry

/-- The parts of a layer fit together: they use the names of its bands, and the
bands are looked up in the first of its products. -/
structure Coherent (l : Layer) : Prop where
  band : l.scope.band = l.bands.band
  product : ∃ others, l.scope.products = l.bands.product :: others
  names : BandTable.Names.Coherent ⟨l.bands.aliases, l.bands.canonical⟩
  flagBands : ∀ f ∈ l.flagBands, f.Belongs l.scope

/-- Only the scope and the bands of a layer matter. -/
theorem Coherent.congr {l l' : Layer} (h : l.Coherent) (hscope : l'.scope = l.scope)
    (hbands : BandTable.SameNames l.bands l'.bands)
    (hflagBands : ∀ f ∈ l'.flagBands, f.Belongs l.scope) : l'.Coherent where
  band := by rw [hscope, hbands.band_eq, h.band]
  product := by
    rw [hscope, hbands.product]
    exact h.product
  names := by
    rw [hbands.aliases, hbands.canonical]
    exact h.names
  flagBands := by
    rw [hscope]
    exact hflagBands

theorem flagBands_belong {cfg : Mapping} {scope : LayerScope} {functions : Objects HostFunction}
    {flagBands : List FlagBand} (h : flagBandsOf cfg scope functions = .ok flagBands) :
    ∀ f ∈ flagBands, f.Belongs scope := by
  unfold flagBandsOf at h
  split at h
  · cases h
    simp
  · cases h
    simp
  · intro f hm
    obtain ⟨_, _, hf⟩ := exists_of_mem_mapM h hm
    exact FlagBand.belongs_of_parse hf
  · obtain ⟨f, hf, h⟩ := bind_ok_iff.mp h
    cases h
    intro f' hm
    cases List.mem_singleton.mp hm
    exact FlagBand.belongs_of_parse hf

theorem Loads.coherent {above : Heritage} {functions : Objects HostFunction} {raw : Tree}
    {r r' : Registries} {l : Layer} (h : Loads above functions raw r l r') : l.Coherent := by
  cases h with
  | @intro cfg _ name _ _ products _ bands _ _ _ _ _ _ _ _ _ _ _ _ banded flagged =>
    have reads := BandTable.reads_of_parse banded
    exact {
      band := rfl
      product := ⟨products.others, by rw [reads.product_eq]; rfl⟩
      names := reads.coherent
      flagBands := flagBands_belong flagged }

/-! ## What an attempt keeps

An attempt is a chain of steps, any of which may end it. `makeReady_entry` asks for each
step once; a property that all of them keep is then kept by the attempt, wherever it
ended. -/

/-- What every step keeps, an attempt keeps, whether it fails or not. -/
theorem makeReady_entry {motive : Layer → Prop} {l : Layer} {dc : Datacube} (h : motive l)
    (products : ∀ l, motive l → motive (l.readyProducts dc).entry)
    (bands : ∀ l, motive l → motive (l.readyBands dc).entry)
    (flagBands : ∀ l, motive l → motive (l.readyFlagBands dc).entry)
    (groups : ∀ l, motive l → motive l.regroup.entry)
    (styles : ∀ l, motive l → motive l.readyStyles.entry)
    (ends : ∀ l life, l.life.Advances life → motive l → motive { l with life }) :
    motive (l.makeReady dc).entry := by
  unfold makeReady
  refine Attempt.andThen_entry ?_ fun l hl => Lifecycle.finish_entry hl fun ready hready =>
    ends l ready (Lifecycle.advances_markReady hready) hl
  refine Attempt.andThen_entry ?_ styles
  refine Attempt.andThen_entry ?_ groups
  refine Attempt.andThen_entry ?_ flagBands
  exact Attempt.andThen_entry (products l h) bands

theorem Coherent.readyProducts {l : Layer} (h : l.Coherent) (dc : Datacube) :
    (l.readyProducts dc).entry.Coherent := by
  unfold Layer.readyProducts
  dsimp only
  split
  · exact h
  · exact h.congr rfl ⟨rfl, rfl, rfl, rfl⟩ h.flagBands

theorem Coherent.readyBands {l : Layer} (h : l.Coherent) (dc : Datacube) :
    (l.readyBands dc).entry.Coherent :=
  h.congr rfl (l.bands.sameNames_makeReady dc) h.flagBands

theorem Coherent.readyFlagBands {l : Layer} (h : l.Coherent) (dc : Datacube) :
    (l.readyFlagBands dc).entry.Coherent := by
  refine h.congr rfl ⟨rfl, rfl, rfl, rfl⟩ ?_
  exact Attempt.forall_each_entry h.flagBands fun f belongs => belongs.makeReadyIn dc

theorem Coherent.regroup {l : Layer} (h : l.Coherent) : l.regroup.entry.Coherent := by
  unfold Layer.regroup
  split
  · exact h.congr rfl ⟨rfl, rfl, rfl, rfl⟩ h.flagBands
  · exact h

theorem Coherent.makeReady {l : Layer} (h : l.Coherent) (dc : Datacube) :
    (l.makeReady dc).entry.Coherent := by
  refine makeReady_entry h (fun l h => h.readyProducts dc) (fun l h => h.readyBands dc)
    (fun l h => h.readyFlagBands dc) (fun l h => h.regroup) ?_ ?_
  · intro l h
    exact h.congr rfl ⟨rfl, rfl, rfl, rfl⟩ h.flagBands
  · intro l life _ h
    exact h.congr rfl ⟨rfl, rfl, rfl, rfl⟩ h.flagBands

theorem Reachable.coherent {l : Layer} (h : l.Reachable) : l.Coherent := by
  induction h with
  | loaded h => exact (loads_of_load h).coherent
  | attempted _ dc ih => exact ih.makeReady dc

/-! ## The measurement of a flag band

Both look-ups end in the same product. That of the flag band stops at the canonical
name, which is the first that the band tries. -/

section
variable {l : Layer} {dc : Datacube} {f : FlagBand} {band : String} {aliases : List String}
  {product : Product}

/-- The second phase resolves the name to the band's canonical name. -/
theorem resolved_of_name (coherent : l.Coherent) (own : f.ownProducts)
    (listed : l.bands.aliases.find? band = some aliases) (named : f.band ∈ band :: aliases) :
    f.resolved l.scope.band = { f with canonical := band } := by
  have hband : l.scope.band f.band = .ok band := by
    rw [coherent.band, BandTable.band, coherent.names.named band aliases listed f.band named]
  rw [FlagBand.resolved, if_pos own, hband]

/-- It looks for that name, and for no other, in the first product. -/
theorem examined?_of_name (coherent : l.Coherent) (hf : f ∈ l.flagBands) (own : f.ownProducts)
    (listed : l.bands.aliases.find? band = some aliases) (named : f.band ∈ band :: aliases)
    (found : Table.find? dc l.bands.product = some product) :
    (f.resolved l.scope.band).examined? dc = product.measurement? band := by
  obtain ⟨others, hproducts⟩ := coherent.product
  rw [resolved_of_name coherent own listed named, FlagBand.examined?]
  show (do
    let first ← f.products.head?
    let product ← Table.find? dc first
    product.measurement? band) = _
  rw [(coherent.flagBands f hf).own own, hproducts]
  show (do
    let product ← Table.find? dc l.bands.product
    product.measurement? band) = _
  rw [found]
  rfl

/-- Take a flag band of the layer's own products that is configured under any
name of a band, on a datacube that has the layer's bands. The band is then a
measurement of the first product. The flag band looks at it exactly when that
product knows the canonical name; so, with everything else in place, exactly then
the flag band becomes ready, with the flags of that measurement. -/
theorem flag_band_agrees_iff (reachable : l.Reachable)
    (measured : (l.bands.makeReady dc).failure? = none) (hf : f ∈ l.flagBands)
    (own : f.ownProducts) (listed : l.bands.aliases.find? band = some aliases)
    (named : f.band ∈ band :: aliases) :
    ∃ first others product native found,
      l.scope.products = first :: others ∧ Table.find? dc first = some product ∧
      (l.bands.makeReady dc).entry.nativeBand f.band = .ok native ∧
      (native, found) ∈ product.measurements ∧
      ((f.resolved l.scope.band).examined? dc = some (native, found) ↔
        (product.measurement? band).isSome) ∧
      ∀ flags, found.flags = some flags →
        (∀ name ∈ f.products, (Table.find? dc name).isSome) →
        (∀ name ∈ f.lowResProducts, (Table.find? dc name).isSome) →
        (∀ name ∈ f.ignoredFlags, (Table.find? flags name).isSome) →
        ((f.makeReadyIn dc l.scope).failure? = none ∧
            (f.makeReadyIn dc l.scope).entry.flags.get = .ok flags ↔
          (product.measurement? band).isSome) := by
  have coherent := reachable.coherent
  obtain ⟨others, hproducts⟩ := coherent.product
  obtain ⟨product, hproduct, native⟩ := BandTable.exists_native_of_makeReady measured
  have hband : l.bands.band f.band = .ok band := by
    rw [BandTable.band, coherent.names.named band aliases listed f.band named]
  obtain ⟨native, found, hnative, hfound⟩ := native f.band band aliases hband listed
  have hmem : (native, found) ∈ product.measurements := by
    obtain ⟨name, _, hname⟩ := List.exists_of_findSome?_eq_some hfound
    exact BandTable.measurement?_mem hname
  -- The flag band looks only where the first product has the canonical name; `measurement?`
  -- of the band table would go on through the aliases.
  have examined := examined?_of_name coherent hf own listed named hproduct
  refine ⟨l.bands.product, others, product, native, found, hproducts, hproduct, hnative, hmem,
    ⟨fun h => ?_, fun h => ?_⟩, ?_⟩
  · rw [← examined, h]
    rfl
  · rw [examined]
    exact BandTable.measurement?_of_isSome hfound h
  · intro flags hflags products lowResProducts ignored
    rw [FlagBand.makeReadyIn,
      FlagBand.makeReady_iff ((coherent.flagBands f hf).resolved l.scope.band).pending]
    constructor
    · intro answered
      obtain ⟨name, measurement, h, _⟩ := answered.defined
      rw [← examined, h]
      rfl
    · intro h
      have defined : (f.resolved l.scope.band).examined? dc = some (native, found) := by
        rw [examined]
        exact BandTable.measurement?_of_isSome hfound h
      have resolved := resolved_of_name coherent own listed named
      rw [resolved] at defined ⊢
      exact ⟨products, lowResProducts, ⟨native, found, defined, hflags⟩, ignored⟩

end

/-! ### A band under an alias

The same configuration on two datacubes: one has a measurement of the canonical name,
the other one of the alias. -/

/-- The flag band is configured under the alias of the only band. -/
def aliasedFlagTree : Tree := .mapping [
  ("abstract", .text "One layer"),
  ("bands", .mapping [("quality", .list [.text "fmask"])]),
  ("flags", .list [.mapping [("band", .text "fmask")]]),
  ("name", .text "l"),
  ("product_name", .text "p"),
  ("styling", .mapping [("styles", .list [.mapping [
    ("abstract", .text "One style"), ("name", .text "s"), ("title", .text "Style")]])]),
  ("title", .text "Layer")]

def oneFlag : FlagsDefinition := [("cloud", .mapping [("bits", .number (.whole 0))])]

/-- One product with one measurement, which has a flag. -/
def oneMeasurement (name : String) (aliases : List String) : Datacube :=
  [("p", ⟨"p", [(name, ⟨aliases, some oneFlag⟩)]⟩)]

/-- The layer loads, with its flag band and what a test says of the two. -/
theorem exists_aliasedFlag (dc : Datacube) (p : Layer → FlagBand → Bool)
    (tested : (load aliasedFlagTree ⟨"global", ∅, none⟩ Objects.empty
      ⟨Catalogue.empty, Wording.empty⟩).toOption.any (fun loaded =>
        match loaded.1.flagBands with
        | [f] => (loaded.1.bands.makeReady dc).failure?.isNone && f.ownProducts &&
            decide (loaded.1.bands.aliases.find? "quality" = some ["fmask"]) &&
            decide (f.band = "fmask") && p loaded.1 f
        | _ => false) = true) :
    ∃ l f, Reachable l ∧ (l.bands.makeReady dc).failure? = none ∧ f ∈ l.flagBands ∧
      f.ownProducts ∧ l.bands.aliases.find? "quality" = some ["fmask"] ∧
      f.band ∈ ["quality", "fmask"] ∧ p l f := by
  obtain ⟨⟨l, r⟩, hload, hp⟩ := exists_ok_of_any tested
  split at hp
  · next f hflags =>
    simp only [Bool.and_eq_true, decide_eq_true_eq, Option.isNone_iff_eq_none] at hp
    obtain ⟨⟨⟨⟨measured, own⟩, listed⟩, band⟩, hp⟩ := hp
    exact ⟨l, f, .loaded hload, measured, by rw [hflags]; exact List.mem_cons_self, own, listed,
      by rw [band]; decide, hp⟩
  · cases hp

/-- The product knows the canonical name, so the flag band is ready. -/
theorem flag_band_agrees_iff_known :
    ∃ l f, Reachable l ∧
      (l.bands.makeReady (oneMeasurement "pq" ["quality"])).failure? = none ∧
      f ∈ l.flagBands ∧ f.ownProducts ∧ l.bands.aliases.find? "quality" = some ["fmask"] ∧
      f.band ∈ ["quality", "fmask"] ∧
      (f.makeReadyIn (oneMeasurement "pq" ["quality"]) l.scope).failure? = none ∧
      (f.makeReadyIn (oneMeasurement "pq" ["quality"]) l.scope).entry.flags.get = .ok oneFlag := by
  obtain ⟨l, f, reachable, measured, hf, own, listed, named, hp⟩ := exists_aliasedFlag
    (oneMeasurement "pq" ["quality"])
    (fun _ f => decide (f.products = ["p"] ∧ f.lowResProducts = [] ∧ f.ignoredFlags = []))
    (by decide +kernel)
  obtain ⟨hproducts, hlowRes, hignored⟩ := of_decide_eq_true hp
  obtain ⟨first, others, product, native, found, _, hproduct, _, hmem, _, ready⟩ :=
    flag_band_agrees_iff reachable measured hf own listed named
  have hproduct : product = ⟨"p", [("pq", ⟨["quality"], some oneFlag⟩)]⟩ := by
    unfold oneMeasurement at hproduct
    rw [Table.find?] at hproduct
    split at hproduct
    · exact (Option.some.inj hproduct).symm
    · cases hproduct
  subst hproduct
  cases List.mem_singleton.mp hmem
  have known := (ready oneFlag rfl (by rw [hproducts]; decide) (by rw [hlowRes]; decide)
    (by rw [hignored]; decide)).mpr (by decide)
  exact ⟨l, f, reachable, measured, hf, own, listed, named, known⟩

/-- Elsewhere the band is the measurement of its alias, which the flag band does
not try. -/
theorem not_every_flag_band_agrees : ¬ ∀ l dc f band aliases native, Reachable l →
    (l.bands.makeReady dc).failure? = none → f ∈ l.flagBands → f.ownProducts →
    l.bands.aliases.find? band = some aliases → f.band ∈ band :: aliases →
    (l.bands.makeReady dc).entry.nativeBand f.band = .ok native →
    ∃ found, (f.resolved l.scope.band).examined? dc = some (native, found) := by
  intro every
  obtain ⟨l, f, reachable, measured, hf, own, listed, named, hp⟩ := exists_aliasedFlag
    (oneMeasurement "fmask" []) (fun l f =>
      ((f.resolved l.scope.band).examined? (oneMeasurement "fmask" [])).isNone &&
        ((l.bands.makeReady (oneMeasurement "fmask" [])).entry.nativeBand f.band).toOption.isSome)
    (by decide +kernel)
  obtain ⟨unexamined, hnative⟩ := Bool.and_eq_true_iff.mp hp
  obtain ⟨native, hnative⟩ := Option.isSome_iff_exists.mp hnative
  have hok : (l.bands.makeReady (oneMeasurement "fmask" [])).entry.nativeBand f.band =
      .ok native := by
    revert hnative
    cases (l.bands.makeReady (oneMeasurement "fmask" [])).entry.nativeBand f.band <;>
      simp [Except.toOption]
  obtain ⟨found, hfound⟩ := every l _ f _ _ native reachable measured hf own listed named hok
  rw [hfound] at unexamined
  cases unexamined

end MapConfig.Layer
