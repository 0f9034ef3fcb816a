import MapConfig.Bands
import MapConfig.Proofs.Lifecycle
import MapConfig.Proofs.Results
import MapConfig.Proofs.Tree

/-! The names of a layer's bands. Reading keeps the two tables of a band table
in step: each name and alias of a listed band stands for it, and what a name
stands for is listed. A name is never taken over by another band. -/
namespace MapConfig.BandTable

/-! ## Reading a section

A band claims its own name and its aliases one after the other. What the claims leave in
the table is `claims_ok`; that the two tables stay in step, `Names.Coherent`, is the
invariant of reading one band after the other. -/

variable {layer product band : String} {canonical canonical' : Table String}

theorem claim_ok {name : String} (h : claim layer band canonical name = .ok canonical') :
    canonical' = canonical.insert name band ∧
      ∀ other, canonical.find? name = some other → other = band := by
  unfold claim at h
  split at h
  · next other hf =>
    split at h
    · next same =>
      cases h
      refine ⟨rfl, fun other' hf' => ?_⟩
      cases hf.symm.trans hf'
      exact same
    · cases h
  · next hf =>
    cases h
    exact ⟨rfl, fun other hf' => by cases hf.symm.trans hf'⟩

/-- After the names have claimed a band they stand for it, other names stand for
what they did. -/
theorem claims_ok {names : List String}
    (h : names.foldlM (claim layer band) canonical = .ok canonical') :
    ∀ name, canonical'.find? name =
      if name ∈ names then some band else canonical.find? name := by
  induction names generalizing canonical with
  | nil =>
    cases h
    simp
  | cons first rest ih =>
    rw [List.foldlM_cons, bind_ok_iff] at h
    obtain ⟨next, hnext, h⟩ := h
    obtain ⟨rfl, _⟩ := claim_ok hnext
    intro name
    rw [ih h name, Table.find?_insert]
    by_cases hrest : name ∈ rest
    · simp [hrest]
    · by_cases hfirst : first = name
      · simp [hfirst]
      · simp [hrest, hfirst, Ne.symm hfirst]

/-- A name that stood for a band stands for it still. -/
theorem claims_keep {names : List String}
    (h : names.foldlM (claim layer band) canonical = .ok canonical') {name other : String}
    (hf : canonical.find? name = some other) : canonical'.find? name = some other := by
  refine foldlM_ok_induction (motive := fun t => t.find? name = some other) h hf ?_
  intro t first t' ht hstep
  obtain ⟨rfl, same⟩ := claim_ok hstep
  rw [Table.find?_insert]
  split
  · next heq =>
    subst heq
    rw [same other ht]
  · exact ht

/-- The two tables agree. -/
structure Names.Coherent (names : Names) : Prop where
  named : ∀ band aliases, names.aliases.find? band = some aliases → ∀ name ∈ band :: aliases,
    names.canonical.find? name = some band
  listed : ∀ name band, names.canonical.find? name = some band →
    ∃ aliases, names.aliases.find? band = some aliases

theorem Names.Coherent.readBand {names names' : Names} {entry : String × Tree}
    (coherent : names.Coherent) (h : readBand layer names entry = .ok names') :
    names'.Coherent := by
  obtain ⟨band, given⟩ := entry
  obtain ⟨aliases, _, h⟩ := bind_ok_iff.mp h
  obtain ⟨canonical, hclaims, h⟩ := bind_ok_iff.mp h
  cases h
  constructor
  · intro other others hf name hm
    rw [OrderedTable.find?_insert] at hf
    split at hf
    · next same =>
      cases hf
      subst same
      rw [claims_ok hclaims name, if_pos hm]
    · -- The new band cannot have taken the name over.
      exact claims_keep hclaims (coherent.named other others hf name hm)
  · intro name other hf
    rw [claims_ok hclaims name] at hf
    rw [OrderedTable.find?_insert]
    split
    · exact ⟨aliases, rfl⟩
    · next different =>
      split at hf
      -- A name of the new band leads to it, so another band had its names before.
      · exact absurd (Option.some.inj hf) different
      · exact coherent.listed name other hf

/-- A band table as it is read. -/
structure Reads (layer product : String) (cfg : Tree) (t : BandTable) : Prop where
  layer_eq : t.layer = layer
  product_eq : t.product = product
  life_eq : t.life = Lifecycle.start cfg ["native_bands"]
  native_eq : t.native = Cell.empty "native_bands"
  coherent : Names.Coherent ⟨t.aliases, t.canonical⟩

theorem reads_of_parse {cfg : Tree} {t : BandTable} (h : parse layer product cfg = .ok t) :
    Reads layer product cfg t := by
  obtain ⟨bands, _, h⟩ := bind_ok_iff.mp h
  split at h
  · cases h
  · obtain ⟨names, hnames, h⟩ := bind_ok_iff.mp h
    cases h
    refine ⟨rfl, rfl, rfl, rfl, ?_⟩
    refine foldlM_ok_induction (motive := Names.Coherent) hnames ?_ ?_
    · exact ⟨by simp, by simp⟩
    · intro _ _ _ coherent hstep
      exact coherent.readBand hstep

/-- Texts are registered when all bands have been read. -/
theorem run_load (w : Wording) : (load layer product cfg).run.run w =
    match parse layer product cfg with
    | .ok t => (.ok t, w.registerAll t.registrations)
    | .error error => (.error error, w) := by
  unfold load
  cases parse layer product cfg <;> rfl

/-! ## The second phase

The second phase asks the product for every band, under its names in order, and touches
none of the names. What it fills in is read off the product afterwards. -/

variable {t : BandTable} {dc : Datacube}

theorem measurement?_mem {p : Product} {name measurement : String} {found : Measurement}
    (h : p.measurement? name = some (measurement, found)) :
    (measurement, found) ∈ p.measurements := by
  unfold Product.measurement? at h
  split at h
  · next hf =>
    cases h
    exact Table.mem_of_find? hf
  · exact List.mem_of_find?_eq_some h

/-- The canonical name is tried first, so where it leads anywhere it leads there. -/
theorem measurement?_of_isSome {p : Product} {aliases : List String}
    {result : String × Measurement}
    (hfound : (band :: aliases).findSome? p.measurement? = some result)
    (h : (p.measurement? band).isSome) : p.measurement? band = some result := by
  obtain ⟨own, hown⟩ := Option.isSome_iff_exists.mp h
  rw [List.findSome?_cons, hown] at hfound
  rw [hown]
  exact hfound

theorem measurementOf_ok {p : Product} {aliases : List String} {result : String × String}
    (h : measurementOf p layer band aliases = .ok result) : result.1 = band ∧
      ∃ found, (band :: aliases).findSome? p.measurement? = some (result.2, found) := by
  unfold measurementOf at h
  split at h
  · next measurement found hf =>
    cases h
    exact ⟨rfl, found, hf⟩
  · cases h

/-- Bands of the same layer and product with the same names. -/
structure SameNames (t t' : BandTable) : Prop where
  layer : t'.layer = t.layer
  product : t'.product = t.product
  aliases : t'.aliases = t.aliases
  canonical : t'.canonical = t.canonical

theorem SameNames.band_eq {t t' : BandTable} (h : SameNames t t') : t'.band = t.band := by
  funext name
  rw [BandTable.band, h.canonical, h.layer, BandTable.band]

/-- The second phase leaves the names as they are. -/
theorem sameNames_makeReady (t : BandTable) (dc : Datacube) :
    SameNames t (t.makeReady dc).entry := by
  unfold makeReady
  split
  · exact ⟨rfl, rfl, rfl, rfl⟩
  · apply Lifecycle.finish_entry
    · exact ⟨rfl, rfl, rfl, rfl⟩
    · intro ready _
      exact ⟨rfl, rfl, rfl, rfl⟩

theorem exists_names_of_makeReady (h : (t.makeReady dc).failure? = none) :
    ∃ names life, t.nativeNames dc = .ok names ∧
      (t.makeReady dc).entry = { t with life, native := ⟨t.native.name, some names⟩ } := by
  unfold makeReady at h ⊢
  cases hnames : t.nativeNames dc with
  | error error =>
    rw [hnames] at h
    cases h
  | ok names =>
    rw [hnames] at h
    obtain ⟨ready, _, hentry⟩ := Lifecycle.exists_ready_of_finish h
    exact ⟨names, ready, rfl, hentry⟩

/-- Each band is then the measurement that one of its names has in the product,
the first one that has any. -/
theorem exists_native_of_makeReady (h : (t.makeReady dc).failure? = none) :
    ∃ product, Table.find? dc t.product = some product ∧
      ∀ name band aliases, t.band name = .ok band → t.aliases.find? band = some aliases →
        ∃ measurement found, (t.makeReady dc).entry.nativeBand name = .ok measurement ∧
          (band :: aliases).findSome? product.measurement? = some (measurement, found) := by
  obtain ⟨names, life, hnames, hentry⟩ := exists_names_of_makeReady h
  unfold nativeNames at hnames
  split at hnames
  · cases hnames
  · next product hproduct =>
    refine ⟨product, hproduct, fun name band aliases hband haliases => ?_⟩
    have corresponds := (mapM_ok_iff.mp hnames).imp fun _ _ h => measurementOf_ok h
    obtain ⟨measurement, hnative, found, hfound⟩ := Table.find?_of_forall₂
      (R := fun band aliases measurement => ∃ found,
        (band :: aliases).findSome? product.measurement? = some (measurement, found))
      corresponds haliases
    refine ⟨measurement, found, ?_, hfound⟩
    rw [hentry]
    refine bind_ok_iff.mpr ⟨band, hband, bind_ok_iff.mpr ⟨names, rfl, ?_⟩⟩
    rw [hnative]
    rfl

/-! ### As one step that may fail

An attempt leaves a table behind that differs from the one it began with in its
measurements only. `readied` does not look at these, so it answers for both alike. -/

/-- Only the measurements of the bands can be pending. -/
def Fillable (t : BandTable) : Prop := ∀ name ∈ t.life.pending, name = t.native.name

/-- What the second phase makes of a band table. -/
def readied (t : BandTable) (dc : Datacube) : Except ConfigError BandTable :=
  (fun names => { t with life := t.life.ended, native := ⟨t.native.name, some names⟩ }) <$>
    t.nativeNames dc

theorem outcome_makeReady (fillable : t.Fillable) : (t.makeReady dc).outcome = t.readied dc := by
  unfold makeReady readied
  cases t.nativeNames dc with
  | error error => rfl
  | ok names =>
    have filled : ∀ name, name ∉ (t.life.markSet t.native.name).pending := by
      intro name hm
      obtain ⟨hm, other⟩ := Lifecycle.mem_pending_markSet.mp hm
      exact other (fillable name hm)
    -- Nothing else is pending, so the phase ends.
    show (Lifecycle.finish (t.life.markSet t.native.name) _ _).outcome = _
    rw [Lifecycle.finish_eq_done filled, Attempt.outcome_done]
    show Except.ok { t with life := (t.life.markSet t.native.name).ended, native := _ } = _
    rw [Lifecycle.ended_markSet]
    rfl

/-- A band table as an attempt may leave it: the measurements may be filled. -/
def Leftover (t t' : BandTable) : Prop :=
  ∃ life names, t.life.Advances life ∧ t' = { t with life, native := ⟨t.native.name, names⟩ }

theorem leftover_makeReady (t : BandTable) (dc : Datacube) :
    t.Leftover (t.makeReady dc).entry := by
  unfold makeReady
  split
  · exact ⟨t.life, t.native.value?, .refl _, rfl⟩
  · apply Lifecycle.finish_entry (motive := t.Leftover)
    · exact ⟨_, _, Lifecycle.advances_markSet _ _, rfl⟩
    · intro ready hready
      exact ⟨ready, _, (Lifecycle.advances_markSet _ _).trans
        (Lifecycle.advances_markReady hready), rfl⟩

theorem Leftover.fillable {t' : BandTable} (h : t.Leftover t') (fillable : t.Fillable) :
    t'.Fillable := by
  obtain ⟨life, names, hlife, rfl⟩ := h
  exact fun name hm => fillable name (hlife.pending name hm)

/-- What an attempt leaves behind has no influence on a later one. -/
theorem Leftover.readied {t' : BandTable} (h : t.Leftover t') (dc : Datacube) :
    t'.readied dc = t.readied dc := by
  obtain ⟨life, names, hlife, rfl⟩ := h
  unfold BandTable.readied
  rw [← hlife.ended]
  rfl

end MapConfig.BandTable
