import MapConfig.FlagBand
import MapConfig.Proofs.Lifecycle
import MapConfig.Proofs.Results

/-! The second phase of a flag band. It looks at one measurement, that of its
canonical name in the first of its products, and succeeds exactly when that
measurement has flags, all products are there and the flags that it ignores are
known. -/
namespace MapConfig.FlagBand

variable {f : FlagBand} {dc : Datacube} {scope : LayerScope} {flags : FlagsDefinition}

/-! ## The parts of the look-up

Products, measurement and ignored flags are looked up one after the other. Each part has
a lemma that says when it succeeds and what it then finds. -/

theorem findProducts_ok_iff {names : List String} {missing : String → Fault}
    {products : List Product} : findProducts dc names missing = .ok products ↔
      List.Forall₂ (fun name product => Table.find? dc name = some product) names products := by
  rw [findProducts, mapM_ok_iff]
  constructor
  · refine List.Forall₂.imp fun name product h => ?_
    split at h
    · next found hf =>
      cases h
      exact hf
    · cases h
  · refine List.Forall₂.imp fun name product h => ?_
    rw [h]

theorem exists_findProducts_iff {names : List String} {missing : String → Fault} :
    (∃ products, findProducts dc names missing = .ok products) ↔
      ∀ name ∈ names, (Table.find? dc name).isSome := by
  simp only [findProducts_ok_iff]
  induction names with
  | nil => simp
  | cons name names ih =>
    rw [List.forall_mem_cons, ← ih, Option.isSome_iff_exists]
    simp only [List.forall₂_cons_left_iff]
    constructor
    · rintro ⟨_, product, rest, hfirst, hrest, rfl⟩
      exact ⟨⟨product, hfirst⟩, rest, hrest⟩
    · rintro ⟨⟨product, hfirst⟩, rest, hrest⟩
      exact ⟨_, product, rest, hfirst, hrest, rfl⟩

theorem exists_infoMaskOf_iff {ignored : List String} {layer : String} :
    (∃ mask, infoMaskOf flags ignored layer = .ok mask) ↔
      ∀ name ∈ ignored, (Table.find? flags name).isSome := by
  unfold infoMaskOf
  generalize BitVec.allOnes 64 = start
  induction ignored generalizing start with
  | nil => exact ⟨fun _ => by simp, fun _ => ⟨start, rfl⟩⟩
  | cons name ignored ih =>
    rw [List.foldlM_cons, List.forall_mem_cons]
    cases hf : Table.find? flags name with
    | none => simp [bind_ok_iff]
    | some definition =>
      simp only [bind_ok_iff, Except.ok.injEq, exists_eq_left', Option.isSome_some, true_and]
      exact ih _

theorem flagsIn_ok_iff {product : Product} {rest : List Product} :
    f.flagsIn (product :: rest) = .ok flags ↔
      ∃ name measurement, product.measurement? f.canonical = some (name, measurement) ∧
        measurement.flags = some flags := by
  unfold flagsIn
  cases hm : product.measurement? f.canonical with
  | none => simp [hm]
  | some found =>
    obtain ⟨name, measurement⟩ := found
    cases hf : measurement.flags with
    | none => simp [hm, hf]
    | some own => simp [hm, hf]

theorem find_ok_iff {found : Findings} : f.find dc = .ok found ↔
    findProducts dc f.products (.flagProductMissing · f.layer) = .ok found.products ∧
      findProducts dc f.lowResProducts (.flagLowResProductMissing · f.layer) =
        .ok found.lowResProducts ∧
      f.flagsIn found.products = .ok found.flags ∧
      infoMaskOf found.flags f.ignoredFlags f.layer = .ok found.infoMask := by
  simp only [find, bind_ok_iff]
  constructor
  · rintro ⟨products, hproducts, lowRes, hlowRes, flags, hflags, mask, hmask, h⟩
    cases h
    exact ⟨hproducts, hlowRes, hflags, hmask⟩
  · rintro ⟨hproducts, hlowRes, hflags, hmask⟩
    exact ⟨_, hproducts, _, hlowRes, _, hflags, _, hmask, rfl⟩

/-! ## What the second phase answers

The look-up succeeds exactly if all of its parts do, and the fields then hold what was
found. -/

/-- The measurement that the flag band looks at. -/
def examined? (f : FlagBand) (dc : Datacube) : Option (String × Measurement) := do
  let first ← f.products.head?
  let product ← Table.find? dc first
  product.measurement? f.canonical

/-- All that the second phase looks for is there, and these are the flags. -/
structure Answered (f : FlagBand) (dc : Datacube) (flags : FlagsDefinition) : Prop where
  products : ∀ name ∈ f.products, (Table.find? dc name).isSome
  lowResProducts : ∀ name ∈ f.lowResProducts, (Table.find? dc name).isSome
  defined : ∃ name measurement, f.examined? dc = some (name, measurement) ∧
    measurement.flags = some flags
  ignored : ∀ name ∈ f.ignoredFlags, (Table.find? flags name).isSome

/-- The flags in the found products are those of the measurement looked at. -/
theorem flagsIn_found_iff {products : List Product} (h : List.Forall₂
    (fun name product => Table.find? dc name = some product) f.products products) :
    f.flagsIn products = .ok flags ↔ ∃ name measurement,
      f.examined? dc = some (name, measurement) ∧ measurement.flags = some flags := by
  unfold examined?
  generalize f.products = names at h
  cases h with
  | nil => simp [flagsIn]
  | cons hfirst _ => simp [flagsIn_ok_iff, hfirst]

theorem exists_find_iff :
    (∃ found, f.find dc = .ok found ∧ found.flags = flags) ↔ f.Answered dc flags := by
  simp only [find_ok_iff]
  constructor
  · rintro ⟨found, ⟨hproducts, hlowRes, hflags, hmask⟩, rfl⟩
    exact {
      products := exists_findProducts_iff.mp ⟨_, hproducts⟩
      lowResProducts := exists_findProducts_iff.mp ⟨_, hlowRes⟩
      defined := (flagsIn_found_iff (findProducts_ok_iff.mp hproducts)).mp hflags
      ignored := exists_infoMaskOf_iff.mp ⟨_, hmask⟩ }
  · intro h
    obtain ⟨products, hproducts⟩ := exists_findProducts_iff.mpr h.products
    obtain ⟨lowRes, hlowRes⟩ := exists_findProducts_iff.mpr h.lowResProducts
    obtain ⟨mask, hmask⟩ := exists_infoMaskOf_iff.mpr h.ignored
    have hflags := (flagsIn_found_iff (findProducts_ok_iff.mp hproducts)).mpr h.defined
    exact ⟨⟨products, lowRes, flags, mask⟩, ⟨hproducts, hlowRes, hflags, hmask⟩, rfl⟩

/-- The fields that wait for the second phase. -/
def cellNames (f : FlagBand) : List String :=
  [f.foundProducts.name, f.foundLowResProducts.name, f.flags.name, f.infoMask.name]

/-- A flag band of a layer: it has the layer's products if these are its own, and
only its fields can be pending. -/
structure Belongs (scope : LayerScope) (f : FlagBand) : Prop where
  own : f.ownProducts → f.products = scope.products
  pending : ∀ name ∈ f.life.pending, name ∈ f.cellNames

theorem not_mem_pending_fill (pending : ∀ name ∈ f.life.pending, name ∈ f.cellNames)
    (found : Findings) (name : String) : name ∉ (f.fill found).life.pending := by
  show name ∉ ((((f.life.markSet f.foundProducts.name).markSet
    f.foundLowResProducts.name).markSet f.flags.name).markSet f.infoMask.name).pending
  simp only [Lifecycle.mem_pending_markSet]
  rintro ⟨⟨⟨⟨hm, h₁⟩, h₂⟩, h₃⟩, h₄⟩
  simpa [cellNames, h₁, h₂, h₃, h₄] using pending name hm

/-- The second phase succeeds with these flags exactly when it is answered. -/
theorem makeReady_iff (pending : ∀ name ∈ f.life.pending, name ∈ f.cellNames) :
    ((f.makeReady dc).failure? = none ∧ (f.makeReady dc).entry.flags.get = .ok flags) ↔
      f.Answered dc flags := by
  rw [← exists_find_iff]
  unfold makeReady
  cases hfind : f.find dc with
  | error error => simp [Attempt.failed]
  | ok found =>
    dsimp only
    rw [Lifecycle.finish_eq_done (not_mem_pending_fill pending found)]
    show (none = none ∧ Except.ok found.flags = Except.ok flags) ↔ _
    simp

/-! ## Flag bands of a layer

In a layer the name is resolved before the look-up, but only if the products are the
layer's own. -/

variable {functions : Objects HostFunction}

theorem resolved_eq (band : BandMapper) : ∃ canonical, f.resolved band = { f with canonical } := by
  unfold resolved
  split
  · split
    · exact ⟨_, rfl⟩
    · exact ⟨f.canonical, rfl⟩
  · exact ⟨f.canonical, rfl⟩

theorem belongs_of_parse {cfg : Tree} (h : parse cfg scope functions = .ok f) :
    f.Belongs scope := by
  obtain ⟨_, _, h⟩ := bind_ok_iff.mp h
  obtain ⟨_, _, h⟩ := bind_ok_iff.mp h
  obtain ⟨products, _, h⟩ := bind_ok_iff.mp h
  obtain ⟨_, _, h⟩ := bind_ok_iff.mp h
  obtain ⟨_, _, h⟩ := bind_ok_iff.mp h
  obtain ⟨_, _, h⟩ := bind_ok_iff.mp h
  cases h
  constructor
  · intro own
    exact of_decide_eq_true own
  · intro name hm
    exact (NameSet.mem_ofList _ name).mp hm

theorem Belongs.resolved (h : f.Belongs scope) (band : BandMapper) :
    (f.resolved band).Belongs scope := by
  obtain ⟨canonical, heq⟩ := f.resolved_eq band
  rw [heq]
  exact ⟨h.own, h.pending⟩

theorem Belongs.makeReady (h : f.Belongs scope) (dc : Datacube) :
    (f.makeReady dc).entry.Belongs scope := by
  unfold FlagBand.makeReady
  split
  · exact h
  · next found _ =>
    apply Lifecycle.finish_entry
    · exact ⟨h.own, fun name hm => absurd hm (not_mem_pending_fill h.pending found name)⟩
    · intro ready hready
      refine ⟨h.own, fun name hm => ?_⟩
      rw [show ready.pending = ∅ from Lifecycle.pending_of_markReady hready] at hm
      cases hm

theorem Belongs.makeReadyIn (h : f.Belongs scope) (dc : Datacube) :
    (f.makeReadyIn dc scope).entry.Belongs scope :=
  (h.resolved scope.band).makeReady dc

/-! ## The second phase as one step that may fail

What an attempt leaves in the fields, and in the canonical name, is found anew by the
next one. -/

/-- The canonical name that the second phase uses. -/
def canonicalIn (f : FlagBand) (band : BandMapper) : String := (f.resolved band).canonical

theorem resolved_eq_canonicalIn (f : FlagBand) (band : BandMapper) :
    f.resolved band = { f with canonical := f.canonicalIn band } := by
  obtain ⟨canonical, heq⟩ := f.resolved_eq band
  rw [canonicalIn, heq]

/-- The flag band with other contents of all that the second phase writes. -/
def rewritten (f : FlagBand) (life : Lifecycle) (canonical : String)
    (products lowResProducts : Option (List Product)) (flags : Option FlagsDefinition)
    (infoMask : Option Pixel) : FlagBand where
  __ := f
  life
  canonical
  foundProducts := ⟨f.foundProducts.name, products⟩
  foundLowResProducts := ⟨f.foundLowResProducts.name, lowResProducts⟩
  flags := ⟨f.flags.name, flags⟩
  infoMask := ⟨f.infoMask.name, infoMask⟩

/-- The flag band when the second phase has ended with these findings. -/
def settled (f : FlagBand) (band : BandMapper) (found : Findings) : FlagBand :=
  f.rewritten f.life.ended (f.canonicalIn band) (some found.products) (some found.lowResProducts)
    (some found.flags) (some found.infoMask)

/-- What the second phase makes of a flag band. -/
def readied (f : FlagBand) (dc : Datacube) (scope : LayerScope) : Except ConfigError FlagBand :=
  f.settled scope.band <$> (f.resolved scope.band).find dc

theorem exists_life_of_fill (f : FlagBand) (band : BandMapper) (found : Findings) :
    ∃ life, f.life.Advances life ∧ (f.resolved band).fill found =
      f.rewritten life (f.canonicalIn band) (some found.products) (some found.lowResProducts)
        (some found.flags) (some found.infoMask) := by
  rw [resolved_eq_canonicalIn]
  refine ⟨_, ?_, rfl⟩
  exact (((Lifecycle.advances_markSet _ _).trans (Lifecycle.advances_markSet _ _)).trans
    (Lifecycle.advances_markSet _ _)).trans (Lifecycle.advances_markSet _ _)

theorem outcome_makeReadyIn (belongs : f.Belongs scope) :
    (f.makeReadyIn dc scope).outcome = f.readied dc scope := by
  have pending := (belongs.resolved scope.band).pending
  unfold FlagBand.makeReadyIn FlagBand.makeReady readied
  cases (f.resolved scope.band).find dc with
  | error error => rfl
  | ok found =>
    dsimp only
    rw [Lifecycle.finish_eq_done (not_mem_pending_fill pending found), Attempt.outcome_done]
    obtain ⟨life, hlife, hfill⟩ := f.exists_life_of_fill scope.band found
    rw [hfill]
    show Except.ok (f.rewritten life.ended _ _ _ _ _) = _
    rw [hlife.ended]
    rfl

/-- A flag band as an attempt may leave it: the name is resolved, and cells may
be filled. -/
def Leftover (f : FlagBand) (band : BandMapper) (f' : FlagBand) : Prop :=
  ∃ life products lowRes flags mask, f.life.Advances life ∧
    f' = f.rewritten life (f.canonicalIn band) products lowRes flags mask

theorem leftover_makeReadyIn (f : FlagBand) (dc : Datacube) (scope : LayerScope) :
    f.Leftover scope.band (f.makeReadyIn dc scope).entry := by
  unfold FlagBand.makeReadyIn FlagBand.makeReady
  split
  · refine ⟨f.life, f.foundProducts.value?, f.foundLowResProducts.value?, f.flags.value?,
      f.infoMask.value?, .refl _, ?_⟩
    exact f.resolved_eq_canonicalIn scope.band
  · next found _ =>
    obtain ⟨life, hlife, hfill⟩ := f.exists_life_of_fill scope.band found
    rw [hfill]
    apply Lifecycle.finish_entry (motive := f.Leftover scope.band)
    · exact ⟨_, _, _, _, _, hlife, rfl⟩
    · intro ready hready
      exact ⟨ready, _, _, _, _, hlife.trans (Lifecycle.advances_markReady hready), rfl⟩

/-- A name that is resolved stays as it is. -/
theorem canonicalIn_rewritten (f : FlagBand) (band : BandMapper) {life : Lifecycle}
    {products lowRes : Option (List Product)} {flags : Option FlagsDefinition}
    {mask : Option Pixel} :
    (f.rewritten life (f.canonicalIn band) products lowRes flags mask).canonicalIn band =
      f.canonicalIn band := by
  -- What is resolved is the band as configured, which nothing rewrites.
  unfold canonicalIn FlagBand.resolved rewritten
  cases f.ownProducts with
  | false => rfl
  | true => cases band f.band <;> rfl

/-- What an attempt leaves behind has no influence on a later one. -/
theorem Leftover.readied {f' : FlagBand} (h : f.Leftover scope.band f') (dc : Datacube) :
    f'.readied dc scope = f.readied dc scope := by
  obtain ⟨life, products, lowRes, flags, mask, hlife, rfl⟩ := h
  unfold FlagBand.readied settled
  rw [resolved_eq_canonicalIn, resolved_eq_canonicalIn f, canonicalIn_rewritten]
  show _ = (fun found : Findings => f.rewritten f.life.ended _ _ _ _ _) <$> _
  rw [← hlife.ended]
  rfl

end MapConfig.FlagBand
