import MapConfig.Proofs.Bands

/-! Which sections of bands are read, and what the names then stand for. A name is
checked when it is met, against the bands before it only. That is enough: at any point
the table holds exactly the names of the bands read so far, so the reading comes to the
end exactly where no name stands for two bands. -/
namespace MapConfig

namespace BandTable
variable {layer product name band : String} {bands done : Mapping} {given : Tree}
  {aliases others claimed : List String} {canonical canonical' : Table String}
  {names names' : Names} {t : BandTable}

/-! ## What a section says

The specification looks at the section alone: which aliases a band is given, and which
names stand for which bands. It knows nothing of the table or of the order of reading. -/

/-- Null gives a band no aliases, and a list of texts gives it these. -/
inductive GivesAliases : Tree → List String → Prop where
  | none : GivesAliases .null []
  | listed (aliases : List String) : GivesAliases (.list (aliases.map .text)) aliases

/-- The section has the band, with the name as its own or as an alias. -/
def StandsFor (bands : Mapping) (name band : String) : Prop :=
  ∃ given aliases, (band, given) ∈ bands ∧ GivesAliases given aliases ∧ name ∈ band :: aliases

/-- No name stands for two bands. -/
def Apart (bands : Mapping) : Prop :=
  ∀ name band other, StandsFor bands name band → StandsFor bands name other → band = other

theorem aliasesOf_ok_iff :
    aliasesOf given band layer = .ok aliases ↔ GivesAliases given aliases := by
  constructor
  · intro h
    unfold aliasesOf at h
    split at h
    · cases h
      exact .none
    · split at h
      · next read =>
        cases h
        rw [Tree.texts?_eq_some_iff.mp read]
        exact .listed _
      · cases h
    · cases h
  · intro h
    cases h with
    | none => rfl
    | listed => simp [aliasesOf, Tree.texts?_eq_some_iff.mpr rfl]

theorem GivesAliases.unique (h : GivesAliases given aliases) (h' : GivesAliases given others) :
    aliases = others := by
  have read : aliasesOf given "" "" = .ok aliases := aliasesOf_ok_iff.mpr h
  have read' : aliasesOf given "" "" = .ok others := aliasesOf_ok_iff.mpr h'
  exact Except.ok.inj (read.symm.trans read')

theorem standsFor_append {more : Mapping} : StandsFor (done ++ more) name band ↔
    StandsFor done name band ∨ StandsFor more name band := by
  simp only [StandsFor, List.mem_append, or_and_right, exists_or]

theorem standsFor_singleton {own : String} (gives : GivesAliases given aliases) :
    StandsFor [(own, given)] name band ↔ band = own ∧ name ∈ own :: aliases := by
  simp only [StandsFor, List.mem_singleton, Prod.mk.injEq]
  constructor
  · rintro ⟨_, others, ⟨rfl, rfl⟩, gives', hm⟩
    cases gives.unique gives'
    exact ⟨rfl, hm⟩
  · rintro ⟨rfl, hm⟩
    exact ⟨given, aliases, ⟨rfl, rfl⟩, gives, hm⟩

theorem Apart.of_append {more : Mapping} (h : Apart (done ++ more)) : Apart done :=
  fun name band other stands stands' =>
    h name band other (standsFor_append.mpr (.inl stands)) (standsFor_append.mpr (.inl stands'))

/-! ## One band

`Names.Holds` says that the tables hold the bands read so far and nothing else. A band
can be read exactly if the section up to it is still `Apart`, and the tables then hold
it as well. -/

theorem claim_ok_iff : claim layer band canonical name = .ok canonical' ↔
    canonical' = canonical.insert name band ∧
      ∀ other, canonical.find? name = some other → other = band := by
  refine ⟨claim_ok, ?_⟩
  rintro ⟨rfl, free⟩
  unfold claim
  split
  · next other found => rw [if_pos (free other found)]
  · rfl

/-- Names can all claim a band unless one of them stands for another. -/
theorem exists_claims_iff :
    (∃ canonical', claimed.foldlM (claim layer band) canonical = .ok canonical') ↔
      ∀ name ∈ claimed, ∀ other, canonical.find? name = some other → other = band := by
  induction claimed generalizing canonical with
  | nil => simp [pure, Except.pure]
  | cons first rest ih =>
    simp only [List.foldlM_cons, bind_ok_iff, claim_ok_iff]
    constructor
    · rintro ⟨_, _, ⟨rfl, free⟩, h⟩ name hm other found
      by_cases same : first = name
      · exact free other (same ▸ found)
      · have hm : name ∈ rest := (List.mem_cons.mp hm).resolve_left (Ne.symm same)
        refine ih.mp ⟨_, h⟩ name hm other ?_
        rw [Table.find?_insert_ne _ _ same, found]
    · intro free
      obtain ⟨canonical', h⟩ : ∃ canonical', rest.foldlM (claim layer band)
          (canonical.insert first band) = .ok canonical' := by
        refine ih.mpr fun name hm other found => ?_
        rw [Table.find?_insert] at found
        split at found
        · exact (Option.some.inj found).symm
        · exact free name (List.mem_cons_of_mem first hm) other found
      exact ⟨canonical', _, ⟨rfl, free first List.mem_cons_self⟩, h⟩

/-- The tables hold the bands read so far, with their names and nothing else. -/
structure Names.Holds (names : Names) (done : Mapping) : Prop where
  keys : ∀ band, band ∈ names.aliases.keys ↔ band ∈ Table.keys done
  find?_iff : ∀ name band, names.canonical.find? name = some band ↔ StandsFor done name band

theorem Names.holds_nil : Names.Holds ⟨∅, []⟩ [] := by
  constructor <;> simp [Table.keys, StandsFor]

theorem Names.Holds.apart (holds : names.Holds done) : Apart done := by
  intro name band other stands stands'
  have found := (holds.find?_iff name band).mpr stands
  have found' := (holds.find?_iff name other).mpr stands'
  exact Option.some.inj (found.symm.trans found')

theorem Names.Holds.readBand (holds : names.Holds done)
    (h : readBand layer names (band, given) = .ok names') :
    (∃ aliases, GivesAliases given aliases) ∧ names'.Holds (done ++ [(band, given)]) := by
  obtain ⟨aliases, read, h⟩ := bind_ok_iff.mp h
  obtain ⟨canonical, claims, h⟩ := bind_ok_iff.mp h
  cases h
  have gives := aliasesOf_ok_iff.mp read
  refine ⟨⟨aliases, gives⟩, fun other => ?_, fun name other => ?_⟩
  · rw [OrderedTable.mem_keys_insert, holds.keys]
    simp [Table.keys, or_comm]
  · have free := exists_claims_iff.mp ⟨_, claims⟩
    rw [claims_ok claims, standsFor_append, standsFor_singleton gives, ← holds.find?_iff]
    split
    · next claimed =>
      constructor
      · rintro ⟨⟩
        exact .inr ⟨rfl, claimed⟩
      · rintro (found | ⟨rfl, _⟩)
        · rw [free name claimed other found]
        · rfl
    · next unclaimed => simp [unclaimed]

/-- A band is read unless one of its names stands for a band before it. -/
theorem Names.Holds.exists_readBand (holds : names.Holds done)
    (gives : GivesAliases given aliases) (apart : Apart (done ++ [(band, given)])) :
    ∃ names', BandTable.readBand layer names (band, given) = .ok names' := by
  obtain ⟨canonical, claims⟩ : ∃ canonical, (band :: aliases).foldlM (claim layer band)
      names.canonical = .ok canonical := by
    refine exists_claims_iff.mpr fun name hm other found => ?_
    have before := (holds.find?_iff name other).mp found
    exact apart name other band (standsFor_append.mpr (.inl before))
      (standsFor_append.mpr (.inr ((standsFor_singleton gives).mpr ⟨rfl, hm⟩)))
  exact ⟨_, bind_ok_iff.mpr ⟨aliases, aliasesOf_ok_iff.mpr gives,
    bind_ok_iff.mpr ⟨canonical, claims, rfl⟩⟩⟩

/-! ## All bands

Induction on the bands still to be read, with those already read as the section that the
tables hold. -/

theorem Names.Holds.readBands (holds : names.Holds done)
    (h : bands.foldlM (BandTable.readBand layer) names = .ok names') :
    (∀ entry ∈ bands, ∃ aliases, GivesAliases entry.2 aliases) ∧ names'.Holds (done ++ bands) := by
  induction bands generalizing names done with
  | nil =>
    cases h
    exact ⟨by simp, by simpa using holds⟩
  | cons entry rest ih =>
    rw [List.foldlM_cons, bind_ok_iff] at h
    obtain ⟨next, first, h⟩ := h
    obtain ⟨gives, holds⟩ := holds.readBand first
    obtain ⟨aliased, holds⟩ := ih holds h
    refine ⟨List.forall_mem_cons.mpr ⟨gives, aliased⟩, ?_⟩
    simpa using holds

theorem Names.Holds.exists_readBands (holds : names.Holds done)
    (aliased : ∀ entry ∈ bands, ∃ aliases, GivesAliases entry.2 aliases)
    (apart : Apart (done ++ bands)) :
    ∃ names', bands.foldlM (BandTable.readBand layer) names = .ok names' := by
  induction bands generalizing names done with
  | nil => exact ⟨names, rfl⟩
  | cons entry rest ih =>
    obtain ⟨⟨aliases, gives⟩, aliased⟩ := List.forall_mem_cons.mp aliased
    have apart : Apart ((done ++ [entry]) ++ rest) := by simpa using apart
    obtain ⟨next, first⟩ := holds.exists_readBand gives apart.of_append
    obtain ⟨names', h⟩ := ih (holds.readBand first).2 aliased apart
    exact ⟨names', by rw [List.foldlM_cons]; exact bind_ok_iff.mpr ⟨next, first, h⟩⟩

/-- A section of bands with their aliases, in which no name stands for two bands. -/
structure NamesBands (cfg : Tree) (bands : Mapping) : Prop where
  entries : cfg = .mapping bands
  nonempty : bands ≠ []
  aliased : ∀ entry ∈ bands, ∃ aliases, GivesAliases entry.2 aliases
  apart : Apart bands

/-- The table and its mapper lead from a name to the band that it stands for, and fail
on every other text. -/
structure Resolves (t : BandTable) (bands : Mapping) : Prop where
  listed : ∀ band, band ∈ t.names ↔ band ∈ Table.keys bands
  band_iff : ∀ name band, t.band name = .ok band ↔ StandsFor bands name band
  mapper_iff : ∀ name band, t.mapper name = .ok band ↔ StandsFor bands name band
  unknown : ∀ name, (∀ band, ¬ StandsFor bands name band) →
    t.band name = .error (.invalid (.unknownBand name t.layer)) ∧
      t.mapper name = .error (.invalid (.unknownBand name t.layer))
  idempotent : ∀ name band, t.band name = .ok band → t.band band = .ok band
  canonical : ∀ band ∈ t.names, t.band band = .ok band

variable {cfg : Tree}

theorem band_ok_iff : t.band name = .ok band ↔ t.canonical.find? name = some band := by
  unfold BandTable.band
  cases t.canonical.find? name <;> simp

/-- A band of the section stands for itself. -/
theorem standsFor_self (aliased : ∀ entry ∈ bands, ∃ aliases, GivesAliases entry.2 aliases)
    (listed : band ∈ Table.keys bands) : StandsFor bands band band := by
  obtain ⟨⟨_, given⟩, hm, rfl⟩ := List.mem_map.mp listed
  obtain ⟨aliases, gives⟩ := aliased _ hm
  exact ⟨given, aliases, hm, gives, List.mem_cons_self⟩

theorem Names.Holds.resolves (holds : Names.Holds ⟨t.aliases, t.canonical⟩ bands)
    (aliased : ∀ entry ∈ bands, ∃ aliases, GivesAliases entry.2 aliases) : t.Resolves bands := by
  have band_iff : ∀ name band, t.band name = .ok band ↔ StandsFor bands name band :=
    fun name band => band_ok_iff.trans (holds.find?_iff name band)
  have itself : ∀ band ∈ Table.keys bands, t.band band = .ok band :=
    fun band listed => (band_iff band band).mpr (standsFor_self aliased listed)
  have unknown : ∀ name, (∀ band, ¬ StandsFor bands name band) →
      t.band name = .error (.invalid (.unknownBand name t.layer)) := by
    intro name none_stands
    unfold BandTable.band
    cases found : t.canonical.find? name with
    | none => rfl
    | some band => exact absurd ((holds.find?_iff name band).mp found) (none_stands band)
  exact {
    listed := holds.keys
    band_iff
    mapper_iff := band_iff
    unknown := fun name none_stands => ⟨unknown name none_stands, unknown name none_stands⟩
    idempotent := by
      intro name band h
      obtain ⟨given, _, hm, _⟩ := (band_iff name band).mp h
      exact itself band (List.mem_map.mpr ⟨_, hm, rfl⟩)
    canonical := fun band hm => itself band ((holds.keys band).mp hm) }

theorem namesBands_of_parse (h : parse layer product cfg = .ok t) :
    ∃ bands, NamesBands cfg bands ∧ t.Resolves bands := by
  obtain ⟨bands, mapped, h⟩ := bind_ok_iff.mp h
  split at h
  · cases h
  · next nonempty =>
    obtain ⟨names, hnames, h⟩ := bind_ok_iff.mp h
    cases h
    obtain ⟨aliased, holds⟩ := Names.holds_nil.readBands hnames
    refine ⟨bands, ⟨Tree.asMapping_ok_iff.mp mapped, ?_, aliased, holds.apart⟩,
      holds.resolves aliased⟩
    simpa using nonempty

theorem NamesBands.exists_parse (h : NamesBands cfg bands) :
    ∃ t, parse layer product cfg = .ok t := by
  obtain ⟨names, hnames⟩ : ∃ names, bands.foldlM (readBand layer) ⟨∅, []⟩ = .ok names :=
    Names.holds_nil.exists_readBands h.aliased h.apart
  have nonempty : ¬ bands.isEmpty = true := by simpa using h.nonempty
  exact ⟨_, bind_ok_iff.mpr ⟨bands, Tree.asMapping_ok_iff.mpr h.entries,
    (if_neg nonempty).trans (bind_ok_iff.mpr ⟨names, hnames, rfl⟩)⟩⟩

/-- A section is read exactly when it names bands and no name stands for two of them.
Its table and mapper then lead every name to the band it stands for. A section that is
refused leaves no text behind. -/
theorem names_lead_to_bands (layer product : String) (cfg : Tree) (w : Wording) :
    ((∃ t, ((load layer product cfg).run.run w).1 = .ok t) ↔ ∃ bands, NamesBands cfg bands) ∧
      (∀ t, ((load layer product cfg).run.run w).1 = .ok t →
        ∃ bands, NamesBands cfg bands ∧ t.Resolves bands) ∧
      ∀ error, ((load layer product cfg).run.run w).1 = .error error →
        ((load layer product cfg).run.run w).2 = w := by
  rw [run_load]
  cases read : parse layer product cfg with
  | error error =>
    refine ⟨⟨by simp, ?_⟩, by simp, by simp⟩
    rintro ⟨bands, named⟩
    obtain ⟨t, h⟩ : ∃ t, parse layer product cfg = .ok t := named.exists_parse
    cases read.symm.trans h
  | ok t =>
    obtain ⟨bands, named, resolves⟩ := namesBands_of_parse read
    refine ⟨⟨fun _ => ⟨bands, named⟩, fun _ => ⟨t, rfl⟩⟩, ?_, by simp⟩
    rintro _ ⟨⟩
    exact ⟨bands, named, resolves⟩

/-- Two bands repeat names of their own. -/
def repeatedNames : Tree := .mapping [
  ("fmask", .null),
  ("nbart_nir", .list [.text "nir", .text "near_infrared", .text "nir"]),
  ("nbart_red", .list [.text "nbart_red", .text "red"])]

/-- An alias is met before the band that it is the name of. -/
def sharedName : Tree := .mapping [
  ("nbart_red", .list [.text "red_edge"]),
  ("red_edge", .list [])]

theorem names_lead_to_bands_repeated : ∃ t bands error,
    ((load "l" "p" repeatedNames).run.run Wording.empty).1 = .ok t ∧
      NamesBands repeatedNames bands ∧ t.Resolves bands ∧
      t.mapper "near_infrared" = .ok "nbart_nir" ∧ t.band "nbart_red" = .ok "nbart_red" ∧
      ((load "l" "p" sharedName).run.run Wording.empty).1 = .error error ∧
      ((load "l" "p" sharedName).run.run Wording.empty).2 = Wording.empty := by
  obtain ⟨_, resolves, _⟩ := names_lead_to_bands "l" "p" repeatedNames Wording.empty
  obtain ⟨_, _, unchanged⟩ := names_lead_to_bands "l" "p" sharedName Wording.empty
  obtain ⟨t, loaded⟩ : ∃ t, ((load "l" "p" repeatedNames).run.run Wording.empty).1 = .ok t :=
    ⟨_, rfl⟩
  obtain ⟨error, refused⟩ :
      ∃ error, ((load "l" "p" sharedName).run.run Wording.empty).1 = .error error := ⟨_, rfl⟩
  obtain ⟨bands, named, resolves⟩ := resolves t loaded
  refine ⟨t, bands, error, loaded, named, resolves, ?_, ?_, refused, unchanged error refused⟩
  · cases named.entries
    exact (resolves.mapper_iff _ _).mpr
      ⟨_, _, by simp, .listed ["nir", "near_infrared", "nir"], by simp⟩
  · cases named.entries
    exact resolves.canonical _ ((resolves.listed _).mpr (by simp [Table.keys]))

end BandTable

end MapConfig
