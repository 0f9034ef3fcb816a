import MapConfig.Lifecycle
import MapConfig.Proofs.Catalogue
import Mathlib.Data.List.Nodup
import Mathlib.Data.List.Pairwise

/-! The catalogue over whole runs of registrations and resets. A log beside it
notes, by the outcome of each step alone, what has been registered since the last
reset. The catalogue answers as the log tells: it refuses what the log has already,
it counts what the log counts, and it finds an entry of the log by the values of the
attributes that identify its kind. -/
namespace MapConfig

/-- The record is of the kind and has these values of the identifying attributes. -/
def Record.HasKey (record : Record) (kind : EntryKind) (value? : String → Option String) : Prop :=
  record.kind = kind ∧ ∀ key ∈ kind.keys, record.keys.find? key = value? key

instance : Std.Symm Record.Apart where
  symm := fun _ _ apart same => apart ⟨same.1.symm, same.2.symm⟩

namespace EntryKind
variable {kind : EntryKind} {keys keys' : KeyValues}

theorem identity?_isSome_iff :
    (kind.identity? keys).isSome ↔ ∀ key ∈ kind.keys, (keys.find? key).isSome :=
  isSome_mapM_iff

/-- Entries of a kind have one identity if all identifying attributes agree. -/
theorem identity?_eq_iff (h : (kind.identity? keys).isSome) :
    kind.identity? keys = kind.identity? keys' ↔
      ∀ key ∈ kind.keys, keys.find? key = keys'.find? key := by
  obtain ⟨identity, hidentity⟩ := Option.isSome_iff_exists.mp h
  rw [hidentity, eq_comm, identity?, mapM_eq_some_iff, ← mapM_eq_some_iff.mp hidentity,
    List.map_inj_left]
  exact ⟨fun same key hm => (same key hm).symm, fun same key hm => (same key hm).symm⟩

end EntryKind

inductive CatalogueStep where
  | register (kind : EntryKind) (keys : KeyValues) (raw : Tree)
  | reset

namespace Catalogue

/-- A registration that fails leaves the catalogue as it was. -/
def take (c : Catalogue) : CatalogueStep → Attempt Catalogue
  | .register kind keys raw =>
    match c.register kind keys raw with
    | .ok registered => .done registered
    | .error error => .failed c error
  | .reset => .done empty

/-- The log after one more step. Only the outcome of the step decides. -/
def logged (log : List Record) (step : CatalogueStep) (failure? : Option ConfigError) :
    List Record :=
  match step, failure? with
  | .register kind keys raw, none => log ++ [⟨kind, keys, raw⟩]
  | .register .., some _ => log
  | .reset, _ => []

/-- The catalogue and the log after the steps. -/
def after (start : Catalogue × List Record) (steps : List CatalogueStep) :
    Catalogue × List Record :=
  steps.foldl
    (fun s step => ((s.1.take step).entry, logged s.2 step (s.1.take step).failure?)) start

/-- From the empty catalogue on. -/
def history (steps : List CatalogueStep) : Catalogue × List Record := after (empty, []) steps

/-- The values as written, except where others are given for them. -/
def substituted (keys : KeyValues) (substitutes : Option KeyValues) (key : String) :
    Option String :=
  ((substitutes.getD ∅).find? key).or (keys.find? key)

/-! ## One step

The invariant of a run: the catalogue holds the log, the records of the log have all
their identifying attributes, and no two of them have one key. -/

/-- The catalogue holds the log, whose records are of these kinds, complete, and apart. -/
structure Holds (kinds : List EntryKind) (c : Catalogue) (log : List Record) : Prop where
  records : c.records = log
  kinds : ∀ r ∈ log, r.kind ∈ kinds
  complete : ∀ r ∈ log, (r.kind.identity? r.keys).isSome
  distinct : c.Distinct

variable {kinds : List EntryKind} {c : Catalogue} {log : List Record} {kind : EntryKind}
  {keys : KeyValues} {raw : Tree} {r : Record}

theorem holds_empty : Holds kinds empty [] where
  records := rfl
  kinds := by simp
  complete := by simp
  distinct := List.Pairwise.nil

theorem Holds.take (h : Holds kinds c log) (step : CatalogueStep)
    (known : ∀ kind keys raw, step = .register kind keys raw → kind ∈ kinds) :
    Holds kinds (c.take step).entry (logged log step (c.take step).failure?) := by
  cases step with
  | reset => exact holds_empty
  | register kind keys raw =>
    rw [Catalogue.take]
    split
    · next registered hr =>
      obtain ⟨⟨identity, hidentity⟩, _, rfl⟩ := register_ok hr
      have kind_mem := known kind keys raw rfl
      exact {
        records := congrArg (· ++ [_]) h.records
        kinds := List.forall_mem_append.mpr ⟨h.kinds, by simpa using kind_mem⟩
        complete := List.forall_mem_append.mpr ⟨h.complete, by simp [hidentity]⟩
        distinct := h.distinct.register hr }
    · exact h

theorem Holds.after (h : Holds kinds c log) {steps : List CatalogueStep}
    (known : ∀ kind keys raw, .register kind keys raw ∈ steps → kind ∈ kinds) :
    Holds kinds (after (c, log) steps).1 (after (c, log) steps).2 := by
  induction steps generalizing c log with
  | nil => exact h
  | cons step rest ih =>
    have first := h.take step fun kind keys raw same =>
      known kind keys raw (same ▸ List.mem_cons_self)
    exact ih first fun kind keys raw hm => known kind keys raw (List.mem_cons_of_mem step hm)

/-! ## Answers

Records are compared by the list of their identifying values, the log by its attributes
one by one. Both come to the same, since kinds of one name are one kind (`named`) and a
record of the log misses no attribute. -/

/-- Records of the log that are not apart are one. -/
theorem Holds.eq_of_identity (h : Holds kinds c log) {other : Record} (hm : r ∈ log)
    (hother : other ∈ log) (name : other.kind.name = r.kind.name)
    (identity : other.kind.identity? other.keys = r.kind.identity? r.keys) : other = r := by
  by_contra different
  rw [← h.records] at hm hother
  exact List.Pairwise.forall h.distinct hother hm different ⟨name, identity⟩

/-- A search finds exactly the record of the log that has the key. -/
theorem Holds.find?_iff (h : Holds kinds c log) (named : (kinds.map EntryKind.name).Nodup)
    (hkind : kind ∈ kinds) :
    c.find? kind keys = some r ↔ r ∈ log ∧ r.HasKey kind keys.find? := by
  rw [Catalogue.find?, Option.bind_eq_bind, Option.bind_eq_some_iff, h.records]
  constructor
  · rintro ⟨identity, hidentity, hf⟩
    have hm := List.mem_of_find?_eq_some hf
    obtain ⟨name, same⟩ : r.kind.name = kind.name ∧ r.kind.identity? r.keys = some identity := by
      simpa using List.find?_some hf
    obtain rfl := List.inj_on_of_nodup_map named (h.kinds r hm) hkind name
    exact ⟨hm, rfl, (EntryKind.identity?_eq_iff (h.complete r hm)).mp (same.trans hidentity.symm)⟩
  · rintro ⟨hm, rfl, agree⟩
    have same := (EntryKind.identity?_eq_iff (h.complete r hm)).mpr agree
    obtain ⟨identity, hidentity⟩ := Option.isSome_iff_exists.mp (h.complete r hm)
    refine ⟨identity, same.symm.trans hidentity, ?_⟩
    -- The search stops at the record, as none before it has its identity.
    cases hf : log.find? fun other => decide (other.kind.name = r.kind.name ∧
        other.kind.identity? other.keys = some identity) with
    | none => exact absurd (decide_eq_true ⟨rfl, hidentity⟩) (List.find?_eq_none.mp hf r hm)
    | some other =>
      obtain ⟨name, found⟩ : other.kind.name = r.kind.name ∧
          other.kind.identity? other.keys = some identity := by
        simpa using List.find?_some hf
      rw [h.eq_of_identity hm (List.mem_of_find?_eq_some hf) name (found.trans hidentity.symm)]

theorem Holds.find?_eq_none_iff (h : Holds kinds c log)
    (named : (kinds.map EntryKind.name).Nodup) (hkind : kind ∈ kinds) :
    c.find? kind keys = none ↔ ∀ r ∈ log, ¬ r.HasKey kind keys.find? := by
  simp only [Option.eq_none_iff_forall_ne_some, ne_eq, h.find?_iff named hkind, not_and]

/-- Registering fails for want of an attribute, or because the key is taken. -/
theorem failure?_register_iff : (c.take (.register kind keys raw)).failure? ≠ none ↔
    (∃ key ∈ kind.keys, keys.find? key = none) ∨ c.find? kind keys ≠ none := by
  have complete : (kind.identity? keys).isNone ↔
      ∃ key ∈ kind.keys, keys.find? key = none := by
    rw [← Option.not_isSome, Bool.not_eq_true', ← Bool.not_eq_true, EntryKind.identity?_isSome_iff]
    simp
  rw [take, ← complete, register]
  split_ifs with missing taken
  · simp [missing, Attempt.failed]
  · simpa [missing, Attempt.failed, contains, Option.isSome_iff_ne_none] using taken
  · simpa [missing, Attempt.done, contains] using taken

theorem entry_of_register (h : (c.take (.register kind keys raw)).failure? ≠ none) :
    (c.take (.register kind keys raw)).entry = c := by
  rw [take] at h ⊢
  split at h
  · exact absurd rfl h
  · rfl

/-- The values given for those written are tried first. -/
theorem lookup_eq (c : Catalogue) (kind : EntryKind) (keys : KeyValues)
    (substitutes : Option KeyValues) : c.lookup kind keys substitutes =
      ((c.find? kind (keys.override (substitutes.getD ∅))).or (c.find? kind keys)).elim
        (.error (.notFound (.entry kind.name keys))) .ok := by
  unfold lookup
  rcases substitutes with _ | given
  · show _ = ((c.find? kind keys).or (c.find? kind keys)).elim _ _
    cases c.find? kind keys <;> rfl
  · by_cases blank : given.isEmpty = true
    · obtain rfl := OrderedTable.isEmpty_iff.mp blank
      show _ = ((c.find? kind keys).or (c.find? kind keys)).elim _ _
      cases c.find? kind keys <;> rfl
    · simp only [if_neg blank, Option.getD_some]
      cases (c.find? kind (keys.override given)).or (c.find? kind keys) <;> rfl

/-- After any registrations and resets, of kinds with different names: registering
fails, and then changes nothing, exactly if an identifying attribute is missing or an
entry with the same key has been registered since the last reset; the catalogue counts
the entries registered since then; and a look-up finds the one whose key has the
values given for those written, else the one with the key as written, else nothing. -/
theorem catalogue_answers_as_logged {kinds : List EntryKind}
    (named : (kinds.map EntryKind.name).Nodup) {steps : List CatalogueStep}
    (known : ∀ kind keys raw, .register kind keys raw ∈ steps → kind ∈ kinds) :
    let c := (history steps).1
    let log := (history steps).2
    (∀ kind ∈ kinds, ∀ keys raw,
      ((c.take (.register kind keys raw)).failure? ≠ none ↔
        (∃ key ∈ kind.keys, keys.find? key = none) ∨
          ∃ r ∈ log, r.HasKey kind keys.find?) ∧
      ((c.take (.register kind keys raw)).failure? ≠ none →
        (c.take (.register kind keys raw)).entry = c)) ∧
    c.size = log.length ∧
    ∀ kind ∈ kinds, ∀ keys substitutes,
      (∀ r ∈ log, r.HasKey kind (substituted keys substitutes) →
        c.lookup kind keys substitutes = .ok r) ∧
      ((∀ r ∈ log, ¬ r.HasKey kind (substituted keys substitutes)) →
        (∀ r ∈ log, r.HasKey kind keys.find? → c.lookup kind keys substitutes = .ok r) ∧
        ((∀ r ∈ log, ¬ r.HasKey kind keys.find?) →
          c.lookup kind keys substitutes = .error (.notFound (.entry kind.name keys)))) := by
  have holds : Holds kinds (history steps).1 (history steps).2 := holds_empty.after known
  intro c log
  refine ⟨fun kind hkind keys raw => ⟨?_, entry_of_register⟩, congrArg List.length holds.records,
    fun kind hkind keys substitutes => ?_⟩
  · rw [failure?_register_iff, ne_eq, holds.find?_eq_none_iff named hkind]
    simp only [not_forall, not_not, exists_prop]
    exact Iff.rfl
  -- No substitutes and empty ones change no value, so one search covers both cases.
  · have values : (keys.override (substitutes.getD ∅)).find? = substituted keys substitutes :=
      funext fun key => OrderedTable.find?_override keys _ key
    rw [lookup_eq, ← values]
    refine ⟨fun r hm key => ?_, fun absent => ⟨fun r hm key => ?_, fun absent' => ?_⟩⟩
    · rw [(holds.find?_iff named hkind).mpr ⟨hm, key⟩]
      rfl
    · rw [(holds.find?_eq_none_iff named hkind).mpr absent,
        (holds.find?_iff named hkind).mpr ⟨hm, key⟩]
      rfl
    · rw [(holds.find?_eq_none_iff named hkind).mpr absent,
        (holds.find?_eq_none_iff named hkind).mpr absent']
      rfl

/-! ### Styles of two layers -/

def registerRgb (layer : String) : CatalogueStep :=
  .register .style (styleKeys layer "rgb") (.text layer)

/-- A style stands again after a reset; another one lacks its layer. -/
def restyled : List CatalogueStep :=
  [registerRgb "ls8", .reset, registerRgb "ls8", registerRgb "s2",
    .register .style (.ofList [("style", "rgb")]) .null]

theorem catalogue_answers_as_logged_restyled :
    ([EntryKind.layer, EntryKind.style].map EntryKind.name).Nodup ∧
    (∀ kind keys raw, .register kind keys raw ∈ restyled →
      kind ∈ [EntryKind.layer, EntryKind.style]) ∧
    (history restyled).1.size = 2 ∧
    ((history restyled).1.take (registerRgb "s2")).failure? ≠ none ∧
    (history restyled).1.lookup .style (styleKeys "ls8" "rgb") (some (layerKeys "s2")) =
      .ok ⟨.style, styleKeys "s2" "rgb", .text "s2"⟩ ∧
    (history restyled).1.lookup .style (styleKeys "ls8" "rgb") (some (layerKeys "ls9")) =
      .ok ⟨.style, styleKeys "ls8" "rgb", .text "ls8"⟩ := by
  have named : ([EntryKind.layer, EntryKind.style].map EntryKind.name).Nodup := by decide
  have known : ∀ kind keys raw, .register kind keys raw ∈ restyled →
      kind ∈ [EntryKind.layer, EntryKind.style] := by
    intro kind keys raw hm
    simp only [restyled, registerRgb, List.mem_cons, CatalogueStep.register.injEq, List.not_mem_nil,
      reduceCtorEq, or_false, false_or] at hm
    grind
  have log : (history restyled).2 =
      [⟨.style, styleKeys "ls8" "rgb", .text "ls8"⟩,
        ⟨.style, styleKeys "s2" "rgb", .text "s2"⟩] := by
    rfl
  obtain ⟨refuses, counts, finds⟩ := catalogue_answers_as_logged named known
  rw [log] at refuses counts finds
  have style_mem : EntryKind.style ∈ [EntryKind.layer, EntryKind.style] := by simp
  refine ⟨named, known, counts, ?_, ?_, ?_⟩
  · exact (refuses .style style_mem _ _).1.mpr
      (.inr ⟨_, List.mem_cons_of_mem _ List.mem_cons_self, rfl, fun _ _ => rfl⟩)
  · exact (finds .style style_mem _ _).1 _ (by simp) ⟨rfl, by decide⟩
  · refine ((finds .style style_mem _ _).2 ?_).1 _ (by simp) ⟨rfl, by decide⟩
    rintro r hm ⟨-, agree⟩
    have layer := agree "layer" (by decide)
    simp only [List.mem_cons, List.not_mem_nil, or_false] at hm
    rcases hm with rfl | rfl <;> exact absurd layer (by decide)

end Catalogue

end MapConfig
