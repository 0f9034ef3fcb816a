import MapConfig.Proofs.Wording.Metadata
import Mathlib.Data.List.Sort

/-! The keywords of an entry on their way through the display texts. They are registered
as one text, joined by commas, and taken apart at the commas when they are shown: a
keyword comes back whole exactly if it is neither empty nor has a comma itself. The
keywords handed down do not go that way. -/
namespace MapConfig

/-! ## Lists joined and taken apart

Taking apart what was joined gives the parts of each joined piece, so only the
separators inside of pieces make a difference. -/

section Separated
variable {α : Type} [BEq α] [LawfulBEq α] {sep : α}

/-- What is joined comes apart at each place where a separator stands. -/
theorem splitOn_intercalate_eq {parts : List (List α)} (given : parts ≠ []) :
    ([sep].intercalate parts).splitOn sep = parts.flatMap (List.splitOn sep) := by
  induction parts with
  | nil => exact absurd rfl given
  | cons part rest ih =>
    cases rest with
    | nil => simp
    | cons next rest =>
      rw [List.intercalate_cons_cons, List.append_assoc, List.singleton_append,
        List.splitOn_append_cons_self, ih (List.cons_ne_nil _ _)]
      rfl

theorem not_mem_of_mem_splitOn {text part : List α} (h : part ∈ text.splitOn sep) :
    sep ∉ part := by
  induction text generalizing part with
  | nil =>
    rw [List.splitOn_nil, List.mem_singleton] at h
    rw [h]
    exact List.not_mem_nil
  | cons c text ih =>
    rw [List.splitOn_cons_eq_if_modifyHead] at h
    split at h
    · rcases List.mem_cons.mp h with rfl | h
      · exact List.not_mem_nil
      · exact ih h
    · next other =>
      obtain ⟨first, rest, parts⟩ := List.exists_cons_of_ne_nil (List.splitOn_ne_nil sep text)
      rw [parts, List.modifyHead_cons] at h
      rw [parts] at ih
      rcases List.mem_cons.mp h with rfl | h
      · rw [List.mem_cons, not_or]
        exact ⟨fun same => other (beq_iff_eq.mpr same.symm), ih List.mem_cons_self⟩
      · exact ih (List.mem_cons_of_mem _ h)

end Separated

/-- A set is no more than what is in it. -/
theorem NameSet.eq_ofList_iff {s : NameSet} {names : List String} :
    s = ofList names ↔ ∀ name, name ∈ s ↔ name ∈ names := by
  simp only [← mem_ofList names]
  constructor
  · rintro rfl name
    rfl
  · intro same
    exact NameSet.ext (s.ascending.eq_of_mem_iff (ofList names).ascending fun {name} => same name)

/-! ## The text of the keywords

Empty pieces are dropped when the text is read. A keyword comes back if it is a single
piece that is not dropped. -/

/-- The pieces of a text between its commas. -/
def commaParts (text : String) : List String := (text.toList.splitOn ',').map String.ofList

theorem commaParts_of_no_comma {text : String} (h : ',' ∉ text.toList) :
    commaParts text = [text] := by
  simp [commaParts, List.splitOn_eq_singleton h]

theorem no_comma_of_mem_commaParts {text part : String} (h : part ∈ commaParts text) :
    ',' ∉ part.toList := by
  obtain ⟨chars, hm, rfl⟩ := List.mem_map.mp h
  rw [String.toList_ofList]
  exact not_mem_of_mem_splitOn hm

theorem commaParts_intercalate {names : List String} (given : names ≠ []) :
    commaParts (",".intercalate names) = names.flatMap commaParts := by
  have commas : ",".toList = [','] := rfl
  rw [commaParts, String.toList_intercalate, commas, splitOn_intercalate_eq (by simpa using given),
    List.flatMap_map, List.map_flatMap]
  rfl

theorem mem_commaParts_intercalate {names : List String} {shown : String} (given : shown ≠ "") :
    shown ∈ commaParts (",".intercalate names) ↔ ∃ name ∈ names, shown ∈ commaParts name := by
  cases names with
  | nil => simp [commaParts, given]
  | cons name rest => rw [commaParts_intercalate (List.cons_ne_nil _ _), List.mem_flatMap]

/-- The keyword is one piece, and not an empty one. -/
def Separable (keyword : String) : Prop := keyword ≠ "" ∧ ',' ∉ keyword.toList

theorem parts_are_whole_iff {names : List String} :
    (∀ shown, (shown ≠ "" ∧ ∃ name ∈ names, shown ∈ commaParts name) ↔ shown ∈ names) ↔
      ∀ name ∈ names, Separable name := by
  constructor
  · intro same name hm
    obtain ⟨given, _, _, part⟩ := (same name).mpr hm
    exact ⟨given, no_comma_of_mem_commaParts part⟩
  · intro separable shown
    constructor
    · rintro ⟨_, name, hm, part⟩
      rw [commaParts_of_no_comma (separable name hm).2, List.mem_singleton] at part
      exact part ▸ hm
    · intro hm
      obtain ⟨given, no_comma⟩ := separable shown hm
      exact ⟨given, shown, hm, by simp [commaParts_of_no_comma no_comma]⟩

theorem Wording.mem_localKeywords {w : Wording} {label shown joined : String}
    (registered : w.read label "local_keywords" = some joined) :
    shown ∈ w.localKeywords label ↔ shown ≠ "" ∧ shown ∈ commaParts joined := by
  rw [localKeywords, registered]
  simp only [NameSet.mem_ofList, List.mem_filter, decide_eq_true_eq]
  rw [and_comm]
  rfl

/-! ## The keywords of an entry

No other text of an entry, and none of another one, has the key of its keywords. -/

namespace Metadata
variable {w : Wording} {fields : MetadataFields} {cfg : Mapping} {ctx : MetadataContext}
  {texts : List Registration} {metadata : Metadata}

theorem effective_of_parse (h : (parse w fields cfg ctx).2 = .ok metadata) :
    effective fields cfg ctx = .ok metadata := by
  unfold parse at h
  split at h
  · cases h
  · exact h

theorem exists_configured (enabled : fields.keywords)
    (h : (parse w fields cfg ctx).2 = .ok metadata) :
    ∃ configured, Mapping.texts cfg "keywords" (subject ctx) = .ok configured ∧
      ownKeywords cfg ctx = .ok (NameSet.ofList configured) ∧
      metadata.keywords =
        ((ctx.above.map Heritage.keywords).getD ∅).union (NameSet.ofList configured) := by
  have h := effective_of_parse h
  simp only [effective, enabled, if_true] at h
  obtain ⟨own, hown, h⟩ := bind_ok_iff.mp h
  obtain ⟨combined, hcombined, h⟩ := bind_ok_iff.mp h
  have handedDown : metadata.keywords = combined := by
    split at h <;>
      · obtain ⟨attribution, _, h⟩ := bind_ok_iff.mp h
        cases h
        rfl
  cases hcombined
  obtain ⟨configured, read, rfl⟩ := map_ok_iff.mp hown
  exact ⟨configured, read, hown, handedDown⟩

/-- The fields of an entry's texts beside its keywords. -/
def otherFields : List String :=
  ["title", "abstract", "attribution_title", "fees", "access_constraints", "contact_org",
    "contact_position"]

theorem field_mem_otherFields {reader : Except ConfigError (List Registration)}
    (hm : reader ∈ readers w fields cfg ctx) (other : reader ≠ keywordTexts cfg ctx)
    (h : reader = .ok texts) : ∀ r ∈ texts, r.field ∈ otherFields := by
  intro r hr
  simp only [readers, List.mem_append, List.mem_ite_nil_right, List.mem_cons, List.not_mem_nil,
    or_false] at hm
  rcases hm with (((((⟨_, rfl⟩ | ⟨_, rfl⟩) | ⟨_, rfl⟩) | ⟨_, rfl⟩) | ⟨_, rfl⟩) | ⟨_, rfl⟩) |
    ⟨_, rfl | rfl⟩
  · obtain ⟨_, _, _, _, rfl⟩ := title_ok h
    simp [List.mem_singleton.mp hr, own, otherFields]
  · obtain ⟨_, rfl, _, field, _⟩ := abstract_ok h
    simp [List.mem_singleton.mp hr, field, otherFields]
  · exact absurd rfl other
  · simp [attributionTexts_field h r hr, otherFields]
  · simp [stated_field h r hr, otherFields]
  · simp [stated_field h r hr, otherFields]
  · simp [contact_field h r hr, otherFields]
  · simp [contact_field h r hr, otherFields]

/-- None of them has the key of keywords, whoever's. -/
theorem key_ne_of_mem_otherFields {r : Registration} (h : r.field ∈ otherFields) (label : String) :
    r.key ≠ Wording.key label "local_keywords" := by
  have apart : ∀ field ∈ otherFields, '.' ∉ field.toList ∧ field ≠ "local_keywords" := by decide
  obtain ⟨no_point, ne⟩ := apart r.field h
  exact fun same => ne (Wording.apart_of_no_point no_point (by decide) _ _ same).2

/-- The own keywords are registered as one text. -/
theorem default?_keywords (enabled : fields.keywords)
    (h : (parse w fields cfg ctx).2 = .ok metadata) {keywords : NameSet}
    (own : ownKeywords cfg ctx = .ok keywords) :
    (w.registerAll (parse w fields cfg ctx).1).default? ctx.label "local_keywords" =
      some (",".intercalate keywords.names) := by
  obtain ⟨found, origin⟩ := collect_ok (collect_of_parse h)
  have read : keywordTexts cfg ctx =
      .ok [Metadata.own ctx "local_keywords" (",".intercalate keywords.names)] := by
    rw [keywordTexts, own]
    rfl
  apply Wording.default?_registerAll_of_mem
  · obtain ⟨part, hpart, sub⟩ := found (keywordTexts cfg ctx) (by simp [readers, enabled])
    cases read.symm.trans hpart
    exact ⟨_, sub List.mem_cons_self, rfl⟩
  · intro r hr key
    obtain ⟨reader, hreader, part, hpart, hr⟩ := origin r hr
    by_cases keywordReader : reader = keywordTexts cfg ctx
    · cases read.symm.trans (keywordReader.symm.trans hpart)
      rw [List.mem_singleton.mp hr]
      rfl
    · exact absurd key
        (key_ne_of_mem_otherFields (field_mem_otherFields hreader keywordReader hpart r hr) _)

/-- Without other texts over them, the keywords shown are the pieces of those that are
configured, but for empty ones: these are the configured keywords exactly if each of them
is separable. The keywords handed down are the configured ones in any case, beside those
from above. -/
theorem keywords_survive_iff (bare : w.Bare) (enabled : fields.keywords)
    (h : (parse w fields cfg ctx).2 = .ok metadata) :
    ∃ configured, Mapping.texts cfg "keywords" (subject ctx) = .ok configured ∧
      (∀ name, name ∈ metadata.keywords ↔
        (∃ above, ctx.above = some above ∧ name ∈ above.keywords) ∨ name ∈ configured) ∧
      (∀ shown,
        shown ∈ (w.registerAll (parse w fields cfg ctx).1).localKeywords ctx.label ↔
          shown ≠ "" ∧ ∃ keyword ∈ configured, shown ∈ commaParts keyword) ∧
      ((w.registerAll (parse w fields cfg ctx).1).localKeywords ctx.label =
        NameSet.ofList configured ↔ ∀ keyword ∈ configured, Separable keyword) := by
  obtain ⟨configured, read, own, handedDown⟩ := exists_configured enabled h
  have registered : (w.registerAll (parse w fields cfg ctx).1).read ctx.label "local_keywords" =
      some (",".intercalate (NameSet.ofList configured).names) := by
    rw [(bare.registerAll _).read_eq, default?_keywords enabled h own]
  -- What is registered is one text; the pieces at its commas are shown, the empty ones dropped.
  have shown_iff (shown : String) :
      shown ∈ (w.registerAll (parse w fields cfg ctx).1).localKeywords ctx.label ↔
        shown ≠ "" ∧ ∃ keyword ∈ configured, shown ∈ commaParts keyword := by
    rw [Wording.mem_localKeywords registered]
    refine and_congr_right fun given => ?_
    simp only [mem_commaParts_intercalate given, NameSet.mem_names, NameSet.mem_ofList]
  refine ⟨configured, read, fun name => ?_, shown_iff, ?_⟩
  · rw [handedDown, NameSet.mem_union, NameSet.mem_ofList]
    cases ctx.above <;> simp
  · rw [NameSet.eq_ofList_iff, ← parts_are_whole_iff]
    simp only [shown_iff]

def titledWith (keywords : List String) : Mapping := [
  ("abstract", .text "One layer"),
  ("keywords", .list (keywords.map .text)),
  ("title", .text "Layer")]

/-- A layer below an entry with a keyword. -/
def belowEarth : MetadataContext := ⟨"l", some ⟨"global", {"earth"}, none⟩, none, none⟩

theorem keywords_survive_iff_two : ∃ metadata,
    (parse .empty { keywords := true } (titledWith ["sea", "land"]) belowEarth).2 = .ok metadata ∧
      (∀ name, name ∈ metadata.keywords ↔ name = "earth" ∨ name = "sea" ∨ name = "land") ∧
      (Wording.empty.registerAll (parse .empty { keywords := true } (titledWith ["sea", "land"])
        belowEarth).1).localKeywords "l" = .ofList ["land", "sea"] := by
  have parsed : (parse .empty { keywords := true } (titledWith ["sea", "land"]) belowEarth).2 =
      .ok ⟨.ofList ["earth", "land", "sea"], none⟩ := rfl
  obtain ⟨configured, read, handedDown, _, same_iff⟩ := keywords_survive_iff ⟨rfl, rfl⟩ rfl parsed
  cases read
  refine ⟨_, parsed, fun name => ?_, ?_⟩
  · rw [handedDown]
    simp [belowEarth]
  · refine (same_iff.mpr ?_).trans (by decide)
    unfold Separable
    decide

/-- A keyword with a comma is shown as two. -/
theorem not_every_keyword_survives : ¬ ∀ (w : Wording) (fields : MetadataFields) (cfg : Mapping)
    (ctx : MetadataContext) (metadata : Metadata) (configured : List String), w.Bare →
      fields.keywords → (parse w fields cfg ctx).2 = .ok metadata →
      Mapping.texts cfg "keywords" (subject ctx) = .ok configured →
      (w.registerAll (parse w fields cfg ctx).1).localKeywords ctx.label =
        NameSet.ofList configured := by
  intro every
  have same := every .empty { keywords := true } (titledWith ["a,b"]) belowEarth _ ["a,b"]
    ⟨rfl, rfl⟩ rfl rfl rfl
  revert same
  decide +kernel

end Metadata

end MapConfig
