import MapConfig.Proofs.Decimal
import MapConfig.Proofs.Results
import MapConfig.Proofs.Tree
import MapConfig.Proofs.Wording.Registering
import MapConfig.Wording.Metadata

/-! The texts that the metadata of an entry registers. Every entry registers a
title and an abstract, under its label and with what its settings say; no other
text of an entry has the key of a title or an abstract, not even of another
entry. -/
namespace MapConfig

/-! ## Texts that are neither titles nor abstracts

Keys are strings, so a text of another label could have the key of a title. Fields
without a point that are no display field, and fields that end in a digit, never do. -/

/-- The fields that every entry has. -/
def displayFields : List String := ["title", "abstract"]

theorem not_point_mem_displayField {field : String} (h : field ∈ displayFields) :
    '.' ∉ field.toList := by
  rcases List.mem_pair.mp h with rfl | rfl <;> decide

theorem not_endsInDigit_displayField {field : String} (h : field ∈ displayFields) :
    ¬ EndsInDigit field.toList := by
  rintro ⟨c, hc, digit⟩
  rcases List.mem_pair.mp h with rfl | rfl <;> cases hc <;> cases digit

namespace Registration
variable {r : Registration}

/-- The text does not have the key of a title or an abstract, whoever's. -/
def IsSide (r : Registration) : Prop :=
  ∀ label, ∀ field ∈ displayFields, r.key ≠ Wording.key label field

theorem isSide_of_no_point (hp : '.' ∉ r.field.toList) (hf : r.field ∉ displayFields) :
    r.IsSide := by
  intro label field hm he
  have same := (Wording.apart_of_no_point hp (not_point_mem_displayField hm) _ _ he).2
  exact hf (same ▸ hm)

theorem isSide_of_endsInDigit (h : EndsInDigit r.field.toList) : r.IsSide := by
  intro label field hm he
  by_cases hp : r.field.toList.getLast? = field.toList.getLast?
  · obtain ⟨c, hc, digit⟩ := h
    exact not_endsInDigit_displayField hm ⟨c, hp ▸ hc, digit⟩
  · have hne : field.toList ≠ [] := by
      rcases List.mem_pair.mp hm with rfl | rfl <;> decide
    obtain ⟨_, same⟩ := Wording.apart_of_getLast?_ne h.ne_nil hne hp _ _ he
    exact hp (same ▸ rfl)

/-- Titles and abstracts have the key of one only if it is the same. -/
theorem eq_of_key_eq {label field : String} (hr : r.field ∈ displayFields)
    (hf : field ∈ displayFields) (he : r.key = Wording.key label field) :
    r.label = label ∧ r.field = field :=
  Wording.apart_of_no_point (not_point_mem_displayField hr) (not_point_mem_displayField hf) _ _ he

end Registration

/-- The texts of an entry: they give it a title and an abstract, the ones in its
settings as far as it has them, and no other entry. -/
structure EntryTexts (label : String) (cfg : Mapping) (texts : List Registration) : Prop where
  registered : ∀ field ∈ displayFields, ∃ r ∈ texts, r.key = Wording.key label field
  own : ∀ r ∈ texts, ∀ other, ∀ field ∈ displayFields, r.key = Wording.key other field →
    other = label ∧ ∀ text, Table.find? cfg field = some (.text text) → r.value = text

theorem EntryTexts.append {label : String} {cfg : Mapping} {texts more : List Registration}
    (h : EntryTexts label cfg texts) (side : ∀ r ∈ more, r.IsSide) :
    EntryTexts label cfg (texts ++ more) where
  registered field hf := by
    obtain ⟨r, hr, hkey⟩ := h.registered field hf
    exact ⟨r, List.mem_append_left more hr, hkey⟩
  own r hr other field hf hkey := by
    rcases List.mem_append.mp hr with hr | hr
    · exact h.own r hr other field hf hkey
    · exact absurd hkey (side r hr other field hf)

/-! ## Readers

Each reader of the metadata on its own: title and abstract with what they register, the
others with the field that they register under. -/

namespace Metadata
variable {w : Wording} {fields : MetadataFields} {cfg : Mapping} {ctx : MetadataContext}
  {texts : List Registration}

theorem title_ok (h : title cfg ctx = .ok texts) :
    ∃ given value, Mapping.text? cfg "title" (subject ctx) = .ok given ∧
      given.or ctx.defaultTitle = some value ∧ texts = [own ctx "title" value] := by
  obtain ⟨given, hgiven, h⟩ := bind_ok_iff.mp h
  split at h
  · next value hvalue => exact ⟨given, value, hgiven, hvalue, (Except.ok.inj h).symm⟩
  · cases h

theorem abstract_ok (h : abstract w cfg ctx = .ok texts) :
    ∃ r, texts = [r] ∧ r.label = ctx.label ∧ r.field = "abstract" ∧
      ∀ text, Table.find? cfg "abstract" = some (.text text) → r.value = text := by
  obtain ⟨given, hgiven, h⟩ := bind_ok_iff.mp h
  rcases Mapping.text?_ok_iff.mp hgiven with ⟨absent, rfl⟩ | ⟨value, found, rfl⟩
  · -- No text is configured, so whichever text is taken is fine.
    have absent (text : String) : Table.find? cfg "abstract" ≠ some (.text text) := by
      rcases absent with h | h <;> simp [h]
    have hr : ∃ value inherited, texts = [⟨ctx.label, "abstract", value, inherited⟩] := by
      dsimp only at h
      split at h
      · exact ⟨_, _, (Except.ok.inj h).symm⟩
      · split at h
        · exact ⟨_, _, (Except.ok.inj h).symm⟩
        · cases h
    obtain ⟨value, inherited, rfl⟩ := hr
    exact ⟨_, rfl, rfl, rfl, fun text hf => absurd hf (absent text)⟩
  · refine ⟨_, (Except.ok.inj h).symm, rfl, rfl, fun text hf => ?_⟩
    rw [found] at hf
    cases hf
    rfl

/-- The fields of an entry's texts beside its title and its abstract. -/
def sideFields : List String :=
  ["local_keywords", "attribution_title", "fees", "access_constraints", "contact_org",
    "contact_position"]

theorem isSide_of_mem_sideFields {r : Registration} (h : r.field ∈ sideFields) : r.IsSide := by
  refine Registration.isSide_of_no_point ?_ ?_ <;>
    · simp only [sideFields, List.mem_cons, List.not_mem_nil, or_false] at h
      rcases h with h | h | h | h | h | h <;> rw [h] <;> decide

theorem keywordTexts_field (h : keywordTexts cfg ctx = .ok texts) :
    ∀ r ∈ texts, r.field = "local_keywords" := by
  obtain ⟨keywords, _, h⟩ := bind_ok_iff.mp h
  cases h
  simp [own]

theorem attributionTexts_field (h : attributionTexts cfg ctx = .ok texts) :
    ∀ r ∈ texts, r.field = "attribution_title" := by
  obtain ⟨⟨attribution, inherited⟩, _, h⟩ := bind_ok_iff.mp h
  dsimp only at h
  split at h
  · cases h
    split <;> simp
  · cases h
    simp

theorem stated_field {field : String} (h : stated cfg ctx field = .ok texts) :
    ∀ r ∈ texts, r.field = field := by
  obtain ⟨text, _, h⟩ := bind_ok_iff.mp h
  cases h
  simp [own]

theorem contact_field {key field : String} (h : contact cfg ctx key field = .ok texts) :
    ∀ r ∈ texts, r.field = field := by
  unfold contact at h
  split at h
  · obtain ⟨text, _, h⟩ := bind_ok_iff.mp h
    cases h
    intro r hr
    obtain ⟨text, _, rfl⟩ := Option.map_eq_some_iff.mp (Option.mem_toList.mp hr)
    rfl
  · cases h
    simp

/-- A reader that is neither that of the title nor that of the abstract. -/
theorem isSide_of_reader {reader : Except ConfigError (List Registration)}
    (hm : reader ∈ readers w fields cfg ctx) (ht : reader ≠ title cfg ctx)
    (ha : reader ≠ abstract w cfg ctx) (h : reader = .ok texts) : ∀ r ∈ texts, r.IsSide := by
  intro r hr
  refine isSide_of_mem_sideFields ?_
  simp only [readers, List.mem_append, List.mem_ite_nil_right, List.mem_cons, List.not_mem_nil,
    or_false] at hm
  rcases hm with (((((⟨_, rfl⟩ | ⟨_, rfl⟩) | ⟨_, rfl⟩) | ⟨_, rfl⟩) | ⟨_, rfl⟩) | ⟨_, rfl⟩) |
    ⟨_, rfl | rfl⟩
  · exact absurd rfl ht
  · exact absurd rfl ha
  · simp [keywordTexts_field h r hr, sideFields]
  · simp [attributionTexts_field h r hr, sideFields]
  · simp [stated_field h r hr, sideFields]
  · simp [stated_field h r hr, sideFields]
  · simp [contact_field h r hr, sideFields]
  · simp [contact_field h r hr, sideFields]

/-! ## The whole metadata

The texts of all readers together, where none has failed. -/

/-- Without a failure, the texts of all readers are there. -/
theorem collect_ok {given : List (Except ConfigError (List Registration))}
    (h : collect given = (texts, none)) :
    (∀ reader ∈ given, ∃ part, reader = .ok part ∧ part ⊆ texts) ∧
      ∀ r ∈ texts, ∃ reader ∈ given, ∃ part, reader = .ok part ∧ r ∈ part := by
  induction given generalizing texts with
  | nil =>
    cases h
    simp
  | cons first rest ih =>
    cases first with
    | error error => cases h
    | ok part =>
      rw [collect] at h
      cases hm : collect rest with
      | mk more failure =>
      rw [hm] at h
      obtain ⟨rfl, rfl⟩ := Prod.mk.inj h
      obtain ⟨found, origin⟩ := ih hm
      constructor
      · intro reader hreader
        rcases List.mem_cons.mp hreader with rfl | hreader
        · exact ⟨part, rfl, List.subset_append_left part more⟩
        · obtain ⟨other, hother, sub⟩ := found reader hreader
          exact ⟨other, hother, List.subset_append_of_subset_right part sub⟩
      · intro r hr
        rcases List.mem_append.mp hr with hr | hr
        · exact ⟨.ok part, List.mem_cons_self, part, rfl, hr⟩
        · obtain ⟨reader, hreader, other, hother, hr⟩ := origin r hr
          exact ⟨reader, List.mem_cons_of_mem _ hreader, other, hother, hr⟩

variable {metadata : Metadata}

theorem collect_of_parse (h : (parse w fields cfg ctx).2 = .ok metadata) :
    collect (readers w fields cfg ctx) = ((parse w fields cfg ctx).1, none) := by
  unfold parse at h ⊢
  split at h
  · cases h
  · next hc => rw [hc]

theorem mem_readers_title (h : fields.title) : title cfg ctx ∈ readers w fields cfg ctx := by
  simp [readers, h]

theorem mem_readers_abstract (h : fields.abstract) :
    abstract w cfg ctx ∈ readers w fields cfg ctx := by
  simp [readers, h]

/-- The metadata of an entry that has a title and an abstract. -/
theorem entryTexts_of_parse (ht : fields.title) (ha : fields.abstract)
    (h : (parse w fields cfg ctx).2 = .ok metadata) :
    EntryTexts ctx.label cfg (parse w fields cfg ctx).1 := by
  obtain ⟨found, origin⟩ := collect_ok (collect_of_parse h)
  constructor
  · intro field hf
    rcases List.mem_pair.mp hf with rfl | rfl
    · obtain ⟨part, hpart, sub⟩ := found _ (mem_readers_title ht)
      obtain ⟨_, value, _, _, rfl⟩ := title_ok hpart
      exact ⟨_, sub List.mem_cons_self, rfl⟩
    · obtain ⟨part, hpart, sub⟩ := found _ (mem_readers_abstract ha)
      obtain ⟨r, rfl, hlabel, hfield, _⟩ := abstract_ok hpart
      exact ⟨r, sub List.mem_cons_self, by rw [Registration.key, hlabel, hfield]⟩
  · intro r hr other field hf hkey
    obtain ⟨reader, hreader, part, hpart, hr⟩ := origin r hr
    -- A text under the key of a title or an abstract was registered by the reader of that field:
    -- the other readers register texts beside it only.
    by_cases isTitle : reader = title cfg ctx
    · obtain ⟨given, value, hgiven, hvalue, rfl⟩ := title_ok (isTitle ▸ hpart)
      cases List.mem_singleton.mp hr
      obtain ⟨rfl, rfl⟩ := Registration.eq_of_key_eq (List.mem_cons_self) hf hkey
      refine ⟨rfl, fun text found => ?_⟩
      have same : Mapping.text? cfg "title" (subject ctx) = .ok (some text) :=
        Mapping.text?_ok_iff.mpr (.inr ⟨text, found, rfl⟩)
      cases hgiven.symm.trans same
      cases hvalue
      rfl
    · by_cases isAbstract : reader = abstract w cfg ctx
      · obtain ⟨s, rfl, hlabel, hfield, hvalue⟩ := abstract_ok (isAbstract ▸ hpart)
        cases List.mem_singleton.mp hr
        have display : r.field ∈ displayFields := by simp [hfield, displayFields]
        obtain ⟨rfl, rfl⟩ := Registration.eq_of_key_eq display hf hkey
        exact ⟨hlabel, fun text found => hvalue text (hfield ▸ found)⟩
      · exact absurd hkey (isSide_of_reader hreader isTitle isAbstract hpart r hr other field hf)

/-- Where nothing stands in for it, the title is in the settings. -/
theorem exists_title_of_parse (ht : fields.title) (none : ctx.defaultTitle = none)
    (h : (parse w fields cfg ctx).2 = .ok metadata) :
    ∃ text, Table.find? cfg "title" = some (.text text) := by
  obtain ⟨found, _⟩ := collect_ok (collect_of_parse h)
  obtain ⟨part, hpart, _⟩ := found _ (mem_readers_title ht)
  obtain ⟨given, value, hgiven, hvalue, _⟩ := title_ok hpart
  rw [none, Option.or_none] at hvalue
  rcases Mapping.text?_ok_iff.mp hgiven with ⟨_, rfl⟩ | ⟨text, hfind, _⟩
  · cases hvalue
  · exact ⟨text, hfind⟩

end Metadata

end MapConfig
