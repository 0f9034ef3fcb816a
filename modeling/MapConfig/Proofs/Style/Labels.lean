import MapConfig.Proofs.Decimal.RoundTrip
import MapConfig.Proofs.Inheritance
import MapConfig.Proofs.Legend.Stepped
import MapConfig.Proofs.Loading
import MapConfig.Proofs.Wording.Metadata

/-! The labels of a style's rules and ticks. A rule has its text in the registry only,
under its number over all bands; a tick has it in the registry as far as it has letters,
and in the legend. Either way it is the text that the settings give. -/
namespace MapConfig

/-! ## Texts under a new label

While no key starts with the label, the registry has nothing to say about the style, so
that whatever is read there later has been registered by the style itself. -/

namespace Wording
variable {w : Wording} {label field : String} {rs : List Registration} {value : Option String}

/-- No key starts with the label and a point. -/
def FreshAt (w : Wording) (label : String) : Prop :=
  ∀ key record, w.records.find? key = some record → ¬ (label ++ ".").toList <+: key.toList

theorem FreshAt.default?_eq (fresh : w.FreshAt label) (field : String) :
    w.default? label field = none := by
  rw [default?, Option.map_eq_none_iff]
  by_contra given
  obtain ⟨record, found⟩ := Option.ne_none_iff_exists'.mp given
  refine fresh _ record found ?_
  have parts : (key label field).toList = (label ++ ".").toList ++ field.toList :=
    String.toList_append
  rw [parts]
  exact List.prefix_append _ _

/-- All that is known of the text of a field is what is registered for it. -/
theorem FreshAt.default?_registerAll (fresh : w.FreshAt label)
    (registered : ∀ text, value = some text → ∃ r ∈ rs, r.key = key label field)
    (own : ∀ r ∈ rs, r.key = key label field → value = some r.value) :
    (w.registerAll rs).default? label field = value := by
  cases value with
  | none =>
    rw [default?_registerAll_of_other, fresh.default?_eq]
    intro r hr same
    cases own r hr same
  | some text =>
    refine default?_registerAll_of_mem (registered text rfl) fun r hr same => ?_
    exact (Option.some.inj (own r hr same)).symm

end Wording

/-! ## Labels as they are configured

The specification reads the settings only. It numbers the titles of the rules over all
bands, and puts a tick label together of its parts. -/

namespace Style
variable {scope : LayerScope} {functions : Objects HostFunction} {raw : Tree}
  {r r' : Registries} {s : Style}

/-- The titles of a band's rules. -/
def titlesOf : Tree → List String
  | .list items => items.map fun item => ((item.get? "title").bind Tree.text?).getD ""
  | _ => []

/-- The titles of all rules, band after band. -/
def configuredTitles (raw : Tree) : List String :=
  (((raw.get? "value_map").bind Tree.mapping?).getD []).flatMap fun entry => titlesOf entry.2

def configuredPart (raw : Tree) (entry part : String) : Option String :=
  (raw.at? ["legend", "tick_labels", entry, part]).bind Tree.text?

/-- The label of a tick, of which each part has a default. -/
def configuredLabel (raw : Tree) (tick : String) : String :=
  ((configuredPart raw tick "prefix").or (configuredPart raw "default" "prefix")).getD "" ++
    (configuredPart raw tick "label").getD tick ++
    ((configuredPart raw tick "suffix").or (configuredPart raw "default" "suffix")).getD ""

/-- The texts of the legend's ticks. -/
def shownTicks (s : Style) : List String := (s.legend.map Legend.tickTexts).getD []

/-- The style shows the labels that its settings give. -/
structure ShowsConfigured (s : Style) (w : Wording) : Prop where
  titles : (rules s.valueMap).map ColorRule.title = configuredTitles s.life.raw
  rule : ∀ index, s.ruleLabel w index =
    (((rules s.valueMap)[index]?).map ColorRule.title).filter fun title => title ≠ ""
  tick : ∀ tick ∈ s.shownTicks, s.tickLabel w tick = some (configuredLabel s.life.raw tick)
  other : ∀ text, text ∉ s.shownTicks → s.tickLabel w text = none

/-! ## What the settings give

Loading takes titles and labels from the settings as they are, band after band and tick
after tick. -/

theorem title_of_ruleOf {band subject : String} {mapper : BandMapper} {cfg : Tree}
    {rule : ColorRule} (h : ruleOf band subject mapper cfg = .ok rule) :
    rule.title = ((cfg.get? "title").bind Tree.text?).getD "" := by
  obtain ⟨_, _, h⟩ := bind_ok_iff.mp h
  obtain ⟨entries, mapped, h⟩ := bind_ok_iff.mp h
  obtain ⟨title, htitle, h⟩ := bind_ok_iff.mp h
  obtain ⟨_, _, h⟩ := bind_ok_iff.mp h
  cases h
  cases Tree.asMapping_ok_iff.mp mapped
  rw [Tree.get?_mapping]
  rcases Mapping.text?_ok_iff.mp htitle with ⟨absent | null, rfl⟩ | ⟨value, found, rfl⟩
  · rw [absent]
    rfl
  · rw [null]
    rfl
  · rw [found]
    rfl

/-- The bands are those of the settings, in their order, and so are the rules of each. -/
theorem entries_of_valueMapOf {cfg : Mapping} {subject : String} {mapper : BandMapper}
    {valueMap : Table (List ColorRule)} (h : valueMapOf cfg subject mapper = .ok valueMap) :
    valueMap.map (fun entry => (entry.1, entry.2.map ColorRule.title)) =
      (((Table.find? cfg "value_map").bind Tree.mapping?).getD []).map
        fun entry => (entry.1, titlesOf entry.2) := by
  refine map_eq_of_forall₂ ?_ (valueMapOf_ok h)
  rintro ⟨_, _⟩ ⟨band, rules⟩ ⟨rfl, items, rfl, parsed⟩
  refine congrArg (Prod.mk band) ?_
  exact map_eq_map_of_mapM parsed fun _ _ => title_of_ruleOf

theorem labelPart_eq_configuredPart {cfg entries : Mapping}
    (given : Table.find? cfg "legend" = some (.mapping entries)) (entry part fallback : String) :
    Legend.labelPart ((Table.find? entries "tick_labels").bind (·.get? entry)) part fallback =
      (configuredPart (.mapping cfg) entry part).getD fallback := by
  simp only [Legend.labelPart, configuredPart, Tree.at?_cons, Tree.at?_nil, Tree.get?_mapping,
    given, Option.bind_some, Option.bind_assoc, Option.bind_fun_some]

/-- The labels of the legend are those that the settings give. -/
theorem labelOf_eq_configuredLabel {cfg entries : Mapping}
    (given : Table.find? cfg "legend" = some (.mapping entries)) (tick : String) :
    Legend.labelOf (Table.find? entries "tick_labels") tick =
      configuredLabel (.mapping cfg) tick := by
  simp only [Legend.labelOf, labelPart_eq_configuredPart given, configuredLabel, Option.getD_or]

/-- What a style takes over from its settings. -/
theorem parts_of_ofMapping {cfg : Mapping} {name : String}
    (h : ofMapping raw cfg name scope functions = .ok s) :
    ∃ subject mapper ramp, valueMapOf cfg subject mapper = .ok s.valueMap ∧
      legendOf cfg name subject ramp = .ok s.legend := by
  obtain ⟨_, _, h⟩ := bind_ok_iff.mp h
  obtain ⟨_, _, h⟩ := bind_ok_iff.mp h
  obtain ⟨_, _, h⟩ := bind_ok_iff.mp h
  obtain ⟨_, _, h⟩ := bind_ok_iff.mp h
  obtain ⟨_, hvalueMap, h⟩ := bind_ok_iff.mp h
  obtain ⟨ramp, _, h⟩ := bind_ok_iff.mp h
  obtain ⟨_, hlegend, h⟩ := bind_ok_iff.mp h
  cases h
  exact ⟨_, _, ramp, hvalueMap, hlegend⟩

theorem titles_of_ofMapping {cfg : Mapping} {name : String}
    (h : ofMapping (.mapping cfg) cfg name scope functions = .ok s) :
    (rules s.valueMap).map ColorRule.title = configuredTitles (.mapping cfg) := by
  obtain ⟨_, _, _, given, _⟩ := parts_of_ofMapping h
  have entries := congrArg (List.flatMap Prod.snd) (entries_of_valueMapOf given)
  rw [List.flatMap_map, List.flatMap_map] at entries
  rw [rules, List.map_flatMap, configuredTitles, Tree.get?_mapping]
  exact entries

theorem labels_of_ofMapping {cfg : Mapping} {name : String} {legend : Legend}
    (h : ofMapping (.mapping cfg) cfg name scope functions = .ok s)
    (shown : s.legend = some legend) :
    legend.labels = legend.tickTexts.map (configuredLabel (.mapping cfg)) := by
  obtain ⟨_, _, _, _, given⟩ := parts_of_ofMapping h
  rw [shown] at given
  unfold legendOf at given
  split at given
  · cases given
  · cases given
  · next found =>
    obtain ⟨entries, mapped, given⟩ := bind_ok_iff.mp given
    obtain ⟨parsed, hparsed, given⟩ := bind_ok_iff.mp given
    cases given
    cases Tree.asMapping_ok_iff.mp mapped
    rw [Legend.labels_of_parse hparsed]
    exact List.map_congr_left fun tick _ => labelOf_eq_configuredLabel found tick

/-! ## What is registered

Fields of rules, of ticks and of the legend have different keys, also where a tick has a
text like that of a rule: a prefix tells them apart, and a number its text. -/

theorem mem_ruleTexts {label : String} {list : List ColorRule} {t : Registration} :
    t ∈ ruleTexts label list ↔ ∃ (index : Nat) (rule : ColorRule), list[index]? = some rule ∧
      rule.title ≠ "" ∧ t = ⟨label, "rule_" ++ toString index, rule.title, false⟩ := by
  simp only [ruleTexts, numberedTexts, List.mem_map, List.mem_filter, Prod.exists,
    List.mem_zipIdx_iff_getElem?, decide_eq_true_eq]
  constructor
  · rintro ⟨_, _, ⟨rule, index, ⟨found, titled⟩, same⟩, rfl⟩
    obtain ⟨rfl, rfl⟩ := Prod.mk.inj same
    exact ⟨index, rule, found, titled, rfl⟩
  · rintro ⟨index, rule, found, titled, rfl⟩
    exact ⟨index, rule.title, ⟨rule, index, ⟨found, titled⟩, rfl⟩, rfl⟩

theorem mem_tickTexts {label : String} {ticks : List (String × String)} {t : Registration} :
    t ∈ tickTexts label ticks ↔ ∃ tick text, (tick, text) ∈ ticks ∧
      text.toList.any Text.isAlphabetic ∧ t = ⟨label, "lbl_" ++ tick, text, false⟩ := by
  simp only [tickTexts, List.mem_map, List.mem_filter, Prod.exists]
  constructor
  · rintro ⟨tick, text, ⟨hm, lettered⟩, rfl⟩
    exact ⟨tick, text, hm, lettered, rfl⟩
  · rintro ⟨tick, text, hm, lettered, rfl⟩
    exact ⟨tick, text, ⟨hm, lettered⟩, rfl⟩

theorem mem_registrations {t : Registration} : t ∈ s.registrations ↔
    t ∈ ruleTexts s.label (rules s.valueMap) ∨ ∃ legend, s.legend = some legend ∧
      ((∃ units, legend.units = some units ∧ ⟨s.label, "units", units, false⟩ = t) ∨
        t ∈ tickTexts s.label (legend.tickTexts.zip legend.labels)) := by
  rw [registrations, List.mem_append]
  cases s.legend with
  | none => simp
  | some legend =>
    simp only [Option.map_some, Option.getD_some, legendTexts, List.mem_append, Option.mem_toList,
      Option.map_eq_some_iff, Option.some.injEq, exists_eq_left']

/-- A number is told by its text. -/
theorem ruleField_inj {m n : Nat} (h : "rule_" ++ toString m = "rule_" ++ toString n) : m = n := by
  have digits := congrArg String.toList h
  rw [String.toList_append, String.toList_append, List.append_cancel_left_eq] at digits
  rw [← digitsValue_toString m, digits, digitsValue_toString]

theorem tickField_inj {tick other : String} (h : "lbl_" ++ tick = "lbl_" ++ other) :
    tick = other := by
  have chars := congrArg String.toList h
  rw [String.toList_append, String.toList_append, List.append_cancel_left_eq] at chars
  exact String.toList_injective chars

theorem ruleField_ne_tickField (index : Nat) (tick : String) :
    "rule_" ++ toString index ≠ "lbl_" ++ tick := by
  intro h
  have first := congrArg (fun field => field.toList.head?) h
  simp [String.toList_append] at first

theorem not_endsInDigit_units : ¬ EndsInDigit "units".toList := by
  rintro ⟨c, last, digit⟩
  cases last
  cases digit

theorem displayField_of_parse {w : Wording} {cfg : Mapping} {ctx : MetadataContext}
    {metadata : Metadata} (h : (Metadata.parse w {} cfg ctx).2 = .ok metadata) :
    ∀ t ∈ (Metadata.parse w {} cfg ctx).1, t.field ∈ displayFields := by
  intro t ht
  obtain ⟨_, origin⟩ := Metadata.collect_ok (Metadata.collect_of_parse h)
  obtain ⟨reader, hreader, part, hpart, ht⟩ := origin t ht
  rcases List.mem_pair.mp hreader with rfl | rfl
  · obtain ⟨_, _, _, _, rfl⟩ := Metadata.title_ok hpart
    simp [List.mem_singleton.mp ht, Metadata.own, displayFields]
  · obtain ⟨_, rfl, _, field, _⟩ := Metadata.abstract_ok hpart
    simp [List.mem_singleton.mp ht, field, displayFields]

/-- The registered texts of a style are numbered titles, its unit, and labels of ticks. -/
theorem registration_cases {t : Registration} (h : t ∈ s.registrations) : t.label = s.label ∧
    ((∃ (index : Nat) (rule : ColorRule), (rules s.valueMap)[index]? = some rule ∧
        rule.title ≠ "" ∧ t.field = "rule_" ++ toString index ∧ t.value = rule.title) ∨
      t.field = "units" ∨
      ∃ legend tick, s.legend = some legend ∧ (tick, t.value) ∈ legend.tickTexts.zip legend.labels ∧
        t.value.toList.any Text.isAlphabetic ∧ t.field = "lbl_" ++ tick) := by
  rcases mem_registrations.mp h with ruled | ⟨legend, shown, ⟨units, _, rfl⟩ | ticked⟩
  · obtain ⟨index, rule, found, titled, rfl⟩ := mem_ruleTexts.mp ruled
    exact ⟨rfl, .inl ⟨index, rule, found, titled, rfl, rfl⟩⟩
  · exact ⟨rfl, .inr (.inl rfl)⟩
  · obtain ⟨tick, text, hm, lettered, rfl⟩ := mem_tickTexts.mp ticked
    exact ⟨rfl, .inr (.inr ⟨legend, tick, shown, hm, lettered, rfl⟩)⟩

theorem key_eq_iff {t : Registration} (h : t ∈ s.registrations) {field : String} :
    t.key = Wording.key s.label field ↔ t.field = field := by
  rw [Registration.key, (registration_cases h).1]
  exact ⟨Wording.key_inj, fun same => same ▸ rfl⟩

/-- The text of a numbered field is what the style registers for it. -/
theorem default?_of_loads (h : Loads scope functions raw r s r')
    (fresh : r.wording.FreshAt s.label) {field : String} (ends : EndsInDigit field.toList)
    {value : Option String}
    (registered : ∀ text, value = some text → ∃ t ∈ s.registrations, t.field = field)
    (own : ∀ t ∈ s.registrations, t.field = field → value = some t.value) :
    r'.wording.default? s.label field = value := by
  cases h with
  | intro _ _ described _ _ =>
    refine fresh.default?_registerAll (fun text given => ?_) fun t ht same => ?_
    · obtain ⟨t, ht, same⟩ := registered text given
      exact ⟨t, List.mem_append_right _ ht, (key_eq_iff ht).mpr same⟩
    · rcases List.mem_append.mp ht with ht | ht
      · have side : (⟨s.label, field, "", false⟩ : Registration).IsSide :=
          Registration.isSide_of_endsInDigit ends
        exact absurd same.symm (side t.label t.field (displayField_of_parse described t ht))
      · exact own t ht ((key_eq_iff ht).mp same)

/-! ## What is shown

A label without a letter is not registered and is then the one of the legend, which is
the same text. -/

theorem Loads.bare (h : Loads scope functions raw r s r') (bare : r.wording.Bare) :
    r'.wording.Bare := by
  cases h
  exact bare.registerAll _

/-- Under the number of a rule stands its title, if it has one. -/
theorem ruleLabel_eq (h : Loads scope functions raw r s r') (bare : r.wording.Bare)
    (fresh : r.wording.FreshAt s.label) (index : Nat) : s.ruleLabel r'.wording index =
      (((rules s.valueMap)[index]?).map ColorRule.title).filter fun title => title ≠ "" := by
  have ends : EndsInDigit ("rule_" ++ toString index).toList := by
    rw [String.toList_append]
    exact (EndsInDigit.of_nat index).append _
  rw [ruleLabel, (h.bare bare).read_eq]
  refine default?_of_loads h fresh ends (fun title given => ?_) fun t ht same => ?_
  · obtain ⟨given, titled⟩ := Option.filter_eq_some_iff.mp given
    obtain ⟨rule, found, rfl⟩ := Option.map_eq_some_iff.mp given
    have titled : rule.title ≠ "" := of_decide_eq_true titled
    exact ⟨_, mem_registrations.mpr
      (.inl (mem_ruleTexts.mpr ⟨index, rule, found, titled, rfl⟩)), rfl⟩
  · obtain ⟨_, ⟨number, rule, found, titled, field, value⟩ | field | ⟨_, tick, _, _, _, field⟩⟩ :=
      registration_cases ht
    · rw [ruleField_inj (same.symm.trans field), found, value, Option.map_some, Option.filter_some,
        if_pos (decide_eq_true titled)]
    · exact absurd (same.symm.trans field ▸ ends) not_endsInDigit_units
    · exact absurd (same.symm.trans field) (ruleField_ne_tickField index tick)

theorem mem_zip_map {α β : Type} {list : List α} {f : α → β} {a : α} {b : β} :
    (a, b) ∈ list.zip (list.map f) ↔ a ∈ list ∧ b = f a := by
  induction list with
  | nil => simp
  | cons first rest ih =>
    simp only [List.map_cons, List.zip_cons_cons, List.mem_cons, Prod.mk.injEq, ih, or_and_right]
    refine or_congr_left (and_congr_right fun same => ?_)
    rw [same]

theorem find?_zip_map {list : List String} {f : String → String} {a : String} (hm : a ∈ list) :
    (list.zip (list.map f)).find? (fun entry => entry.1 = a) = some (a, f a) := by
  have found : ((list.zip (list.map f)).find? fun entry => entry.1 = a).isSome :=
    List.find?_isSome.mpr ⟨(a, f a), mem_zip_map.mpr ⟨hm, rfl⟩, decide_eq_true rfl⟩
  obtain ⟨⟨b, c⟩, first⟩ := Option.isSome_iff_exists.mp found
  obtain rfl : b = a := by simpa using List.find?_some first
  rw [first, (mem_zip_map.mp (List.mem_of_find?_eq_some first)).2]

/-- A text that can only be the one to fall back on makes no difference. -/
theorem filter_or_some {o : Option String} {p : String → Bool} {text : String}
    (same : ∀ given, o = some given → given = text) : (o.filter p).or (some text) = some text := by
  cases o with
  | none => rfl
  | some given =>
    rw [same given rfl, Option.filter_some]
    split <;> rfl

/-- A tick is shown with the label that the legend has for it. -/
theorem tickLabel_eq (h : Loads scope functions raw r s r') (bare : r.wording.Bare)
    (fresh : r.wording.FreshAt s.label) {legend : Legend} (shown : s.legend = some legend)
    {label : String → String} (labelled : legend.labels = legend.tickTexts.map label)
    {tick : String} (hm : tick ∈ legend.tickTexts) :
    s.tickLabel r'.wording tick = some (label tick) := by
  have ends : EndsInDigit ("lbl_" ++ tick).toList := by
    obtain ⟨d, _, rfl⟩ := List.mem_map.mp hm
    rw [String.toList_append]
    exact (EndsInDigit.of_decimal d).append _
  have read : r'.wording.read s.label ("lbl_" ++ tick) =
      (some (label tick)).filter fun text => text.toList.any Text.isAlphabetic := by
    rw [(h.bare bare).read_eq]
    refine default?_of_loads h fresh ends (fun text given => ?_) fun t ht same => ?_
    · obtain ⟨given, lettered⟩ := Option.filter_eq_some_iff.mp given
      cases given
      have ticked : (tick, label tick) ∈ legend.tickTexts.zip legend.labels := by
        rw [labelled, mem_zip_map]
        exact ⟨hm, rfl⟩
      refine ⟨⟨s.label, "lbl_" ++ tick, label tick, false⟩, ?_, rfl⟩
      refine mem_registrations.mpr (.inr ⟨legend, shown, .inr (mem_tickTexts.mpr ?_)⟩)
      exact ⟨tick, label tick, ticked, lettered, rfl⟩
    -- Of what a style registers, only the label of this very tick has its field.
    · obtain ⟨_, ⟨index, _, _, _, field, _⟩ | field | ⟨legend', tick', shown', ticked, lettered,
        field⟩⟩ := registration_cases ht
      · exact absurd (field.symm.trans same) (ruleField_ne_tickField index tick)
      · exact absurd (same.symm.trans field ▸ ends) not_endsInDigit_units
      · cases shown.symm.trans shown'
        rw [labelled, mem_zip_map, ← tickField_inj (same.symm.trans field)] at ticked
        rw [← ticked.2, Option.filter_some, if_pos lettered]
  simp only [tickLabel, shown, labelled, Option.bind_eq_bind, Option.bind_some, find?_zip_map hm,
    read]
  exact filter_or_some fun given h => (Option.some.inj (Option.filter_eq_some_iff.mp h).1).symm

theorem tickLabel_of_not_mem (w : Wording) {text : String} (other : text ∉ s.shownTicks) :
    s.tickLabel w text = none := by
  unfold tickLabel
  unfold shownTicks at other
  cases shown : s.legend with
  | none => rfl
  | some legend =>
    rw [shown] at other
    have absent : (legend.tickTexts.zip legend.labels).find? (fun entry => entry.1 = text) =
        none := by
      rw [List.find?_eq_none]
      rintro ⟨tick, label⟩ hm same
      exact other (of_decide_eq_true same ▸ (List.of_mem_zip hm).1)
    simp only [Option.bind_eq_bind, Option.bind_some, absent, Option.bind_none]

/-- The bands of a value map ascend, as they do in canonical settings. -/
theorem sorted_of_ofMapping {cfg : Mapping} {name : String}
    (canonical : (Tree.mapping cfg).Canonical)
    (h : ofMapping (.mapping cfg) cfg name scope functions = .ok s) : s.valueMap.Sorted := by
  obtain ⟨_, _, _, given, _⟩ := parts_of_ofMapping h
  have bands := congrArg (List.map Prod.fst) (entries_of_valueMapOf given)
  rw [List.map_map, List.map_map] at bands
  have sorted : Table.Sorted
      (((Table.find? cfg "value_map").bind Tree.mapping?).getD []) := by
    cases found : (Table.find? cfg "value_map").bind Tree.mapping? with
    | none => exact List.Pairwise.nil
    | some entries =>
      obtain ⟨tree, htree, mapped⟩ := Option.bind_eq_some_iff.mp found
      cases tree with
      | mapping own =>
        cases mapped
        exact (Tree.canonical_mapping_iff.mp (canonical.value htree)).1
      | _ => cases mapped
  show (s.valueMap.map Prod.fst).Pairwise (· < ·)
  exact bands ▸ sorted

theorem Loads.exists_settings (h : Loads scope functions raw r s r') : ∃ cfg name,
    Inheritance.expand raw .style r.catalogue none (layerKeys scope.name) = .ok (.mapping cfg) ∧
      ofMapping (.mapping cfg) cfg name scope functions = .ok s ∧ s.life.raw = .mapping cfg := by
  cases h with
  | intro expanded _ _ parts _ =>
    obtain ⟨life, _⟩ := ofMapping_ok parts
    exact ⟨_, _, expanded, parts, by rw [life]; rfl⟩

/-- A style that is loaded under a label of its own shows the labels that its settings
give: under the number of a rule, counted over its bands in their order, the title of
the rule, and for a tick of its legend the label of the tick. -/
theorem labels_as_configured (h : load raw scope functions r = .ok (s, r'))
    (bare : r.wording.Bare) (fresh : r.wording.FreshAt s.label) :
    s.ShowsConfigured r'.wording ∧
      (raw.Canonical → Inheritance.CanonicalRecords r.catalogue → s.valueMap.Sorted) := by
  have loads := loads_of_load h
  obtain ⟨cfg, name, expanded, parts, settings⟩ := loads.exists_settings
  refine ⟨⟨?_, ruleLabel_eq loads bare fresh, fun tick hm => ?_,
    fun text => tickLabel_of_not_mem r'.wording⟩, fun canonical records => ?_⟩
  · rw [settings]
    exact titles_of_ofMapping parts
  · rw [settings]
    unfold shownTicks at hm
    cases shown : s.legend with
    | none =>
      rw [shown] at hm
      cases hm
    | some legend =>
      rw [shown] at hm
      exact tickLabel_eq loads bare fresh shown (labels_of_ofMapping parts shown) hm
  · exact sorted_of_ofMapping (Inheritance.canonical_of_expand canonical records expanded) parts

/-- Rules of two bands, the second of them without a title, and two ticks, of which the
first has a label without letters. -/
def labelledTree : Tree := .mapping [
  ("abstract", .text "One style"),
  ("legend", .mapping [
    ("tick_labels", .mapping [
      ("1", .mapping [("label", .text "one")]),
      ("default", .mapping [("prefix", .text "<")])]),
    ("ticks", .list [.text "0.5", .text "1"])]),
  ("name", .text "s"),
  ("title", .text "Style"),
  ("value_map", .mapping [
    ("b", .list [
      .mapping [("color", .text "#ffffff"), ("title", .text "Low"),
        ("values", .list [.number (.whole 1)])],
      .mapping [("color", .text "#ffffff"), ("values", .list [.number (.whole 2)])]]),
    ("c", .list [
      .mapping [("color", .text "#ffffff"), ("title", .text "High"),
        ("values", .list [.number (.whole 3)])]])])]

theorem labels_as_configured_twoBands : ∃ s r',
    load labelledTree ⟨"l", ["p"], [], .ok, .null⟩ Objects.empty ⟨.empty, .empty⟩ = .ok (s, r') ∧
      s.valueMap.Sorted ∧
      [0, 1, 2, 3].map (s.ruleLabel r'.wording) = [some "Low", none, some "High", none] ∧
      ["0.5", "1", "2"].map (s.tickLabel r'.wording) = [some "<0.5", some "<one", none] := by
  have tested : (load labelledTree ⟨"l", ["p"], [], .ok, .null⟩ Objects.empty
      ⟨.empty, .empty⟩).toOption.any (fun loaded => decide (
        (rules loaded.1.valueMap).map ColorRule.title = ["Low", "", "High"] ∧
          loaded.1.shownTicks = ["0.5", "1"] ∧
          ["0.5", "1"].map (configuredLabel loaded.1.life.raw) = ["<0.5", "<one"])) = true := by
    decide +kernel
  obtain ⟨⟨s, r'⟩, loaded, expected⟩ := exists_ok_of_any tested
  obtain ⟨titles, ticks, labels⟩ := of_decide_eq_true expected
  have fresh : Wording.empty.FreshAt s.label := fun _ _ found => by cases found
  obtain ⟨shows, sorted⟩ := labels_as_configured loaded ⟨rfl, rfl⟩ fresh
  refine ⟨s, r', loaded, sorted (by decide +kernel) (by simp [Inheritance.CanonicalRecords,
    Catalogue.empty]), ?_, ?_⟩
  · simp only [List.map_cons, List.map_nil, shows.rule, ← List.getElem?_map, titles]
    decide
  · rw [List.map_cons, List.map_cons, List.map_nil, List.cons.injEq, List.cons.injEq] at labels
    rw [List.map_cons, List.map_cons, List.map_cons, List.map_nil,
      shows.tick "0.5" (by simp [ticks]), shows.tick "1" (by simp [ticks]),
      shows.other "2" (by simp [ticks]), labels.1, labels.2.1]

end Style

end MapConfig
