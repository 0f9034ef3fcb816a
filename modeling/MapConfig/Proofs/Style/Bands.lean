import MapConfig.Proofs.Lifecycle
import MapConfig.Proofs.Loading

/-! Which bands a style reads. A name in the settings of a style goes through the style's
own names and then through those of the layer. The list of needed bands, the rules of the
value map and the index function each do this in a place of their own, at a time of their
own; all of them come to the same band. -/
namespace MapConfig

namespace BoundFunction
variable {owner : FunctionOwner} {node : Tree} {functions : Objects HostFunction}
  {f : BoundFunction}

/-- What a function has of its specification, and of the section that it is named in. -/
theorem parse_ok (h : parse (some owner) node functions = .ok f) :
    ∃ spec, FunctionSpec.parse node = .ok spec ∧ f.args = spec.args ∧ f.kwargs = spec.kwargs ∧
      f.mapper = (if spec.mapsBands then owner.mapper else none) ∧
      f.cfg? = if spec.passCfg then some owner.cfg else none := by
  obtain ⟨spec, parsed, h⟩ := bind_ok_iff.mp h
  obtain ⟨⟨name, function⟩, _, h⟩ := bind_ok_iff.mp h
  obtain ⟨mapper, mapped, h⟩ := bind_ok_iff.mp h
  cases h
  refine ⟨spec, parsed, rfl, rfl, ?_, rfl⟩
  unfold mapperOf at mapped
  split at mapped
  · next maps =>
    rw [if_pos maps]
    split at mapped
    · next own =>
      cases mapped
      exact own.symm
    · cases mapped
  · next plain =>
    cases mapped
    rw [if_neg plain]

end BoundFunction

namespace Style
variable {scope : LayerScope} {functions : Objects HostFunction} {cfg : Mapping}
  {name subject : String} {mapper resolve : BandMapper} {s : Style}
  {valueMap : Table (List ColorRule)} {rules : List ColorRule}

/-! ## What the settings name

Names as they stand in the settings of a style, without a mapper. `ReadsThrough` says of
a mapper that all parts of the style have used it. -/

/-- The name stands in the list of bands. -/
def ListsBand (raw : Tree) (name : String) : Prop :=
  ∃ items, raw.get? "needed_bands" = some (.list items) ∧ .text name ∈ items

/-- There is a rule under the name. -/
def RulesBand (raw : Tree) (name : String) : Prop :=
  ∃ entries items, raw.get? "value_map" = some (.mapping entries) ∧
    (name, .list items) ∈ entries ∧ items ≠ []

/-- The function is called as it is specified, with the mapper if it asks for one. -/
def CallsWith (f : BoundFunction) (spec : FunctionSpec) (raw : Tree) (resolve : BandMapper) :
    Prop :=
  ∀ args kwargs, f.call args kwargs = f.function {
    args := args ++ spec.args
    kwargs := Table.override spec.kwargs kwargs
    mapper := if spec.mapsBands then some resolve else none
    cfg? := if spec.passCfg then some raw else none }

/-- The index function is the one that the settings specify, if they do. -/
def IndexesBy (raw : Tree) (resolve : BandMapper) : Option BoundFunction → Prop
  | none => raw.get? "index_function" = none ∨ raw.get? "index_function" = some .null
  | some f => ∃ node spec, raw.get? "index_function" = some node ∧
      FunctionSpec.parse node = .ok spec ∧ CallsWith f spec raw resolve

/-- Every band that the style reads is one to which the mapper leads. -/
structure ReadsThrough (s : Style) (resolve : BandMapper) : Prop where
  ascending : s.neededBands.names.Pairwise (· < ·)
  resolved : ∀ name, ListsBand s.life.raw name ∨ RulesBand s.life.raw name →
    ∃ band, resolve name = .ok band
  needed_iff : ∀ band, band ∈ s.neededBands ↔
    ∃ name, (ListsBand s.life.raw name ∨ RulesBand s.life.raw name) ∧ resolve name = .ok band
  ruled_iff : ∀ name, RulesBand s.life.raw name ↔ ∃ rules, (name, rules) ∈ s.valueMap ∧ rules ≠ []
  rules : ∀ name rules, (name, rules) ∈ s.valueMap → ∀ r ∈ rules, resolve name = .ok r.rule.band
  function : IndexesBy s.life.raw resolve s.indexFunction

/-! ## Loading

Each part of the style goes through the mapper once; nothing else puts a band into the
style. -/

theorem listsBand_iff {names : List String}
    (given : Mapping.texts cfg "needed_bands" subject = .ok names) :
    ListsBand (.mapping cfg) name ↔ name ∈ names := by
  rw [ListsBand, Tree.get?_mapping]
  rcases Mapping.texts_ok_iff.mp given with ⟨absent | null, rfl⟩ | found
  · simp [absent]
  · simp [null]
  · simp [found]

/-- A rule has the band to which the name leads that it is configured under. -/
theorem mapper_of_mem_rules (h : valueMapOf cfg subject mapper = .ok valueMap)
    (hm : (name, rules) ∈ valueMap) : ∀ r ∈ rules, mapper name = .ok r.rule.band := by
  intro r hr
  obtain ⟨⟨_, _⟩, _, rfl, items, _, parsed⟩ :=
    exists_mem_of_forall₂_right (valueMapOf_ok h) hm
  obtain ⟨item, _, hitem⟩ := exists_of_mem_mapM parsed hr
  exact (ruleOf_ok hitem).2

theorem rulesBand_iff (h : valueMapOf cfg subject mapper = .ok valueMap) :
    RulesBand (.mapping cfg) name ↔ ∃ rules, (name, rules) ∈ valueMap ∧ rules ≠ [] := by
  have corresponds := valueMapOf_ok h
  rw [RulesBand, Tree.get?_mapping]
  constructor
  · rintro ⟨entries, items, found, hm, nonempty⟩
    rw [found] at corresponds
    obtain ⟨⟨_, rules⟩, hruled, rfl, _, same, parsed⟩ := exists_mem_of_forall₂ corresponds hm
    cases same
    refine ⟨rules, hruled, ?_⟩
    rintro rfl
    exact nonempty (List.forall₂_nil_right_iff.mp (mapM_ok_iff.mp parsed))
  · rintro ⟨rules, hruled, nonempty⟩
    obtain ⟨⟨_, _⟩, hm, rfl, items, rfl, parsed⟩ := exists_mem_of_forall₂_right corresponds hruled
    obtain ⟨entries, found, hm⟩ := Tree.mem_getD_mapping?.mp hm
    refine ⟨entries, items, found, hm, ?_⟩
    rintro rfl
    exact nonempty (List.forall₂_nil_left_iff.mp (mapM_ok_iff.mp parsed))

/-- The bands of the rules are those of the names that have rules. -/
theorem mem_ruled_iff (h : valueMapOf cfg subject mapper = .ok valueMap) {band : String} :
    band ∈ (Style.rules valueMap).map (fun r => r.rule.band) ↔
      ∃ name, RulesBand (.mapping cfg) name ∧ mapper name = .ok band := by
  simp only [List.mem_map, Style.rules, List.mem_flatMap, Prod.exists, rulesBand_iff h]
  constructor
  · rintro ⟨r, ⟨name, rules, hm, hr⟩, rfl⟩
    exact ⟨name, ⟨rules, hm, List.ne_nil_of_mem hr⟩, mapper_of_mem_rules h hm r hr⟩
  · rintro ⟨name, ⟨rules, hm, nonempty⟩, hband⟩
    obtain ⟨r, hr⟩ := List.exists_mem_of_ne_nil rules nonempty
    cases hband.symm.trans (mapper_of_mem_rules h hm r hr)
    exact ⟨r, ⟨name, rules, hm, hr⟩, rfl⟩

theorem indexesBy_of_parse? {f? : Option BoundFunction}
    (h : BoundFunction.parse? ⟨some resolve, .mapping cfg⟩ cfg "index_function" functions =
      .ok f?) :
    IndexesBy (.mapping cfg) resolve f? := by
  unfold BoundFunction.parse? at h
  split at h
  · next absent =>
    cases h
    exact .inl absent
  · next null =>
    cases h
    exact .inr null
  · next node _ found =>
    obtain ⟨f, parsed, rfl⟩ := map_ok_iff.mp h
    obtain ⟨spec, hspec, args, kwargs, mapper, cfg?⟩ := BoundFunction.parse_ok parsed
    refine ⟨node, spec, found, hspec, fun callArgs callKwargs => ?_⟩
    rw [BoundFunction.call, args, kwargs, mapper, cfg?]

theorem readsThrough_of_ofMapping
    (h : ofMapping (.mapping cfg) cfg name scope functions = .ok s) :
    s.ReadsThrough (mapperOf s.bandNames scope.band) := by
  obtain ⟨bandNames, _, h⟩ := bind_ok_iff.mp h
  obtain ⟨names, given, h⟩ := bind_ok_iff.mp h
  obtain ⟨listed, hlisted, h⟩ := bind_ok_iff.mp h
  obtain ⟨indexFunction, indexed, h⟩ := bind_ok_iff.mp h
  obtain ⟨valueMap, ruled, h⟩ := bind_ok_iff.mp h
  obtain ⟨_, _, h⟩ := bind_ok_iff.mp h
  obtain ⟨_, _, h⟩ := bind_ok_iff.mp h
  cases h
  -- The scope's mapper is handed on unchanged, so the rules and the function read through it.
  refine {
    ascending := NameSet.ascending _
    resolved := ?_
    needed_iff := ?_
    ruled_iff := fun name => rulesBand_iff ruled
    rules := fun name rules hm => mapper_of_mem_rules ruled hm
    function := indexesBy_of_parse? indexed }
  · rintro name (lists | hasRules)
    · obtain ⟨band, _, hband⟩ :=
        exists_mem_of_forall₂ (mapM_ok_iff.mp hlisted) ((listsBand_iff given).mp lists)
      exact ⟨band, hband⟩
    · obtain ⟨rules, hm, nonempty⟩ := (rulesBand_iff ruled).mp hasRules
      obtain ⟨r, hr⟩ := List.exists_mem_of_ne_nil rules nonempty
      exact ⟨r.rule.band, mapper_of_mem_rules ruled hm r hr⟩
  · intro band
    show band ∈ NameSet.ofList _ ↔ ∃ name, (ListsBand (.mapping cfg) name ∨
      RulesBand (.mapping cfg) name) ∧ mapperOf bandNames scope.band name = .ok band
    rw [NameSet.mem_ofList, List.mem_append, mem_iff_of_mapM hlisted, mem_ruled_iff ruled]
    simp only [listsBand_iff given, or_and_right, exists_or]

/-! ## The second phase

The parts of a style are not touched by it. -/

/-- A style that has ended its phase has the same settings, names and rules. -/
theorem readsThrough_makeReady {band : BandMapper}
    (h : s.ReadsThrough (mapperOf s.bandNames band)) :
    s.makeReady.entry.ReadsThrough (mapperOf s.makeReady.entry.bandNames band) := by
  unfold makeReady
  refine Lifecycle.finish_entry
    (motive := fun s : Style => s.ReadsThrough (mapperOf s.bandNames band)) h ?_
  intro ready hready
  cases Lifecycle.eq_ended_of_markReady hready
  exact ⟨h.ascending, h.resolved, h.needed_iff, h.ruled_iff, h.rules, h.function⟩

end Style

end MapConfig
