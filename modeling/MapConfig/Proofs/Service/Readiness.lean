import MapConfig.Proofs.Service.SecondPhase

/-! What a successful second phase has done to a service: which of its entries are
ready. The rules of value maps are the exception. They are entries as well, but a
style ends its own phase only, so each stays as it was loaded. -/
namespace MapConfig

namespace Layer
variable {l l' : Layer} {dc : Datacube}

/-- The entries of a layer but the rules of its styles. -/
def lifecycles (l : Layer) : List Lifecycle :=
  l.life :: l.bands.life :: (l.flagBands.map FlagBand.life ++ l.styles.map Style.life)

/-- The rules of the styles of a layer. -/
def rules (l : Layer) : List MaskRule :=
  l.styles.flatMap fun s => (Style.rules s.valueMap).map ColorRule.rule

theorem Readies.isReady_of_mem (h : l.Readies dc l') : ∀ life ∈ l'.lifecycles, life.isReady := by
  cases h with
  | @intro products lowResProducts bands flagBands flagGroups found foundLowRes measured flagged =>
    intro life hm
    rcases List.mem_cons.mp hm with rfl | hm
    · rfl
    rcases List.mem_cons.mp hm with rfl | hm
    · obtain ⟨_, _, rfl⟩ := map_ok_iff.mp measured
      rfl
    rcases List.mem_append.mp hm with hm | hm
    · obtain ⟨f', hf', rfl⟩ := List.mem_map.mp hm
      obtain ⟨f, _, hf⟩ := exists_of_mem_mapM (mapM_ok_iff.mpr flagged) hf'
      obtain ⟨_, _, rfl⟩ := map_ok_iff.mp hf
      rfl
    · rw [List.map_map] at hm
      obtain ⟨s, _, rfl⟩ := List.mem_map.mp hm
      rfl

theorem Readies.rules_eq (h : l.Readies dc l') : l'.rules = l.rules := by
  cases h
  exact List.flatMap_map ..

theorem Loads.isReady_of_mem_rules {above : Heritage} {functions : Objects HostFunction}
    {raw : Tree} {r r' : Registries} (h : Loads above functions raw r l r') :
    ∀ rule ∈ l.rules, rule.life.isReady = false := by
  intro rule hm
  obtain ⟨s, hs, hm⟩ := List.mem_flatMap.mp hm
  obtain ⟨r, hr, rfl⟩ := List.mem_map.mp hm
  exact (h.styles_fit s hs).rules r hr

end Layer

namespace Service
variable {s after : Service} {raw : Tree} {functions : Objects HostFunction} {dc : Datacube}

/-- The service and all of its entries but the rules of value maps. -/
def lifecycles (s : Service) : List Lifecycle := s.life :: s.layers.flatMap Layer.lifecycles

def rules (s : Service) : List MaskRule := s.layers.flatMap Layer.rules

def EveryEntryReady (s : Service) : Prop :=
  (∀ life ∈ s.lifecycles, life.isReady) ∧ ∀ rule ∈ s.rules, rule.life.isReady

theorem isReady_of_readied (h : s.readied dc = .ok after) :
    ∀ life ∈ after.lifecycles, life.isReady := by
  obtain ⟨layers, hlayers, rfl⟩ := readied_ok_iff.mp h
  intro life hm
  rcases List.mem_cons.mp hm with rfl | hm
  · rfl
  · obtain ⟨l', hl', hm⟩ := List.mem_flatMap.mp hm
    obtain ⟨l, _, hl⟩ := exists_of_mem_mapM (mapM_ok_iff.mpr hlayers) hl'
    exact (Layer.readies_of_readied hl).isReady_of_mem life hm

theorem rules_of_readied (h : s.readied dc = .ok after) : after.rules = s.rules := by
  obtain ⟨layers, hlayers, rfl⟩ := readied_ok_iff.mp h
  have same : layers.map Layer.rules = s.layers.map Layer.rules := by
    refine map_eq_of_forall₂ (fun l l' hl => ?_) hlayers
    exact (Layer.readies_of_readied hl).rules_eq
  rw [rules, rules, List.flatMap_def, List.flatMap_def, same]

theorem isReady_of_mem_rules (h : ofTree raw functions = .ok s) :
    ∀ rule ∈ s.rules, rule.life.isReady = false := by
  intro rule hm
  obtain ⟨l, hl, hm⟩ := List.mem_flatMap.mp hm
  obtain ⟨_, _, _, _, loads⟩ := exists_loads_of_mem h hl
  exact loads.isReady_of_mem_rules rule hm

/-- A successful second phase makes every entry ready but the rules of value
maps, none of which is. So every entry is ready exactly where no style has a rule. -/
theorem only_rules_unready (h : ofTree raw functions = .ok s) (attempts : List Datacube)
    (made : ((s.attempted attempts).makeReady dc).outcome = .ok after) :
    (∀ life ∈ after.lifecycles, life.isReady) ∧
      (∀ rule ∈ after.rules, rule.life.isReady = false) ∧
      (after.EveryEntryReady ↔ s.rules = []) := by
  rw [outcome_attempted (fillable_of_ofTree h)] at made
  have entries := isReady_of_readied made
  have unready := isReady_of_mem_rules h
  have same := rules_of_readied made
  refine ⟨entries, by rwa [same], fun every => ?_, fun none => ⟨entries, by simp [same, none]⟩⟩
  rw [← same] at unready ⊢
  refine List.eq_nil_iff_forall_not_mem.mpr fun rule hm => ?_
  cases (unready rule hm).symm.trans (every.2 rule hm)

/-! ### A style with a rule

Everything else about the service is ready, whatever was tried before. -/

/-- The only style draws the pixels of one value. -/
def ruledTree : Tree := .mapping [
  ("global", .mapping [("title", .text "Service")]),
  ("layers", .list [.mapping [
    ("abstract", .text "One layer"),
    ("bands", .mapping [("b", .list [])]),
    ("name", .text "l"),
    ("product_name", .text "p"),
    ("styling", .mapping [("styles", .list [.mapping [
      ("abstract", .text "One style"),
      ("name", .text "s"),
      ("title", .text "Style"),
      ("value_map", .mapping [("b", .list [.mapping [
        ("color", .text "#ffffff"), ("values", .list [.number (.whole 1)])]])])]])]),
    ("title", .text "Layer")]])]

theorem exists_ruled : ∃ s after, ofTree ruledTree Objects.empty = .ok s ∧ s.rules ≠ [] ∧
    (s.makeReady (Layer.oneMeasurement "b" [])).outcome = .ok after := by
  have tested : (ofTree ruledTree Objects.empty).toOption.any (fun s =>
      !s.rules.isEmpty && (s.makeReady (Layer.oneMeasurement "b" [])).failure?.isNone) = true := by
    decide +kernel
  obtain ⟨s, hs, hp⟩ := exists_ok_of_any tested
  obtain ⟨ruled, succeeds⟩ := Bool.and_eq_true_iff.mp hp
  exact ⟨s, _, hs, by simpa using ruled,
    Attempt.outcome_ok_iff.mpr ⟨Option.isNone_iff_eq_none.mp succeeds, rfl⟩⟩

/-- All but the rule is ready, also when an attempt has failed before. -/
theorem only_rules_unready_ruled : ∃ s after, ofTree ruledTree Objects.empty = .ok s ∧
    ((s.attempted [[]]).makeReady (Layer.oneMeasurement "b" [])).outcome = .ok after ∧
    (∀ life ∈ after.lifecycles, life.isReady) ∧
    (∀ rule ∈ after.rules, rule.life.isReady = false) ∧
    ¬ after.EveryEntryReady := by
  obtain ⟨s, after, hs, ruled, made⟩ := exists_ruled
  have fillable := fillable_of_ofTree hs
  have made : ((s.attempted [[]]).makeReady (Layer.oneMeasurement "b" [])).outcome = .ok after := by
    rw [outcome_attempted fillable, ← outcome_makeReady fillable, made]
  obtain ⟨entries, rules, every⟩ := only_rules_unready hs [[]] made
  exact ⟨s, after, hs, made, entries, rules, fun h => ruled (every.mp h)⟩

/-- So it is not so that a successful second phase makes every entry ready. -/
theorem not_every_entry_ready : ¬ ∀ raw functions s dc after, ofTree raw functions = .ok s →
    (s.makeReady dc).outcome = .ok after → after.EveryEntryReady := by
  intro every
  obtain ⟨s, after, hs, ruled, made⟩ := exists_ruled
  have ready := every _ _ s _ after hs made
  rw [outcome_makeReady (fillable_of_ofTree hs)] at made
  obtain ⟨rule, hm⟩ := List.exists_mem_of_ne_nil _ ruled
  have unready := isReady_of_mem_rules hs rule hm
  cases unready.symm.trans (ready.2 rule (by rwa [rules_of_readied made]))

end Service

end MapConfig
