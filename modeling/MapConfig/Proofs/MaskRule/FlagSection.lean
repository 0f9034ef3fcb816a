import MapConfig.MaskRule
import MapConfig.Proofs.Results
import MapConfig.Proofs.Tree

/-! Which of the flags that a section names its mask rule has. A section has flags of
its own, or a group of them under `and` or `or`. The flags of the rule are those of the
group where there is one, so flags that stand beside a group are lost unless the group
has them too. -/
namespace MapConfig.MaskRule

variable {flags expected : Mapping} {any : Bool} {name subject : String} {state : Tree}

/-! ## What a section names

The specification reads the section without choosing: a flag is named by an entry of its
own or by an entry of a group. -/

def IsGroupKey (key : String) : Prop := key = "and" ∨ key = "or"

/-- The flag is an entry of the section itself. -/
def HasOwnFlag (flags : Mapping) (name : String) (state : Tree) : Prop :=
  ¬ IsGroupKey name ∧ Table.find? flags name = some state

def HasGroup (flags group : Mapping) : Prop :=
  ∃ key, IsGroupKey key ∧ Table.find? flags key = some (.mapping group)

/-- The section names the flag with its expected state, by itself or in a group. -/
def NamesFlag (flags : Mapping) (name : String) (state : Tree) : Prop :=
  HasOwnFlag flags name state ∨ ∃ group, HasGroup flags group ∧ Table.find? group name = some state

/-- Flags that stand beside a group are in the group as well. -/
def NoneBesideGroup (flags : Mapping) : Prop :=
  ∀ group, HasGroup flags group →
    ∀ name state, HasOwnFlag flags name state → Table.find? group name = some state

/-! ## What a rule takes over

Reading does choose. It takes the section as a whole or one group of it, `TakenOver`,
and the two agree exactly where the rest of the section has nothing of its own. -/

/-- The flags that are taken over from a section: all without a group, and else those
of the only group. -/
inductive TakenOver (flags : Mapping) : Mapping → Prop where
  | whole (no_group : ∀ key, IsGroupKey key → Table.find? flags key = none) : TakenOver flags flags
  | grouped {group : Mapping} (only : ∀ other, HasGroup flags other ↔ other = group) :
      TakenOver flags group

theorem TakenOver.of_key {key other : String} (keys : ∀ k, IsGroupKey k ↔ k = key ∨ k = other)
    (given : Table.find? flags key = some (.mapping expected))
    (absent : Table.find? flags other = none) : TakenOver flags expected := by
  refine .grouped fun group => ⟨?_, ?_⟩
  · rintro ⟨k, isKey, found⟩
    rcases (keys k).mp isKey with rfl | rfl
    · rw [given] at found
      cases found
      rfl
    · rw [absent] at found
      cases found
  · rintro rfl
    exact ⟨key, (keys key).mpr (.inl rfl), given⟩

theorem takenOver_of_flagGroup (h : flagGroup flags subject = .ok (expected, any)) :
    TakenOver flags expected := by
  unfold flagGroup at h
  dsimp only at h
  split at h
  · cases h
  · next no_and given =>
    split at h
    · cases h
      exact .of_key (fun k => or_comm) given no_and
    · cases h
  · next given no_or =>
    split at h
    · cases h
      exact .of_key (fun k => Iff.rfl) given no_or
    · cases h
  · next no_and no_or =>
    cases h
    refine .whole ?_
    rintro key (rfl | rfl)
    · exact no_and
    · exact no_or

/-- What is taken over has been named. -/
theorem TakenOver.names (h : TakenOver flags expected)
    (written : Table.find? expected name = some state) : NamesFlag flags name state := by
  cases h with
  | whole no_group =>
    refine .inl ⟨fun isKey => ?_, written⟩
    rw [no_group name isKey] at written
    cases written
  | grouped only => exact .inr ⟨expected, (only expected).mpr rfl, written⟩

theorem TakenOver.keeps_iff (h : TakenOver flags expected) :
    (∀ name state, NamesFlag flags name state → Table.find? expected name = some state) ↔
      NoneBesideGroup flags := by
  cases h with
  -- Without a group the whole section is taken over, and no flag can be dropped.
  | whole no_group =>
    have without : ∀ group, ¬ HasGroup flags group := by
      rintro group ⟨key, isKey, given⟩
      rw [no_group key isKey] at given
      cases given
    constructor
    · intro _ group given
      exact absurd given (without group)
    · rintro _ name state (⟨_, written⟩ | ⟨group, given, _⟩)
      · exact written
      · exact absurd given (without group)
  -- Of a group only its own flags are, so any other flag has to be one of them.
  | grouped only =>
    constructor
    · intro kept group given name state own
      rw [(only group).mp given]
      exact kept name state (.inl own)
    · rintro none_beside name state (own | ⟨group, given, written⟩)
      · exact none_beside expected ((only expected).mpr rfl) name state own
      · rwa [(only group).mp given] at written

/-! ## From the configuration to the condition

A rule with a condition on flags has been read from a section of flags. -/

theorem flagGroup_of_flagsOf {cfg : Mapping}
    (h : flagsOf cfg subject = .ok (some (.flags expected any))) :
    ∃ flags, Table.find? cfg "flags" = some (.mapping flags) ∧
      flagGroup flags subject = .ok (expected, any) := by
  unfold flagsOf at h
  split at h
  · cases h
  · cases h
  · next flags found =>
    obtain ⟨⟨_, _⟩, grouped, h⟩ := bind_ok_iff.mp h
    dsimp only at h
    split at h
    · cases h
    · cases h
      exact ⟨flags, found, grouped⟩
  · cases h

theorem values_of_valuesOf {cfg : Mapping} {condition : MaskCondition}
    (h : valuesOf cfg subject = .ok (some condition)) : ∃ values, condition = .values values := by
  unfold valuesOf at h
  split at h
  · cases h
  · cases h
  all_goals
    dsimp only at h
    split at h
    · cases h
    · cases h
      exact ⟨_, rfl⟩
    · cases h

theorem flagsOf_of_conditionOf {cfg : Mapping}
    (h : conditionOf cfg subject = .ok (.flags expected any)) :
    flagsOf cfg subject = .ok (some (.flags expected any)) := by
  obtain ⟨_, fromFlags, h⟩ := bind_ok_iff.mp h
  obtain ⟨_, fromValues, h⟩ := bind_ok_iff.mp h
  split at h
  · cases h
  · cases h
    exact fromFlags
  · cases h
    obtain ⟨_, other⟩ := values_of_valuesOf fromValues
    cases other
  · cases h

section
variable {band : String} {cfg : Tree} {mapper : Option BandMapper} {r : MaskRule}

theorem conditionOf_of_parse (h : parse band cfg subject mapper = .ok r) :
    ∃ entries, cfg = .mapping entries ∧ conditionOf entries subject = .ok r.condition := by
  obtain ⟨entries, isMapping, h⟩ := bind_ok_iff.mp h
  refine ⟨entries, Tree.asMapping_ok_iff.mp isMapping, ?_⟩
  cases mapper
  all_goals
    obtain ⟨_, _, h⟩ := bind_ok_iff.mp h
    obtain ⟨_, parsed, h⟩ := bind_ok_iff.mp h
    cases h
    exact parsed

theorem takenOver_of_parse (h : parse band cfg subject mapper = .ok r)
    (condition : r.condition = .flags expected any) :
    ∃ flags, cfg.get? "flags" = some (.mapping flags) ∧ TakenOver flags expected := by
  obtain ⟨entries, rfl, parsed⟩ := conditionOf_of_parse h
  rw [condition] at parsed
  obtain ⟨flags, found, grouped⟩ := flagGroup_of_flagsOf (flagsOf_of_conditionOf parsed)
  exact ⟨flags, found, takenOver_of_flagGroup grouped⟩

/-- A rule with a flags condition has no flag but those that its section names, and it
has all of them, each with its expected state, exactly when none stands beside a group
without being in it. -/
theorem keeps_flags_iff (h : parse band cfg subject mapper = .ok r)
    (condition : r.condition = .flags expected any) :
    ∃ flags, cfg.get? "flags" = some (.mapping flags) ∧
      (∀ name state, Table.find? expected name = some state → NamesFlag flags name state) ∧
      ((∀ name state, NamesFlag flags name state → Table.find? expected name = some state) ↔
        NoneBesideGroup flags) := by
  obtain ⟨flags, found, taken⟩ := takenOver_of_parse h condition
  exact ⟨flags, found, fun _ _ => taken.names, taken.keeps_iff⟩

end

/-- An inverted rule with an `or` group and nothing beside it. -/
def groupedRule : Tree := .mapping [
  ("flags", .mapping [("or", .mapping [("cloud", .bool true), ("water", .bool false)])]),
  ("invert", .bool true)]

theorem noneBesideGroup_singleton {key : String} (isKey : IsGroupKey key) (given : Tree) :
    NoneBesideGroup [(key, given)] := by
  rintro group _ name state ⟨plain, written⟩
  rw [Table.find?] at written
  split at written
  · next same => exact absurd (same ▸ isKey) plain
  · cases written

theorem keeps_flags_iff_grouped : ∃ r expected flags,
    parse "fmask" groupedRule "style s" none = .ok r ∧ r.condition = .flags expected true ∧
      groupedRule.get? "flags" = some (.mapping flags) ∧ NamesFlag flags "water" (.bool false) ∧
      ∀ name state, NamesFlag flags name state → Table.find? expected name = some state := by
  obtain ⟨r, parsed, condition⟩ : ∃ r, parse "fmask" groupedRule "style s" none = .ok r ∧
      r.condition = .flags [("cloud", .bool true), ("water", .bool false)] true := ⟨_, rfl, rfl⟩
  obtain ⟨flags, found, named, keeps⟩ := keeps_flags_iff parsed condition
  cases found
  exact ⟨r, _, _, parsed, condition, rfl, named "water" (.bool false) rfl,
    keeps.mpr (noneBesideGroup_singleton (.inr rfl) _)⟩

/-- A rule with a flag beside its group. -/
def mixedRule : Tree := .mapping [
  ("flags", .mapping [("or", .mapping [("cloud", .bool true)]), ("water", .bool true)])]

/-- The flag beside the group is dropped without an error. -/
theorem not_every_flag_kept : ¬ ∀ (band : String) (cfg : Tree) (subject : String)
    (mapper : Option BandMapper) (r : MaskRule) (flags expected : Mapping) (any : Bool),
    parse band cfg subject mapper = .ok r → r.condition = .flags expected any →
      cfg.get? "flags" = some (.mapping flags) →
        ∀ name state, NamesFlag flags name state → Table.find? expected name = some state := by
  intro kept
  have water : NamesFlag [("or", .mapping [("cloud", .bool true)]), ("water", .bool true)]
      "water" (.bool true) := .inl ⟨by simp [IsGroupKey], rfl⟩
  cases kept "fmask" mixedRule "style s" none _ _ _ _ rfl rfl rfl _ _ water

end MapConfig.MaskRule
