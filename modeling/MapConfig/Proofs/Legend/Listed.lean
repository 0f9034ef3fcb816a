import MapConfig.Proofs.Decimal.Order
import MapConfig.Proofs.Legend.Stepped

/-! Ticks that are listed one by one. They are shown as they are given, in their order, with
a label each. Whether they lie within the legend is asked only where both of its bounds
are known: with one bound alone ticks beyond it are accepted as well. -/
namespace MapConfig

open Decimal

namespace Legend

/-! ## What is listed

Listed ticks are the decimals of the items, in their order; the other two ways to give
ticks are not there. -/

theorem decimal_ok_iff {tree : Tree} {key subject : String} {d : Decimal} :
    tree.decimal key subject = .ok d ↔ ofTree tree = .ok d :=
  ConfigError.mapError_ok_iff

theorem listedOf_ok_iff {items : List Tree} {subject : String} {plan : TickPlan} :
    listedOf (.list items) subject = .ok plan ↔
      ∃ ticks, plan = .listed ticks ∧ items.map ofTree = ticks.map .ok := by
  rw [listedOf, map_ok_iff]
  have each (ticks : List Decimal) : items.mapM (fun item => item.decimal "ticks" subject) =
      .ok ticks ↔ items.map ofTree = ticks.map .ok := by
    simp only [mapM_ok_iff, decimal_ok_iff]
    rw [← List.forall₂_eq_eq_eq, List.forall₂_map_left_iff, List.forall₂_map_right_iff]
  simp only [each]
  exact ⟨fun ⟨ticks, given, same⟩ => ⟨ticks, same.symm, given⟩,
    fun ⟨ticks, same, given⟩ => ⟨ticks, given, same.symm⟩⟩

/-- A list of ticks is taken as it is, without the other two ways to give ticks. -/
theorem planOf_ok_iff {cfg : Mapping} {items : List Tree}
    (listed : Table.find? cfg "ticks" = some (.list items)) {subject : String} {plan : TickPlan} :
    planOf cfg subject = .ok plan ↔
      Table.find? cfg "ticks_every" = none ∧ Table.find? cfg "tick_count" = none ∧
        ∃ ticks, plan = .listed ticks ∧ items.map ofTree = ticks.map .ok := by
  rw [planOf, listed]
  cases Table.find? cfg "ticks_every" <;> cases Table.find? cfg "tick_count" <;>
    simp [listedOf_ok_iff]

/-! ## Bounds

The test of the program looks at the order of `compare`. It is that of the numbers where
the two decimals are compared exactly. -/

/-- No tick is below the one bound or above the other, as far as they are known. -/
structure Within (tick : Decimal) (begins ends : Option Decimal) : Prop where
  not_below : ∀ low ∈ begins, tick.compare low ≠ .lt
  not_above : ∀ high ∈ ends, tick.compare high ≠ .gt

section
variable {tick low high : Decimal} {begins ends : Option Decimal}

theorem Within.begins_le (h : Within tick begins ends) (known : low ∈ begins)
    (fits : SpanFits tick low) : low.value ≤ tick.value :=
  fits.aligned.compares.ne_lt.mp (h.not_below low known)

theorem Within.le_ends (h : Within tick begins ends) (known : high ∈ ends)
    (fits : SpanFits tick high) : tick.value ≤ high.value :=
  fits.aligned.compares.ne_gt.mp (h.not_above high known)

theorem within_iff : Within tick (some low) (some high) ↔
    tick.isBelow low = false ∧ high.isBelow tick = false := by
  simp only [isBelow, beq_eq_false_iff_ne, compare_swap tick high]
  constructor
  · intro h
    have above := h.not_above high rfl
    exact ⟨h.not_below low rfl, by revert above; cases tick.compare high <;> decide⟩
  · rintro ⟨below, above⟩
    refine ⟨?_, ?_⟩
    · rintro _ ⟨⟩
      exact below
    · rintro _ ⟨⟩
      revert above
      cases tick.compare high <;> decide

end

/-- Ticks are tested where both bounds are known, and nothing is asked of them otherwise. -/
theorem withinBounds_iff {ticks : List Decimal} {begins ends : Option Decimal} :
    withinBounds ticks begins ends = true ↔
      (begins.isSome → ends.isSome → ∀ tick ∈ ticks, Within tick begins ends) := by
  cases begins with
  | none => simp [withinBounds]
  | some low =>
    cases ends with
    | none => simp [withinBounds]
    | some high => simp [withinBounds, within_iff]

/-! ## Legends with listed ticks

The other lists of ticks are tried on the same settings, of which nothing but the list
changes. -/

/-- The settings with another list of ticks. -/
def withTicks (cfg : Mapping) (items : List Tree) : Mapping :=
  Table.insert cfg "ticks" (.list items)

section
variable {cfg : Mapping} {style : String} {ramp : Option Ramp} {places : Nat} {plan : TickPlan}
  {items others : List Tree} {ticks : List Decimal} {begins ends : Option Decimal}

theorem find?_withTicks {key : String} (other : "ticks" ≠ key) :
    Table.find? (withTicks cfg items) key = Table.find? cfg key :=
  Table.find?_insert_ne cfg _ other

/-- What else a legend reads does not change with the list. -/
theorem Reads.withTicks (h : Reads cfg style ramp places plan begins ends)
    (listed : Table.find? cfg "ticks" = some (.list items))
    (given : others.map ofTree = ticks.map .ok) :
    Reads (withTicks cfg others) style ramp places (.listed ticks) begins ends := by
  have replaced : Table.find? (Legend.withTicks cfg others) "ticks" = some (.list others) :=
    Table.find?_insert_self cfg "ticks" _
  obtain ⟨every, count, -⟩ := (planOf_ok_iff listed).mp h.plan
  refine ⟨?_, ?_, (planOf_ok_iff replaced).mpr ⟨?_, ?_, ticks, rfl, given⟩, ?_, ?_⟩
  · have kept := h.current
    simp only [oldKeys, List.any_cons, List.any_nil, Table.contains] at kept ⊢
    simpa only [find?_withTicks (by decide : "ticks" ≠ "major_ticks"),
      find?_withTicks (by decide : "ticks" ≠ "offset"),
      find?_withTicks (by decide : "ticks" ≠ "scale_by"),
      find?_withTicks (by decide : "ticks" ≠ "radix_point")] using kept
  · rw [placesOf, find?_withTicks (by decide)]
    exact h.places
  · rwa [find?_withTicks (by decide)]
  · rwa [find?_withTicks (by decide)]
  · rw [boundOf, find?_withTicks (by decide)]
    exact h.begins
  · rw [boundOf, find?_withTicks (by decide)]
    exact h.ends

/-- Whether a legend is accepted is up to the test of its listed ticks. -/
theorem Reads.exists_parse_iff (h : Reads cfg style ramp places (.listed ticks) begins ends)
    {units : Option String} (units_ok : Mapping.text? cfg "units" (subjectOf style) = .ok units) :
    (∃ legend, parse cfg style ramp = .ok legend) ↔ withinBounds ticks begins ends = true := by
  rw [h.parse_eq, units_ok, ticksOf]
  cases withinBounds ticks begins ends with
  | true => exact ⟨fun _ => rfl, fun _ => ⟨_, rfl⟩⟩
  | false =>
    constructor
    · rintro ⟨legend, ⟨⟩⟩
    · rintro ⟨⟩

end

/-- A legend with listed ticks shows exactly these decimals, in their order, with a label
each. The list lies within the bounds if both are known or neither is. Any other list
of decimals would be accepted if and only if it lies within the bounds or one of them is
not known, so with one bound alone ticks beyond it are accepted too. -/
theorem listed_ticks_bounded_iff {cfg : Mapping} {style : String} {ramp : Option Ramp}
    {legend : Legend} {items : List Tree} (parsed : parse cfg style ramp = .ok legend)
    (listed : Table.find? cfg "ticks" = some (.list items)) :
    Reads cfg style ramp legend.places (.listed legend.ticks) legend.begins legend.ends ∧
    items.map (fun item => (ofTree item).map toText) = legend.tickTexts.map .ok ∧
    legend.labels.length = legend.tickTexts.length ∧
    (legend.begins.isSome = legend.ends.isSome → ∀ tick ∈ legend.ticks,
      Within tick legend.begins legend.ends ∧
      (∀ low ∈ legend.begins, SpanFits tick low → low.value ≤ tick.value) ∧
      ∀ high ∈ legend.ends, SpanFits tick high → tick.value ≤ high.value) ∧
    ∀ (others : List Tree) (ticks : List Decimal), others.map ofTree = ticks.map .ok →
      ((∃ legend', parse (withTicks cfg others) style ramp = .ok legend') ↔
        (legend.begins.isSome → legend.ends.isSome →
          ∀ tick ∈ ticks, Within tick legend.begins legend.ends)) := by
  obtain ⟨plan, reads, made, units, -⟩ := exists_reads_of_parse parsed
  obtain ⟨-, -, ticks, rfl, given⟩ := (planOf_ok_iff listed).mp reads.plan
  have accepted : withinBounds ticks legend.begins legend.ends = true :=
    (reads.exists_parse_iff units).mp ⟨legend, parsed⟩
  rw [ticksOf, if_pos accepted] at made
  cases made
  have tested := withinBounds_iff.mp accepted
  refine ⟨reads, ?_, ?_, fun same tick hm => ?_, fun others ticks' given' => ?_⟩
  · have texts := congrArg (List.map (Except.map toText)) given
    simpa [tickTexts, Function.comp_def, Except.map] using texts
  · rw [labels_of_parse parsed, List.length_map]
  · have within : Within tick legend.begins legend.ends := by
      cases hb : legend.begins with
      -- Without the one bound the other is not known either, and nothing is asked.
      | none =>
        have unknown : legend.ends = none := by simpa [hb] using same.symm
        rw [unknown]
        exact ⟨by rintro _ ⟨⟩, by rintro _ ⟨⟩⟩
      | some low => exact hb ▸ tested (by rw [hb]; rfl) (by rw [← same, hb]; rfl) tick hm
    exact ⟨within, fun low known => within.begins_le known, fun high known => within.le_ends known⟩
  -- Other ticks change neither the bounds nor the units that are read.
  · have units' : Mapping.text? (withTicks cfg others) "units" (subjectOf style) =
        .ok legend.units := by
      rw [Mapping.text?, find?_withTicks (by decide)]
      exact units
    rw [(reads.withTicks listed given').exists_parse_iff units', withinBounds_iff]

/-- One, as it is written with a place. -/
def onePadded : Decimal := ⟨10, 1, by decide, half.scale_lt⟩

/-- A legend from zero to one with a tick at either end. -/
def endsLegend : Mapping :=
  [("begin", .number (.whole 0)), ("end", .text "1.0"),
    ("ticks", .list [.number (.whole 0), .text "1"])]

theorem reads_endsLegend :
    Reads endsLegend "ndvi" none 1 (.listed [zero, one]) (some zero) (some onePadded) :=
  ⟨rfl, rfl, rfl, rfl, rfl⟩

theorem listed_ticks_bounded_iff_ends : ∃ legend, parse endsLegend "ndvi" none = .ok legend ∧
    (∃ items, Table.find? endsLegend "ticks" = some (.list items)) ∧
    legend.tickTexts = ["0", "1"] ∧
    ∀ tick ∈ legend.ticks, Within tick legend.begins legend.ends := by
  have units : Mapping.text? endsLegend "units" (subjectOf "ndvi") = .ok none := rfl
  obtain ⟨legend, parsed⟩ := (reads_endsLegend.exists_parse_iff units).mpr (by decide)
  obtain ⟨reads, texts, -, within, -⟩ := listed_ticks_bounded_iff parsed rfl
  have begins := Except.ok.inj (reads.begins.symm.trans reads_endsLegend.begins)
  have ends := Except.ok.inj (reads.ends.symm.trans reads_endsLegend.ends)
  have both : legend.begins.isSome = legend.ends.isSome := by
    rw [begins, ends]
    rfl
  refine ⟨legend, parsed, ⟨_, rfl⟩, ?_, fun tick hm => (within both tick hm).1⟩
  have ok_injective : Function.Injective (Except.ok : String → Except Failure String) :=
    fun _ _ same => Except.ok.inj same
  exact List.map_injective_iff.mpr ok_injective (texts.symm.trans rfl)

/-- What denotes a decimal exactly: a whole number or a text. -/
def WrittenExactly : Tree → Prop
  | .number (.whole _) | .text _ => True
  | _ => False

/-- A bound holds the ticks back only together with the other one: a legend that begins at
one and has no end has a tick at zero. -/
theorem not_every_tick_within : ¬ ∀ (cfg : Mapping) (style : String) (ramp : Option Ramp)
    (items : List Tree) (legend : Legend), parse cfg style ramp = .ok legend →
    Table.find? cfg "ticks" = some (.list items) → (∀ item ∈ items, WrittenExactly item) →
    (∀ key ∈ ["begin", "end"], ∀ given, Table.find? cfg key = some given → WrittenExactly given) →
      ∀ tick ∈ legend.ticks, Within tick legend.begins legend.ends := by
  intro all
  have within := all
    [("begin", .number (.whole 1)), ("ticks", .list [.number (.whole 0), .number (.whole 2)])]
    "ndvi" none [.number (.whole 0), .number (.whole 2)] _ rfl rfl
    (by simp [WrittenExactly]) (by simp [Table.find?, WrittenExactly]) zero
    (List.mem_cons_self ..)
  exact within.not_below one rfl (by decide)

end Legend

end MapConfig
