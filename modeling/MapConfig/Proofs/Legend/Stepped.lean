import MapConfig.Proofs.Decimal.Sum
import MapConfig.Proofs.Legend
import MapConfig.Proofs.Results

/-! Ticks at a fixed step. The loop that sets them has no counter, so its end is found
from its run: the digits of the ticks ascend at one scale until a tick is not below the
end of the legend or a sum no longer fits. -/
namespace MapConfig

open Decimal

namespace Legend

section

/-! ## Ticks without the loop

The tick after any number of steps, as a function of that number. The loop is compared
with this below. -/

variable (first last step : Decimal)

/-- The tick after a number of steps, where every sum on the way has a value. -/
def tickAt? : Nat → Option Decimal
  | 0 => some first
  | i + 1 => do (← tickAt? i).add? step

/-- The tick after `i` steps has a value, and the loop goes on behind it. -/
def GoesOnAt (i : Nat) : Prop := ∃ tick, tickAt? first step i = some tick ∧ tick.isBelow last

/-- The tick after `i` steps has a value, which is not below the end. -/
def StopsAt (i : Nat) : Prop :=
  ∃ tick, tickAt? first step i = some tick ∧ tick.isBelow last = false

end

section
variable {first last step : Decimal}

/-! ## One tick

All ticks behind the first have one scale, that of the sums. Their digits differ by a
positive number from each to the next, and they are in range: there can be no more than
the range has numbers. -/

/-- The ticks after the first one are those from the next one on. -/
theorem tickAt?_succ (i : Nat) :
    tickAt? first step (i + 1) = (first.add? step).bind fun next => tickAt? next step i := by
  induction i with
  | zero => exact (Option.bind_some _ _).trans (Option.bind_fun_some _).symm
  | succ i ih =>
    rw [tickAt?, ih]
    exact Option.bind_assoc _ _ _

/-- From the first sum on all ticks have one scale, and their digits are equally far apart. -/
theorem tickAt?_succ_eq_some {i : Nat} {tick : Decimal}
    (h : tickAt? first step (i + 1) = some tick) :
    Aligned first step ∧ tick.scale = max first.scale step.scale ∧
      tick.digits = first.digitsAt tick.scale + (i + 1 : Nat) * step.digitsAt tick.scale := by
  induction i generalizing tick with
  | zero =>
    have sum := add?_eq_some h
    exact ⟨sum.aligned, sum.scale, by rw [sum.digits, Nat.cast_one, one_mul]⟩
  | succ i ih =>
    obtain ⟨before, here, added⟩ := Option.bind_eq_some_iff.mp h
    obtain ⟨aligned, scale, digits⟩ := ih here
    have sum := add?_eq_some added
    -- Only the first sum may change the scale.
    have same : tick.scale = before.scale := by
      rw [sum.scale, scale, max_assoc, max_self]
    refine ⟨aligned, same.trans scale, ?_⟩
    rw [sum.digits, same, digitsAt_self, digits]
    push_cast
    ring

/-- The ticks stand at whole numbers of steps: no error of rounding adds up. -/
theorem value_of_tickAt? {i : Nat} {tick : Decimal} (h : tickAt? first step i = some tick) :
    tick.value = first.value + i * step.value := by
  induction i generalizing tick with
  | zero =>
    cases h
    rw [Nat.cast_zero, zero_mul, add_zero]
  | succ i ih =>
    obtain ⟨before, here, added⟩ := Option.bind_eq_some_iff.mp h
    rw [(add?_eq_some added).value_eq, ih here]
    push_cast
    ring

section
variable {i j : Nat} {earlier later : Decimal} (lt : i < j)
  (he : tickAt? first step i = some earlier) (hl : tickAt? first step j = some later)
include lt he hl

theorem aligned_tickAt? : Aligned earlier later := by
  obtain ⟨j, rfl⟩ := Nat.exists_eq_succ_of_ne_zero (Nat.ne_zero_of_lt lt)
  obtain ⟨aligned, scale, -⟩ := tickAt?_succ_eq_some hl
  cases i with
  | zero =>
    -- The first tick has a scale of its own, but the first sum has brought it to the others'.
    cases he
    exact .of_fitsAt (scale ▸ aligned.left) (scale ▸ le_max_left _ _)
  | succ i =>
    obtain ⟨-, scale', -⟩ := tickAt?_succ_eq_some he
    have same : earlier.scale = later.scale := scale'.trans scale.symm
    exact .of_fitsAt (same ▸ earlier.fitsAt_self) same.le

theorem value_lt_of_tickAt? (positive : 0 < step.digits) : earlier.value < later.value := by
  rw [value_of_tickAt? he, value_of_tickAt? hl]
  have step_pos : 0 < step.value := value_pos positive
  have fewer : (i : ℚ) < j := Nat.cast_lt.mpr lt
  gcongr

end

/-- The digits of the ticks ascend within their range. -/
theorem lt_of_tickAt? (positive : 0 < step.digits) {i : Nat} {tick : Decimal}
    (h : tickAt? first step i = some tick) : i < Nat.pow 2 128 := by
  cases i with
  | zero => exact Nat.pow_pos (by decide)
  | succ i =>
    obtain ⟨aligned, scale, digits⟩ := tickAt?_succ_eq_some h
    obtain ⟨lower, -⟩ := scale ▸ aligned.left.2
    obtain ⟨-, upper⟩ := tick.digits_fit
    have one : 1 ≤ step.digitsAt tick.scale := digitsAt_pos positive _
    have far : ((i + 1 : Nat) : Int) ≤ (i + 1 : Nat) * step.digitsAt tick.scale :=
      le_mul_of_one_le_right (Int.natCast_nonneg _) one
    have room : Nat.pow 2 128 = 2 * Nat.pow 2 127 := by decide
    omega

/-! ## The loop

The bound that the loop is given is larger than that, so it is never reached. The
induction is on the number of steps, and one step moves the first tick. -/

theorem tickAt?_of_add? {next : Decimal} (added : first.add? step = some next) (i : Nat) :
    tickAt? first step (i + 1) = tickAt? next step i := by
  rw [tickAt?_succ, added, Option.bind_some]

theorem GoesOnAt.isBelow (h : GoesOnAt first last step 0) : first.isBelow last := by
  obtain ⟨_, ⟨⟩, below⟩ := h
  exact below

theorem GoesOnAt.not_stopsAt {i : Nat} (h : GoesOnAt first last step i) :
    ¬ StopsAt first last step i := by
  obtain ⟨tick, here, below⟩ := h
  rintro ⟨_, here', not_below⟩
  cases here.symm.trans here'
  exact Bool.false_ne_true (not_below.symm.trans below)

theorem GoesOnAt.next {next : Decimal} (added : first.add? step = some next) {i : Nat}
    (h : GoesOnAt first last step (i + 1)) : GoesOnAt next last step i := by
  rwa [GoesOnAt, tickAt?_of_add? added] at h

/-- Where a sum has no value, the loop has none either, however far it may run. -/
theorem ticksFrom?_eq_none {i : Nat} (goes_on : ∀ j ≤ i, GoesOnAt first last step j)
    (no_next : tickAt? first step (i + 1) = none) (bound : Nat) :
    ticksFrom? step last bound first = none := by
  -- A run that is cut short has no value either, so the bound need not be large enough.
  induction i generalizing first bound with
  | zero =>
    cases bound with
    | zero => rfl
    | succ bound =>
      have no_sum : first.add? step = none := no_next
      rw [ticksFrom?, if_pos (goes_on 0 le_rfl).isBelow, no_sum]
      rfl
  | succ i ih =>
    cases bound with
    | zero => rfl
    | succ bound =>
      rw [ticksFrom?, if_pos (goes_on 0 (Nat.zero_le _)).isBelow]
      refine Option.bind_eq_none_iff.mpr fun next added => ?_
      rw [tickAt?_of_add? added] at no_next
      rw [ih (fun j le => (goes_on (j + 1) (Nat.succ_le_succ le)).next added) no_next]
      rfl

/-- The ticks of the loop are those it goes on behind, and then the end. -/
theorem ticksFrom?_eq_some {k : Nat} (goes_on : ∀ j < k, GoesOnAt first last step j)
    (stops : StopsAt first last step k) {bound : Nat} (enough : k < bound) :
    ∃ before, before.map some = (List.range k).map (tickAt? first step) ∧
      ticksFrom? step last bound first = some (before ++ [last]) := by
  obtain ⟨bound, rfl⟩ := Nat.exists_eq_succ_of_ne_zero (Nat.ne_zero_of_lt enough)
  induction k generalizing first bound with
  | zero =>
    obtain ⟨_, ⟨⟩, not_below⟩ := stops
    refine ⟨[], rfl, ?_⟩
    rw [ticksFrom?, if_neg (by rw [not_below]; exact Bool.false_ne_true)]
    rfl
  | succ k ih =>
    -- From the next sum on the loop is one that stops a tick earlier.
    obtain ⟨tick, here, not_below⟩ := stops
    rw [tickAt?_succ] at here
    obtain ⟨next, added, here⟩ := Option.bind_eq_some_iff.mp here
    obtain ⟨bound, rfl⟩ := Nat.exists_eq_succ_of_ne_zero (by omega : bound ≠ 0)
    obtain ⟨before, each, run⟩ := ih
      (fun j lt => (goes_on (j + 1) (Nat.succ_lt_succ lt)).next added)
      ⟨tick, here, not_below⟩ bound (by omega)
    refine ⟨first :: before, ?_, ?_⟩
    · rw [List.range_succ_eq_map, List.map_cons, List.map_cons, List.map_map, each]
      congr 1
      exact List.map_congr_left fun j _ => (tickAt?_of_add? added j).symm
    · rw [ticksFrom?, if_pos (goes_on 0 (Nat.zero_lt_succ k)).isBelow, added]
      simp only [Option.bind_eq_bind, Option.bind_some, run]
      rfl

/-- The loop goes on to a sum without a value, or it stops at a tick. -/
theorem goes_on_until (first last : Decimal) (positive : 0 < step.digits) :
    (∃ i, (∀ j ≤ i, GoesOnAt first last step j) ∧ tickAt? first step (i + 1) = none) ∨
      ∃ k < Nat.pow 2 128, (∀ j < k, GoesOnAt first last step j) ∧ StopsAt first last step k := by
  classical
  -- The ticks have left their range after this many steps, so the search has an end.
  have ends : ∃ n, ¬ GoesOnAt first last step n := by
    refine ⟨Nat.pow 2 128, ?_⟩
    rintro ⟨tick, here, -⟩
    exact (lt_of_tickAt? positive here).false
  have goes_on : ∀ j < Nat.find ends, GoesOnAt first last step j :=
    fun j lt => not_not.mp (Nat.find_min ends lt)
  have ended := Nat.find_spec ends
  generalize Nat.find ends = n at goes_on ended
  cases here : tickAt? first step n with
  | none =>
    left
    obtain ⟨i, rfl⟩ : ∃ i, n = i + 1 := Nat.exists_eq_succ_of_ne_zero (by rintro rfl; cases here)
    exact ⟨i, fun j le => goes_on j (Nat.lt_succ_of_le le), here⟩
  | some tick =>
    right
    refine ⟨n, lt_of_tickAt? positive here, goes_on, tick, here, ?_⟩
    exact Bool.eq_false_iff.mpr fun below => ended ⟨tick, here, below⟩

end

/-! ## The legend

A legend sets its ticks when all else has been read, and their failure is its own. -/

/-- The legend of these settings, with its labels at the ticks. -/
def ofTicks (cfg : Mapping) (begins ends : Option Decimal) (places : Nat) (ticks : List Decimal)
    (units : Option String) : Legend where
  units := units
  begins := begins
  ends := ends
  places := places
  ticks := ticks
  labels := ticks.map fun tick => labelOf (Table.find? cfg "tick_labels") tick.toText

def subjectOf (style : String) : String := s!"Legend of style {style}"

/-- What is read of the settings of a legend before its ticks are set. -/
structure Reads (cfg : Mapping) (style : String) (ramp : Option Ramp) (places : Nat)
    (plan : TickPlan) (begins ends : Option Decimal) : Prop where
  current : oldKeys.any (fun key => Table.contains cfg key) = false
  places : placesOf cfg = .ok places
  plan : planOf cfg (subjectOf style) = .ok plan
  begins : boundOf cfg "begin" (subjectOf style) (ramp.bind firstStop) = .ok begins
  ends : boundOf cfg "end" (subjectOf style) (ramp.bind lastStop) = .ok ends

theorem Reads.parse_eq {cfg : Mapping} {style : String} {ramp : Option Ramp} {places : Nat}
    {plan : TickPlan} {begins ends : Option Decimal}
    (h : Reads cfg style ramp places plan begins ends) :
    parse cfg style ramp = ticksOf plan begins ends places (subjectOf style) >>= fun ticks =>
      ofTicks cfg begins ends places ticks <$> Mapping.text? cfg "units" (subjectOf style) := by
  obtain ⟨current, hplaces, hplan, hbegins, hends⟩ := h
  -- The steps of the definition, with the subject and the legend by their names.
  rw [parse, if_neg (by rw [current]; exact Bool.false_ne_true)]
  change (placesOf cfg >>= fun places => planOf cfg (subjectOf style) >>= fun plan =>
    boundOf cfg "begin" (subjectOf style) (ramp.bind firstStop) >>= fun begins =>
    boundOf cfg "end" (subjectOf style) (ramp.bind lastStop) >>= fun ends =>
    ticksOf plan begins ends places (subjectOf style) >>= fun ticks =>
    Mapping.text? cfg "units" (subjectOf style) >>= fun units =>
    pure (ofTicks cfg begins ends places ticks units)) = _
  rw [hplaces, hplan, hbegins, hends]
  rfl

/-- A legend has what was read, and nothing of it went wrong. -/
theorem exists_reads_of_parse {cfg : Mapping} {style : String} {ramp : Option Ramp}
    {legend : Legend} (h : parse cfg style ramp = .ok legend) : ∃ plan,
      Reads cfg style ramp legend.places plan legend.begins legend.ends ∧
      ticksOf plan legend.begins legend.ends legend.places (subjectOf style) = .ok legend.ticks ∧
      Mapping.text? cfg "units" (subjectOf style) = .ok legend.units ∧
      legend = ofTicks cfg legend.begins legend.ends legend.places legend.ticks legend.units := by
  unfold parse at h
  dsimp only at h
  split at h
  · cases h
  · next current =>
    obtain ⟨places, hplaces, h⟩ := bind_ok_iff.mp h
    obtain ⟨plan, hplan, h⟩ := bind_ok_iff.mp h
    obtain ⟨begins, hbegins, h⟩ := bind_ok_iff.mp h
    obtain ⟨ends, hends, h⟩ := bind_ok_iff.mp h
    obtain ⟨ticks, hticks, h⟩ := bind_ok_iff.mp h
    obtain ⟨units, hunits, h⟩ := bind_ok_iff.mp h
    cases h
    have reads : Reads cfg style ramp places plan begins ends :=
      ⟨Bool.eq_false_iff.mpr current, hplaces, hplan, hbegins, hends⟩
    exact ⟨plan, reads, hticks, hunits, rfl⟩

theorem labels_of_parse {cfg : Mapping} {style : String} {ramp : Option Ramp} {legend : Legend}
    (h : parse cfg style ramp = .ok legend) :
    legend.labels = legend.tickTexts.map (labelOf (Table.find? cfg "tick_labels")) := by
  obtain ⟨_, -, -, -, whole⟩ := exists_reads_of_parse h
  rw [whole]
  simp [ofTicks, tickTexts]

section
variable {first last step : Decimal} {ticks? : Option (List Decimal)}

/-- The outcome of the steps from `first` to `last`. The legends that set their ticks
this way have these ticks, or fail if there are none. -/
structure StepsGive (first last step : Decimal) (ticks? : Option (List Decimal)) : Prop where
  ticks : steppedTicks? first last step = ticks?
  legend : ∀ {cfg : Mapping} {style : String} {ramp : Option Ramp} {places : Nat},
    Reads cfg style ramp places (.every step) (some first) (some last) →
      parse cfg style ramp = match ticks? with
        | none => .error (.invalid (.ticksOutOfRange (subjectOf style)))
        | some ticks => ofTicks cfg (some first) (some last) places ticks <$>
            Mapping.text? cfg "units" (subjectOf style)

theorem StepsGive.of_ticks (h : steppedTicks? first last step = ticks?) :
    StepsGive first last step ticks? where
  ticks := h
  legend read := by
    rw [read.parse_eq]
    simp only [ticksOf, h]
    cases ticks? <;> rfl

theorem stepsGive_end (h : first.isBelow last = false) : StepsGive first last step (some [last]) :=
  .of_ticks (if_neg (by rw [h]; exact Bool.false_ne_true))

end

/-- Ticks at a step with positive digits either run out of range, each of them below the
end and the next one without a value, or they are those before the first that is not
below the end, and the end. They stand at whole numbers of steps from the beginning and
ascend; there is none but the end where the beginning is not below it. -/
theorem stepping_ends (first last step : Decimal) (positive : 0 < step.digits) :
    ((∃ i, (∀ j ≤ i, GoesOnAt first last step j) ∧ tickAt? first step (i + 1) = none ∧
        StepsGive first last step none) ∨
      ∃ k before, IsLeast {k | StopsAt first last step k} k ∧
        before.map some = (List.range k).map (tickAt? first step) ∧
        StepsGive first last step (some (before ++ [last]))) ∧
    (∀ i tick, tickAt? first step i = some tick → tick.value = first.value + i * step.value) ∧
    (∀ i j earlier later, i < j → tickAt? first step i = some earlier →
      tickAt? first step j = some later →
        earlier.value < later.value ∧ earlier.isBelow later = true) ∧
    (first.isBelow last = false → StepsGive first last step (some [last])) := by
  refine ⟨?_, fun i tick => value_of_tickAt?, ?_, stepsGive_end⟩
  · obtain ⟨i, goes_on, no_next⟩ | ⟨k, few, goes_on, stops⟩ := goes_on_until first last positive
    · exact .inl ⟨i, goes_on, no_next, .of_ticks (ticksFrom?_eq_none goes_on no_next _)⟩
    · obtain ⟨before, each, run⟩ := ticksFrom?_eq_some goes_on stops
        (few.trans_le (Nat.le_add_right _ 2))
      refine .inr ⟨k, before, ⟨stops, fun m stops_m => ?_⟩, each, .of_ticks run⟩
      by_contra lt
      exact (goes_on m (not_le.mp lt)).not_stopsAt stops_m
  · intro i j earlier later lt he hl
    have ascend := value_lt_of_tickAt? lt he hl positive
    exact ⟨ascend, (aligned_tickAt? lt he hl).isBelow_iff.mpr ascend⟩

/-- A legend from zero to one in quarters. -/
def quartersLegend : Mapping :=
  [("begin", .number (.whole 0)), ("end", .number (.whole 1)), ("ticks_every", .text "0.25")]

theorem reads_quartersLegend :
    Reads quartersLegend "ndvi" none 1 (.every quarter) (some zero) (some one) :=
  ⟨rfl, rfl, rfl, rfl, rfl⟩

/-- Four steps lead to the first tick that is not below one, and three to three quarters. -/
theorem stepping_ends_quarters : 0 < quarter.digits ∧ IsLeast {k | StopsAt zero one quarter k} 4 ∧
    (∃ tick, tickAt? zero quarter 3 = some tick ∧ tick.value = zero.value + 3 * quarter.value) ∧
    ∃ legend, parse quartersLegend "ndvi" none = .ok legend ∧
      legend.ticks.map digits = [0, 25, 50, 75, 1] := by
  have positive : 0 < quarter.digits := by decide
  obtain ⟨outcome, value, -⟩ := stepping_ends zero one quarter positive
  have run : (steppedTicks? zero one quarter).map (·.map digits) = some [0, 25, 50, 75, 1] := by
    decide
  obtain ⟨i, -, -, gives⟩ | ⟨k, before, least, each, gives⟩ := outcome
  · rw [gives.ticks] at run
    cases run
  · rw [gives.ticks] at run
    have digits_eq := Option.some.inj run
    have four : k = 4 := by
      have same := congrArg List.length each
      have five := congrArg List.length digits_eq
      simp only [List.length_map, List.length_range, List.length_append, List.length_cons,
        List.length_nil] at same five
      omega
    obtain ⟨third, here⟩ := Option.isSome_iff_exists.mp
      (by decide : (tickAt? zero quarter 3).isSome)
    exact ⟨positive, four ▸ least, ⟨third, here, value 3 third here⟩, _,
      gives.legend reads_quartersLegend, digits_eq⟩

end Legend

end MapConfig
