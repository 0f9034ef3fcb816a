import MapConfig.Legend
import MapConfig.Proofs.Decimal.Rounding

/-! Ticks that divide a legend evenly, beside the points of the way that they stand
for. A point is a quotient of two whole numbers, found by products and sums that are
all checked to fit. Its rounding alone is not, and may stop the program. -/
namespace MapConfig

open Decimal

namespace Legend

section
variable {tick : Nat → Except Failure Decimal} {count index : Nat}

/-! ## Results in turn

What becomes of a run of steps that may fail: all of their results, or the first
failure. -/

/-- As many results as asked for, each of them that of its index. -/
theorem collect_ok {ticks : List Decimal} (h : collect tick count index = .ok ticks) :
    ticks.length = count ∧
      ∀ i < count, ∃ here, ticks[i]? = some here ∧ tick (index + i) = .ok here := by
  induction count generalizing index ticks with
  | zero =>
    cases h
    exact ⟨rfl, fun i hi => absurd hi (Nat.not_lt_zero i)⟩
  | succ count ih =>
    obtain ⟨here, first, h⟩ := bind_ok_iff.mp h
    obtain ⟨rest, collected, h⟩ := bind_ok_iff.mp h
    cases h
    obtain ⟨length, each⟩ := ih collected
    refine ⟨congrArg Nat.succ length, fun i hi => ?_⟩
    cases i with
    | zero => exact ⟨here, rfl, first⟩
    | succ i =>
      obtain ⟨there, found, result⟩ := each i (Nat.lt_of_succ_lt_succ hi)
      exact ⟨there, found, by rwa [Nat.add_right_comm] at result⟩

/-- A run fails as the first of its steps that does, the ones before it made. -/
theorem collect_error_iff {failure : Failure} : collect tick count index = .error failure ↔
    ∃ i < count, tick (index + i) = .error failure ∧
      ∀ j < i, ∃ here, tick (index + j) = .ok here := by
  induction count generalizing index with
  | zero => simp [collect]
  | succ count ih =>
    -- It fails at once, or the run behind a first step that is made does.
    have step : collect tick (count + 1) index = .error failure ↔ tick index = .error failure ∨
        (∃ here, tick index = .ok here) ∧ collect tick count (index + 1) = .error failure := by
      rw [collect]
      cases tick index <;> cases collect tick count (index + 1) <;>
        simp [bind, Except.bind, pure, Except.pure]
    rw [step, ih]
    simp only [Nat.add_right_comm index 1, Nat.add_assoc index _ 1]
    constructor
    · rintro (first | ⟨first, i, lt, fails, before⟩)
      · exact ⟨0, Nat.succ_pos count, first, fun j hj => absurd hj (Nat.not_lt_zero j)⟩
      · refine ⟨i + 1, Nat.succ_lt_succ lt, fails, fun j hj => ?_⟩
        cases j with
        | zero => exact first
        | succ j => exact before j (Nat.lt_of_succ_lt_succ hj)
    · rintro ⟨_ | i, lt, fails, before⟩
      · exact .inl fails
      · exact .inr ⟨before 0 (Nat.succ_pos i), i, Nat.lt_of_succ_lt_succ lt, fails,
          fun j hj => before (j + 1) (Nat.succ_lt_succ hj)⟩

end

/-! ## One tick

The digits of the first tick and of the way are brought to a common scale, and a tick is
a single division by `divisionDen`. Everything before the division is tested; what is
found on the way is the trace. -/

/-- The digits of a point, in units of the divisor that is still to be taken out. -/
def pointNum (start way divisions : Int) (unit index : Nat) : Int :=
  (start * divisions + index * way) * unit

/-- The numbers that finding a point goes through. -/
def pointTrace (start way divisions : Int) (unit index : Nat) : List Int :=
  [start * divisions, index * way, start * divisions + index * way,
    pointNum start way divisions unit index]

theorem division_iff {start way divisions den : Int} {unit places index : Nat}
    {outcome : Except Failure Decimal} (made : outcome ≠ .error .noValue) :
    division start way divisions den unit places index = outcome ↔
      (∀ n ∈ pointTrace start way divisions unit index, FitsDigits n) ∧
        rounded (pointNum start way divisions unit index) den places = outcome := by
  simp only [division, tested_bind_iff made, fitting?_eq_some_iff, pointTrace, pointNum,
    List.forall_mem_cons, List.not_mem_nil, false_implies, implies_true, and_true]
  constructor
  · rintro ⟨_, ⟨start_fits, rfl⟩, _, ⟨part_fits, rfl⟩, _, ⟨sum_fits, rfl⟩, _, ⟨num_fits, rfl⟩,
      result⟩
    exact ⟨⟨start_fits, part_fits, sum_fits, num_fits⟩, result⟩
  · rintro ⟨⟨start_fits, part_fits, sum_fits, num_fits⟩, result⟩
    exact ⟨_, ⟨start_fits, rfl⟩, _, ⟨part_fits, rfl⟩, _, ⟨sum_fits, rfl⟩, _, ⟨num_fits, rfl⟩,
      result⟩

/-! ## All ticks

The ticks are made in turn, so the first that fails decides the outcome: a missing value
hides all stops behind it, and a stop hides all missing values behind it. -/

section
variable (first last : Decimal) (divisions places : Nat)

/-- The point where a number of the parts of the way are behind. -/
def point (index : Nat) : ℚ := first.value + index * (last.value - first.value) / divisions

/-- The scale at which both bounds are given. -/
def commonScale : Nat := max first.scale last.scale

def startDigits : Int := first.digitsAt (commonScale first last)

def wayDigits : Int := last.digitsAt (commonScale first last) - startDigits first last

def divisionNum (index : Nat) : Int :=
  pointNum (startDigits first last) (wayDigits first last) divisions (10 ^ places) index

def divisionDen : Nat := divisions * 10 ^ commonScale first last

/-- The tick at a point, once the numbers for all ticks are found. -/
def divisionAt (index : Nat) : Except Failure Decimal :=
  division (startDigits first last) (wayDigits first last) divisions
    (divisionDen first last divisions) (10 ^ places) places index

/-- The numbers that are found once for all ticks. -/
def boundsTrace : List Int :=
  first.rescaleTrace (commonScale first last) ++ last.rescaleTrace (commonScale first last) ++
    [wayDigits first last, (10 ^ commonScale first last : Nat),
      (divisionDen first last divisions : Int), (10 ^ places : Nat)]

/-- The numbers that are found for a tick before the division. -/
def divisionTrace (index : Nat) : List Int :=
  boundsTrace first last divisions places ++
    pointTrace (startDigits first last) (wayDigits first last) divisions (10 ^ places) index

variable {first last divisions places}

theorem divisionDen_pos (positive : 1 ≤ divisions) : 0 < divisionDen first last divisions :=
  Nat.mul_pos positive (Nat.pow_pos (by decide))

theorem point_mul_power (positive : 1 ≤ divisions) (index : Nat) :
    point first last divisions index * 10 ^ places =
      divisionNum first last divisions places index / divisionDen first last divisions := by
  have nonzero : (divisions : ℚ) ≠ 0 := by
    rw [Nat.cast_ne_zero]
    omega
  rw [point, value_eq_digitsAt (le_max_left first.scale last.scale),
    value_eq_digitsAt (le_max_right first.scale last.scale), divisionNum, pointNum, divisionDen,
    wayDigits, startDigits, commonScale]
  push_cast
  field_simp

theorem evenTicks_iff (positive : 1 ≤ divisions) {outcome : Except Failure (List Decimal)}
    (made : outcome ≠ .error .noValue) : evenTicks first last divisions places = outcome ↔
      (∀ n ∈ boundsTrace first last divisions places, FitsDigits n) ∧
        collect (divisionAt first last divisions places) (divisions + 1) 0 = outcome := by
  have made_at : divisionAt first last divisions places = division (startDigits first last)
      (wayDigits first last) divisions (divisionDen first last divisions) (10 ^ places)
      places := rfl
  rw [evenTicks, if_neg (by omega), made_at]
  simp only [tested_bind_iff made, rescaled?_eq_some_iff, fitting?_eq_some_iff,
    powerOfTen?_eq_some_iff, boundsTrace, List.forall_mem_append, List.forall_mem_cons,
    List.not_mem_nil, false_implies, implies_true, and_true, fits_rescaleTrace_iff,
    fits_powerOfTen_iff]
  constructor
  · rintro ⟨_, ⟨start_fits, rfl⟩, _, ⟨finish_fits, rfl⟩, _, ⟨way_fits, rfl⟩, _, ⟨small, rfl⟩,
      _, ⟨den_fits, rfl⟩, _, ⟨few, rfl⟩, result⟩
    rw [← Nat.cast_mul] at den_fits result
    exact ⟨⟨⟨start_fits, finish_fits⟩, way_fits, small, den_fits, few⟩, result⟩
  · rintro ⟨⟨⟨start_fits, finish_fits⟩, way_fits, small, den_fits, few⟩, result⟩
    rw [divisionDen, Nat.cast_mul] at den_fits result
    exact ⟨_, ⟨start_fits, rfl⟩, _, ⟨finish_fits, rfl⟩, _, ⟨way_fits, rfl⟩, _, ⟨small, rfl⟩,
      _, ⟨den_fits, rfl⟩, _, ⟨few, rfl⟩, result⟩

theorem divisionAt_iff {index : Nat} {outcome : Except Failure Decimal}
    (made : outcome ≠ .error .noValue) :
    divisionAt first last divisions places index = outcome ↔
      (∀ n ∈ pointTrace (startDigits first last) (wayDigits first last) divisions (10 ^ places)
        index, FitsDigits n) ∧
      rounded (divisionNum first last divisions places index) (divisionDen first last divisions)
        places = outcome :=
  division_iff made

/-- The numbers that are found for a tick before the division fit the digits. -/
def Reaches (first last : Decimal) (divisions places index : Nat) : Prop :=
  ∀ n ∈ divisionTrace first last divisions places index, FitsDigits n

theorem reaches_iff {index : Nat} : Reaches first last divisions places index ↔
    (∀ n ∈ boundsTrace first last divisions places, FitsDigits n) ∧
      ∀ n ∈ pointTrace (startDigits first last) (wayDigits first last) divisions (10 ^ places)
        index, FitsDigits n := by
  rw [Reaches, divisionTrace, List.forall_mem_append]

section
variable {index : Nat} (h : Reaches first last divisions places index)
include h

theorem Reaches.num_fits : FitsDigits (divisionNum first last divisions places index) :=
  h _ (by simp [divisionTrace, pointTrace, divisionNum])

theorem Reaches.den_fits : FitsDigits (divisionDen first last divisions) :=
  h _ (by simp [divisionTrace, boundsTrace])

/-- The unit of the places shown fits, so there are few of them. -/
theorem Reaches.few : places < Nat.pow 2 32 := by
  have unit : FitsDigits (10 ^ places : Nat) := h _ (by simp [divisionTrace, boundsTrace])
  exact (fits_powerOfTen_iff.mp unit).trans_lt (by decide)

end

section
variable (positive : 1 ≤ divisions)
include positive

theorem rounds_of_evenTicks {ticks : List Decimal}
    (h : evenTicks first last divisions places = .ok ticks) : ticks.length = divisions + 1 ∧
      ∀ index ≤ divisions, ∃ tick, ticks[index]? = some tick ∧
        tick.Rounds (point first last divisions index) places
          (divisionTrace first last divisions places index ++
            roundingTrace (divisionNum first last divisions places index)
              (divisionDen first last divisions)) := by
  obtain ⟨bounds_fit, collected⟩ := (evenTicks_iff positive (by simp)).mp h
  obtain ⟨length, each⟩ := collect_ok collected
  refine ⟨length, fun index le => ?_⟩
  obtain ⟨tick, here, made⟩ := each index (by omega)
  rw [Nat.zero_add] at made
  obtain ⟨point_fits, result⟩ := (divisionAt_iff (by simp)).mp made
  have reaches : Reaches first last divisions places index :=
    reaches_iff.mpr ⟨bounds_fit, point_fits⟩
  obtain ⟨scale, digits, trace_fits⟩ := rounded_ok (divisionDen_pos positive) reaches.num_fits
    reaches.den_fits result
  exact ⟨tick, here, scale, by rw [point_mul_power positive, digits, divisionNum],
    List.forall_mem_append.mpr ⟨reaches, trace_fits⟩⟩

/-- One tick stops the program if its point is reached and cannot be rounded, -/
theorem divisionAt_overflow_iff {index : Nat} {step : UntestedStep}
    (bounds_fit : ∀ n ∈ boundsTrace first last divisions places, FitsDigits n) :
    divisionAt first last divisions places index = .error (.overflow step) ↔
      step = .doubledRemainder ∧ Reaches first last divisions places index ∧
        ¬ DoubleFits (divisionNum first last divisions places index)
          (divisionDen first last divisions) := by
  rw [divisionAt_iff (by simp), reaches_iff, and_iff_right bounds_fit, and_left_comm]
  refine and_congr_right fun point_fits => ?_
  have reaches := reaches_iff.mpr ⟨bounds_fit, point_fits⟩
  exact rounded_overflow_iff (divisionDen_pos positive) reaches.num_fits reaches.den_fits

/-- and it is made if its point is reached and can be. -/
theorem exists_divisionAt_iff {index : Nat}
    (bounds_fit : ∀ n ∈ boundsTrace first last divisions places, FitsDigits n) :
    (∃ tick, divisionAt first last divisions places index = .ok tick) ↔
      Reaches first last divisions places index ∧
        DoubleFits (divisionNum first last divisions places index)
          (divisionDen first last divisions) := by
  simp only [divisionAt_iff (by simp : (Except.ok _ : Except Failure Decimal) ≠ .error .noValue),
    exists_and_left]
  rw [reaches_iff, and_iff_right bounds_fit]
  refine and_congr_right fun point_fits => ?_
  have reaches := reaches_iff.mpr ⟨bounds_fit, point_fits⟩
  exact exists_rounded_ok_iff (divisionDen_pos positive) reaches.num_fits reaches.den_fits
    reaches.few

/-- The program stops at the first tick that cannot be rounded, if all numbers before
it are found. -/
theorem evenTicks_overflow_iff {step : UntestedStep} :
    evenTicks first last divisions places = .error (.overflow step) ↔
      step = .doubledRemainder ∧ ∃ index ≤ divisions,
        (Reaches first last divisions places index ∧
          ¬ DoubleFits (divisionNum first last divisions places index)
            (divisionDen first last divisions)) ∧
        ∀ earlier < index, Reaches first last divisions places earlier ∧
          DoubleFits (divisionNum first last divisions places earlier)
            (divisionDen first last divisions) := by
  rw [evenTicks_iff positive (by simp), collect_error_iff]
  simp only [Nat.zero_add, Nat.lt_succ_iff]
  constructor
  · rintro ⟨bounds_fit, index, le, fails, before⟩
    obtain ⟨rfl, here⟩ := (divisionAt_overflow_iff positive bounds_fit).mp fails
    exact ⟨rfl, index, le, here, fun earlier lt =>
      (exists_divisionAt_iff positive bounds_fit).mp (before earlier lt)⟩
  · rintro ⟨rfl, index, le, here, before⟩
    have bounds_fit := (reaches_iff.mp here.1).1
    exact ⟨bounds_fit, index, le, (divisionAt_overflow_iff positive bounds_fit).mpr ⟨rfl, here⟩,
      fun earlier lt => (exists_divisionAt_iff positive bounds_fit).mpr (before earlier lt)⟩

end

end

/-- Where quantising or dividing evenly has a result, it is what it stands for rounded to
the places asked for, halves away from zero, and no number on the way has left the
digits. The ticks of a division are one more than its parts. The program stops instead
exactly where the numbers found before a division fit, but the double of its remainder
does not: in a division of the legend at the first such tick, the ticks before it made. -/
theorem rounding_exact_or_stops (t first last : Decimal) (divisions places : Nat) :
    (∀ q, t.quantize places = .ok q → q.Rounds t.value places
      (t.quantizeTrace places ++ roundingTrace (t.digitsAt places) (t.quantizeDen places))) ∧
    (∀ step, t.quantize places = .error (.overflow step) ↔ step = .doubledRemainder ∧
      (∀ n ∈ t.quantizeTrace places, FitsDigits n) ∧
        ¬ DoubleFits (t.digitsAt places) (t.quantizeDen places)) ∧
    (1 ≤ divisions →
      (∀ ticks, evenTicks first last divisions places = .ok ticks →
        ticks.length = divisions + 1 ∧ ∀ index ≤ divisions, ∃ tick, ticks[index]? = some tick ∧
          tick.Rounds (point first last divisions index) places
            (divisionTrace first last divisions places index ++
              roundingTrace (divisionNum first last divisions places index)
                (divisionDen first last divisions))) ∧
      ∀ step, evenTicks first last divisions places = .error (.overflow step) ↔
        step = .doubledRemainder ∧ ∃ index ≤ divisions,
          (Reaches first last divisions places index ∧
            ¬ DoubleFits (divisionNum first last divisions places index)
              (divisionDen first last divisions)) ∧
          ∀ earlier < index, Reaches first last divisions places earlier ∧
            DoubleFits (divisionNum first last divisions places earlier)
              (divisionDen first last divisions)) :=
  ⟨fun _ => quantize_ok, fun _ => quantize_overflow_iff, fun positive =>
    ⟨fun _ => rounds_of_evenTicks positive, fun _ => evenTicks_overflow_iff positive⟩⟩

def quarter : Decimal := ⟨25, 2, by decide, by decide⟩

def one : Decimal := ⟨1, 0, by decide, zero.scale_lt⟩

/-- A quarter with one place is three tenths, and the thirds of the way to one are
`0.00`, `0.33`, `0.67` and `1.00` with two places. -/
theorem rounding_exact_or_stops_thirds : ∃ (q : Decimal) (ticks : List Decimal),
    quarter.quantize 1 = .ok q ∧ q.digits = 3 ∧ roundAway (quarter.value * 10 ^ 1) = 3 ∧
    1 ≤ 3 ∧ evenTicks zero one 3 2 = .ok ticks ∧ ticks.map digits = [0, 33, 67, 100] ∧
    ∀ index ≤ 3, ∃ tick, ticks[index]? = some tick ∧
      tick.digits = roundAway (point zero one 3 index * 10 ^ 2) := by
  obtain ⟨quantizing, -⟩ := rounding_exact_or_stops quarter quarter quarter 1 1
  obtain ⟨-, -, dividing⟩ := rounding_exact_or_stops zero zero one 3 2
  have quantized : (quarter.quantize 1).toOption.any (fun q => q.digits == 3) = true := by decide
  have divided : (evenTicks zero one 3 2).toOption.any
      (fun ticks => ticks.map digits == [0, 33, 67, 100]) = true := by decide
  obtain ⟨q, hq, three⟩ := exists_ok_of_any quantized
  obtain ⟨ticks, hticks, thirds⟩ := exists_ok_of_any divided
  rw [beq_iff_eq] at three thirds
  obtain ⟨-, each⟩ := (dividing (by decide)).1 ticks hticks
  refine ⟨q, ticks, hq, three, ?_, by decide, hticks, thirds, fun index le => ?_⟩
  · rw [← (quantizing q hq).digits, three]
  · obtain ⟨tick, here, rounds⟩ := each index le
    exact ⟨tick, here, rounds.digits⟩

/-- Nine tenths with as many digits as fit. Their double does not. -/
def longNineTenths : Decimal := ⟨9 * Nat.pow 10 37, 38, by decide, by decide⟩

/-- Rounding it to no places stops the program, though the result would be one. -/
theorem not_every_rounding_in_range : ¬ ∀ (t : Decimal) (places : Nat) (step : UntestedStep),
    t.quantize places ≠ .error (.overflow step) := by
  intro every
  have stops : longNineTenths.quantize 0 = .error (.overflow .doubledRemainder) := by decide
  exact every _ _ _ stops

end Legend

end MapConfig
