import MapConfig.Decimal
import MapConfig.Proofs.Results
import MapConfig.Rounding
import Mathlib.Data.Rat.Floor
import Mathlib.Tactic.FieldSimp
import Mathlib.Tactic.Linarith
import Mathlib.Tactic.Ring

/-! Rounding of decimals, measured on the rational numbers that they denote. A
quotient is rounded with its remainder: it is doubled and compared with the divisor.
All else fits the digits where the operands do, so the double of the remainder alone
decides: where it fits, the result is the exact value, rounded with halves away from
zero, and where it does not, the program stops. -/
namespace MapConfig

/-! ## Rounding a quotient

The specification is rounding on the rational numbers; `roundAway_eq_tdiv` brings it to
the truncated quotient and the remainder, with which the program works. `roundingTrace`
lists all the numbers on the way, and the only one of them that may leave the digits is
the double of the remainder. -/

/-- The whole number nearest to `x`; of two, the one further from zero. -/
def roundAway (x : ℚ) : ℤ := if 0 ≤ x then ⌊x + 1 / 2⌋ else ⌈x - 1 / 2⌉

theorem roundAway_neg {x : ℚ} (h : 0 < x) : roundAway (-x) = -roundAway x := by
  rw [roundAway, roundAway, if_neg (by linarith), if_pos h.le, ← Int.ceil_neg]
  congr 1
  ring

theorem roundAway_div (n : ℕ) {den : ℕ} (positive : 0 < den) :
    roundAway (n / den) = roundDiv n den .awayFromZero := by
  -- Halves are rounded up, that is, the quotient of the doubles is rounded down.
  have sum : (n : ℚ) / den + 1 / 2 = ((2 * n + den : ℕ) : ℚ) / ((2 * den : ℕ) : ℚ) := by
    push_cast
    field_simp
  have quotient : (2 * n + den) / (2 * den) =
      (2 * (n % den) + den) / (2 * den) + n / den := by
    rw [← Nat.add_mul_div_left _ _ (by omega : 0 < 2 * den)]
    congr 1
    have parts := Nat.div_add_mod n den
    nlinarith
  have remainder_lt := Nat.mod_lt n positive
  rw [roundAway, if_pos (by positivity), sum, Rat.floor_natCast_div_natCast, ← Int.natCast_div,
    quotient, roundDiv]
  split
  · next below => rw [Nat.div_eq_of_lt (by omega), zero_add]
  · next above =>
    have one : (2 * (n % den) + den) / (2 * den) = 1 :=
      Nat.div_eq_of_lt_le (by omega) (by omega)
    rw [one, Nat.add_comm, ite_self]

theorem roundAway_intCast_div (num : ℤ) {den : ℕ} (positive : 0 < den) :
    roundAway (num / den) = if num < 0 then -(roundDiv num.natAbs den .awayFromZero : ℤ)
      else roundDiv num.natAbs den .awayFromZero := by
  rw [← roundAway_div num.natAbs positive]
  split_ifs with negative
  · have size : (num : ℚ) = -(num.natAbs : ℚ) := by
      rw [← Int.cast_natCast, ← Int.cast_neg]
      congr 1
      omega
    have num_pos : (0 : ℚ) < num.natAbs := by
      rw [Nat.cast_pos]
      omega
    rw [size, neg_div, roundAway_neg (by positivity)]
  · have size : (num : ℚ) = (num.natAbs : ℚ) := by
      rw [← Int.cast_natCast]
      congr 1
      omega
    rw [size]

namespace Decimal

/-- The numbers that the rounding of a quotient goes through: the truncated quotient
and the remainder, the size of the remainder and its double, and the result. -/
def roundingTrace (num : Int) (den : Nat) : List Int :=
  [num.tdiv den, num.tmod den, (num.tmod den).natAbs, (num.tmod den).natAbs * 2,
    roundAway (num / den)]

/-- The double of the remainder fits the digits. -/
def DoubleFits (num : Int) (den : Nat) : Prop := 2 * (num.natAbs % den) < Nat.pow 2 127

instance (num : Int) (den : Nat) : Decidable (DoubleFits num den) :=
  inferInstanceAs (Decidable (_ < _))

section
variable {num : Int} {den : Nat}

theorem natAbs_tmod_eq (num : Int) (den : Nat) : (num.tmod den).natAbs = num.natAbs % den := by
  rw [Int.natAbs_tmod, Int.natAbs_natCast]

/-- The quotient is rounded up, away from zero, if the remainder is a half at least. -/
theorem roundAway_eq_tdiv (num : Int) (positive : 0 < den) : roundAway (num / den) =
    if (den : Int) ≤ (num.tmod den).natAbs * 2 then num.tdiv den + num.sign else num.tdiv den := by
  rw [roundAway_intCast_div num positive, natAbs_tmod_eq, roundDiv]
  rcases lt_or_ge num 0 with negative | nonneg
  · obtain ⟨n, rfl⟩ := Int.exists_eq_neg_ofNat negative.le
    have quotient : (-(n : Int)).tdiv den = -(n / den : Nat) := by
      rw [Int.neg_tdiv, Int.ofNat_tdiv]
    rw [quotient, Int.sign_eq_neg_one_of_neg negative, if_pos negative, Int.natAbs_neg,
      Int.natAbs_natCast]
    generalize n / den = whole
    split_ifs <;> omega
  · obtain ⟨n, rfl⟩ := Int.eq_ofNat_of_zero_le nonneg
    have quotient : (n : Int).tdiv den = (n / den : Nat) := (Int.ofNat_tdiv n den).symm
    have sign : n % den ≠ 0 → (n : Int).sign = 1 := fun h =>
      Int.sign_eq_one_of_pos (by have := Nat.mod_le n den; omega)
    rw [quotient, if_neg (Int.not_lt.mpr nonneg), Int.natAbs_natCast]
    generalize n / den = whole
    split_ifs <;> omega

theorem fits_tdiv (h : FitsDigits num) : FitsDigits (num.tdiv den) := by
  obtain ⟨lower, upper⟩ := h
  have size_le := Int.natAbs_tdiv_le_natAbs num den
  rcases Int.le_total 0 num with nonneg | nonpos
  · have sign := Int.tdiv_nonneg nonneg (Int.natCast_nonneg den)
    exact ⟨by omega, by omega⟩
  · have sign := Int.tdiv_nonneg (Int.neg_nonneg_of_nonpos nonpos) (Int.natCast_nonneg den)
    rw [Int.neg_tdiv] at sign
    exact ⟨by omega, by omega⟩

theorem fits_roundAway (positive : 0 < den) (h : FitsDigits num) :
    FitsDigits (roundAway (num / den)) := by
  obtain ⟨lower, upper⟩ := h
  have room : 4 ≤ Nat.pow 2 127 := by decide
  have parts := Nat.div_add_mod num.natAbs den
  have remainder_lt := Nat.mod_lt num.natAbs positive
  have quotient_le := Nat.div_le_self num.natAbs den
  -- What is rounded up has a remainder, so it has been divided by two at least.
  have half : 2 ≤ den → 2 * (num.natAbs / den) ≤ num.natAbs := fun h => by
    have := Nat.mul_le_mul_right (num.natAbs / den) h
    omega
  simp only [FitsBits, roundAway_intCast_div num positive, roundDiv]
  generalize num.natAbs / den = quotient at *
  split_ifs <;> omega

theorem fits_double_iff : FitsDigits ((num.tmod den).natAbs * 2 : Int) ↔ DoubleFits num den := by
  rw [natAbs_tmod_eq, DoubleFits]
  generalize num.natAbs % den = remainder
  simp only [FitsBits]
  omega

theorem fits_remainderSize (positive : 0 < den) (den_fits : FitsDigits den) :
    FitsDigits ((num.tmod den).natAbs : Int) := by
  have remainder_lt := Nat.mod_lt num.natAbs positive
  obtain ⟨_, upper⟩ := den_fits
  rw [natAbs_tmod_eq]
  generalize num.natAbs % den = remainder at *
  exact ⟨by omega, by omega⟩

theorem fits_roundingTrace_iff (positive : 0 < den) (num_fits : FitsDigits num)
    (den_fits : FitsDigits den) :
    (∀ n ∈ roundingTrace num den, FitsDigits n) ↔ DoubleFits num den := by
  have quotient : FitsDigits (num.tdiv den) := fits_tdiv num_fits
  have result := fits_roundAway positive num_fits
  have size : FitsDigits ((num.tmod den).natAbs : Int) := fits_remainderSize positive den_fits
  have remainder : FitsDigits (num.tmod den) := by
    simp only [FitsBits] at size ⊢
    omega
  simp only [roundingTrace, List.forall_mem_cons, List.not_mem_nil, false_implies, implies_true,
    and_true, quotient, remainder, size, result, true_and, fits_double_iff]

/-- Of all the steps only the doubling can stop the program. -/
theorem roundedQuotient_eq (positive : 0 < den) (num_fits : FitsDigits num)
    (den_fits : FitsDigits den) : roundedQuotient num den =
      if DoubleFits num den then .ok (roundAway (num / den))
      else .error (.overflow .doubledRemainder) := by
  have size : untested .remainderSize ((num.tmod den).natAbs : Int) = _ :=
    untested_of_fits (fits_remainderSize positive den_fits)
  rw [roundedQuotient, size, pure_bind]
  split_ifs with fits
  · have double : untested .doubledRemainder ((num.tmod den).natAbs * 2 : Int) = _ :=
      untested_of_fits (fits_double_iff.mpr fits)
    have result := fits_roundAway positive num_fits
    rw [roundAway_eq_tdiv num positive] at result ⊢
    rw [double, pure_bind]
    split_ifs at result ⊢
    · exact untested_of_fits result
    · rfl
  · have double : untested .doubledRemainder ((num.tmod den).natAbs * 2 : Int) = _ :=
      untested_of_not_fits (fits_double_iff.not.mpr fits)
    rw [double]
    rfl

end

/-! ## The number that a decimal denotes

Digits at two scales are compared through this number, which does not depend on the
scale. -/

def value (d : Decimal) : ℚ := d.digits / 10 ^ d.scale

/-- The digits at a scale that is not smaller. -/
def digitsAt (d : Decimal) (scale : Nat) : Int := d.digits * 10 ^ (scale - d.scale)

theorem digits_mul_power (d : Decimal) (scale : Nat) :
    d.digits * (10 ^ (scale - d.scale) : Nat) = d.digitsAt scale := by
  rw [digitsAt]
  push_cast
  rfl

theorem value_eq_digitsAt {d : Decimal} {scale : Nat} (h : d.scale ≤ scale) :
    d.value = d.digitsAt scale / 10 ^ scale := by
  rw [value, digitsAt, div_eq_div_iff (by positivity) (by positivity)]
  push_cast
  rw [mul_assoc, ← pow_add, Nat.sub_add_cancel h]

/-! ## Results that fit

Each operation whose result is tested has a result exactly if the numbers on the way
fit. A power of ten fits up to the 38th, which is as far as
`powerOfTen?` goes. -/

theorem powerOfTen?_eq_some_iff {exponent power : Nat} :
    powerOfTen? exponent = some power ↔ exponent ≤ 38 ∧ power = 10 ^ exponent := by
  unfold powerOfTen?
  split <;> simp_all [eq_comm]

theorem fits_powerOfTen {exponent : Nat} (h : exponent ≤ 38) :
    FitsDigits (10 ^ exponent : Nat) := by
  have le : 10 ^ exponent ≤ 10 ^ 38 := Nat.pow_le_pow_right (by decide) h
  have bound : 10 ^ 38 < Nat.pow 2 127 := by decide
  have lt := le.trans_lt bound
  exact ⟨by generalize 10 ^ exponent = power; omega, Int.ofNat_lt.mpr lt⟩

theorem fits_powerOfTen_iff {exponent : Nat} :
    FitsDigits (10 ^ exponent : Nat) ↔ exponent ≤ 38 := by
  -- The greatest power of ten that fits is the thirty-eighth.
  refine ⟨fun ⟨_, upper⟩ => ?_, fits_powerOfTen⟩
  by_contra above
  have le : 10 ^ 39 ≤ 10 ^ exponent := Nat.pow_le_pow_right (by decide) (by omega)
  have bound : Nat.pow 2 127 < 10 ^ 39 := by decide
  exact absurd (Int.ofNat_lt.mp upper) (by omega)

theorem fits_ten_pow_iff {exponent : Nat} : FitsDigits (10 ^ exponent) ↔ exponent ≤ 38 := by
  rw [← fits_powerOfTen_iff]
  push_cast
  rfl

theorem fitting?_eq_some_iff {n m : Int} : fitting? n = some m ↔ FitsDigits n ∧ m = n := by
  unfold fitting?
  split <;> simp_all [eq_comm]

theorem make?_eq_some {digits : Int} {scale : Nat} {d : Decimal} (h : make? digits scale = some d) :
    d.digits = digits ∧ d.scale = scale := by
  unfold make? at h
  split at h
  · cases h
    exact ⟨rfl, rfl⟩
  · cases h

/-- The digits fit a scale that is not smaller, and so does the power of ten that takes
them there. -/
def FitsAt (d : Decimal) (scale : Nat) : Prop :=
  scale - d.scale ≤ 38 ∧ FitsDigits (d.digitsAt scale)

theorem rescaled?_eq_some_iff {d : Decimal} {scale : Nat} {m : Int} :
    d.rescaled? scale = some m ↔ d.FitsAt scale ∧ m = d.digitsAt scale := by
  simp only [rescaled?, Option.bind_eq_bind, Option.bind_eq_some_iff, powerOfTen?_eq_some_iff,
    fitting?_eq_some_iff]
  constructor
  · rintro ⟨_, ⟨small, rfl⟩, fits, same⟩
    rw [digits_mul_power] at fits same
    exact ⟨⟨small, fits⟩, same⟩
  · rintro ⟨⟨small, fits⟩, same⟩
    rw [← digits_mul_power] at fits same
    exact ⟨_, ⟨small, rfl⟩, fits, same⟩

/-- The numbers that giving a decimal at another scale goes through. -/
def rescaleTrace (d : Decimal) (scale : Nat) : List Int :=
  [(10 ^ (scale - d.scale) : Nat), d.digitsAt scale]

theorem fits_rescaleTrace_iff {d : Decimal} {scale : Nat} :
    (∀ n ∈ d.rescaleTrace scale, FitsDigits n) ↔ d.FitsAt scale := by
  simp only [rescaleTrace, List.forall_mem_cons, List.not_mem_nil, false_implies, implies_true,
    and_true, fits_powerOfTen_iff, FitsAt]

/-! ## Decimals that are rounded

Rounding gives the decimal, or stops, for operands that fit; every caller has tested its
operands before. -/

/-- A decimal is `x` rounded to so many places, halves away from zero, and the numbers
on the way to it have not left the digits. -/
structure Rounds (d : Decimal) (x : ℚ) (places : Nat) (trace : List Int) : Prop where
  scale : d.scale = places
  digits : d.digits = roundAway (x * 10 ^ places)
  fits : ∀ n ∈ trace, FitsDigits n

section
variable {num : Int} {den places : Nat} (positive : 0 < den) (num_fits : FitsDigits num)
  (den_fits : FitsDigits den)
include positive num_fits den_fits

theorem rounded_ok {d : Decimal} (h : rounded num den places = .ok d) :
    d.scale = places ∧ d.digits = roundAway (num / den) ∧
      ∀ n ∈ roundingTrace num den, FitsDigits n := by
  rw [rounded, roundedQuotient_eq positive num_fits den_fits] at h
  split at h
  · next fits =>
    obtain ⟨digits, scale⟩ := make?_eq_some (tested_ok_iff.mp h)
    exact ⟨scale, digits, (fits_roundingTrace_iff positive num_fits den_fits).mpr fits⟩
  · cases h

theorem exists_rounded_ok_iff (few : places < Nat.pow 2 32) :
    (∃ d, rounded num den places = .ok d) ↔ DoubleFits num den := by
  rw [rounded, roundedQuotient_eq positive num_fits den_fits]
  split
  · next fits =>
    have made : make? (roundAway (num / den)) places = some ⟨_, _, _, _⟩ :=
      dif_pos ⟨fits_roundAway positive num_fits, few⟩
    exact iff_of_true ⟨_, congrArg tested made⟩ fits
  · next unfit => exact iff_of_false (by rintro ⟨d, ⟨⟩⟩) unfit

theorem rounded_overflow_iff {step : UntestedStep} :
    rounded num den places = .error (.overflow step) ↔
      step = .doubledRemainder ∧ ¬ DoubleFits num den := by
  rw [rounded, roundedQuotient_eq positive num_fits den_fits]
  split
  · next fits =>
    refine iff_of_false (fun h => ?_) fun h => h.2 fits
    have tested_eq : tested (make? (roundAway (num / den)) places) = .error (.overflow step) := h
    cases made : make? (roundAway (num / den)) places <;>
      simp [made, pure, Except.pure] at tested_eq
  · next unfit => simp [bind, Except.bind, unfit, eq_comm]

end

/-! ## Quantising

Adding places multiplies and taking places away divides. Both are one division of the
digits at the larger scale, which is exact where places are added. -/

/-- Quantising divides the digits, at the larger of the two scales, by this power of
ten. It is one where places are added. -/
def quantizeDen (d : Decimal) (places : Nat) : Nat := 10 ^ (d.scale - places)

theorem quantizeDen_pos (d : Decimal) (places : Nat) : 0 < d.quantizeDen places :=
  Nat.pow_pos (by decide)

theorem value_mul_power (d : Decimal) (places : Nat) :
    d.value * 10 ^ places = d.digitsAt places / d.quantizeDen places := by
  rw [value, digitsAt, quantizeDen, div_mul_eq_mul_div, div_eq_div_iff (by positivity)
    (by positivity)]
  push_cast
  rw [mul_assoc, mul_assoc, ← pow_add, ← pow_add]
  congr 2
  omega

/-- The numbers that quantising finds before it divides. -/
def quantizeTrace (d : Decimal) (places : Nat) : List Int :=
  d.rescaleTrace places ++ [(d.quantizeDen places : Int)]

/-- Where places are added the division is by one. -/
theorem rounded_one {num : Int} (fits : FitsDigits num) (places : Nat) :
    rounded num (1 : Nat) places = tested (make? num places) := by
  have small : DoubleFits num 1 := by
    rw [DoubleFits, Nat.mod_one]
    exact Nat.pow_pos (by decide)
  have whole : roundAway (num / (1 : Nat)) = num := by
    rw [roundAway_eq_tdiv num Nat.one_pos]
    simp
  rw [rounded, roundedQuotient_eq Nat.one_pos fits (by decide), if_pos small, whole]
  rfl

theorem quantize_iff {d : Decimal} {places : Nat} {outcome : Except Failure Decimal}
    (made : outcome ≠ .error .noValue) : d.quantize places = outcome ↔
      (∀ n ∈ d.quantizeTrace places, FitsDigits n) ∧
        rounded (d.digitsAt places) (d.quantizeDen places) places = outcome := by
  rw [quantizeTrace, List.forall_mem_append, List.forall_mem_singleton, fits_rescaleTrace_iff,
    quantize]
  split
  · next le =>
    -- Enough places: the digits are only scaled up, which rounds over one.
    have one : d.quantizeDen places = 1 := by rw [quantizeDen, Nat.sub_eq_zero_of_le le, pow_zero]
    have one_fits : FitsDigits ((1 : Nat) : Int) := by decide
    simp only [tested_bind_iff made, rescaled?_eq_some_iff, one, one_fits, and_true]
    constructor
    · rintro ⟨_, ⟨fits, rfl⟩, result⟩
      exact ⟨fits, (rounded_one fits.2 places).trans result⟩
    · rintro ⟨fits, result⟩
      exact ⟨_, ⟨fits, rfl⟩, (rounded_one fits.2 places).symm.trans result⟩
  · next gt =>
    -- Too many places: the digits stay and are divided by a power of ten.
    have same : d.digitsAt places = d.digits := by
      rw [digitsAt, Nat.sub_eq_zero_of_le (by omega), pow_zero, mul_one]
    have fits : d.FitsAt places := ⟨by omega, same.symm ▸ d.digits_fit⟩
    simp only [tested_bind_iff made, powerOfTen?_eq_some_iff, fits, true_and, same, quantizeDen,
      fits_powerOfTen_iff]
    exact ⟨fun ⟨_, ⟨small, power⟩, result⟩ => ⟨small, power ▸ result⟩,
      fun ⟨small, result⟩ => ⟨_, ⟨small, rfl⟩, result⟩⟩

section
variable {d q : Decimal} {places : Nat}

theorem quantize_ok (h : d.quantize places = .ok q) : q.Rounds d.value places
    (d.quantizeTrace places ++ roundingTrace (d.digitsAt places) (d.quantizeDen places)) := by
  obtain ⟨fits, result⟩ := (quantize_iff (by simp)).mp h
  obtain ⟨scale, digits, trace_fits⟩ := rounded_ok (d.quantizeDen_pos places)
    (fits _ (by simp [quantizeTrace, rescaleTrace])) (fits _ (by simp [quantizeTrace])) result
  exact ⟨scale, by rw [digits, value_mul_power], List.forall_mem_append.mpr ⟨fits, trace_fits⟩⟩

theorem quantize_overflow_iff {step : UntestedStep} :
    d.quantize places = .error (.overflow step) ↔ step = .doubledRemainder ∧
      (∀ n ∈ d.quantizeTrace places, FitsDigits n) ∧
        ¬ DoubleFits (d.digitsAt places) (d.quantizeDen places) := by
  rw [quantize_iff (by simp), and_left_comm]
  refine and_congr_right fun fits => ?_
  exact rounded_overflow_iff (d.quantizeDen_pos places)
    (fits _ (by simp [quantizeTrace, rescaleTrace])) (fits _ (by simp [quantizeTrace]))

end

end Decimal

end MapConfig
