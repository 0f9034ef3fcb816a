import MapConfig.Proofs.Decimal.Literal
import MapConfig.Proofs.Decimal.Sum
import Mathlib.Data.Set.Pairwise.Basic

/-! The order of decimals. Each comparison takes place at a scale of its own, so what
three comparisons have to do with each other is found on the numbers, which do not
change when digits are taken to another scale. Where all pairs of a set are compared
exactly, the set is totally ordered, up to decimals of one number. -/
namespace MapConfig.Decimal

/-! ## Decimals that are compared exactly

The condition is on the decimal at the smaller scale, which is the only one that is
rescaled. From it both operands fit the larger scale, `Aligned`, and the comparison is
that of the numbers. -/

/-- The one of two decimals that is given at the smaller scale. -/
def coarser (a b : Decimal) : Decimal := if a.scale ≤ b.scale then a else b

/-- Ten to the difference of the scales. -/
def spanPower (a b : Decimal) : Int := 10 ^ (max a.scale b.scale - min a.scale b.scale)

/-- Ten to the difference of the scales fits the digits, and so does its product with
the digits at the smaller scale. -/
structure SpanFits (a b : Decimal) : Prop where
  power : FitsDigits (spanPower a b)
  product : FitsDigits ((coarser a b).digits * spanPower a b)

instance (a b : Decimal) : Decidable (SpanFits a b) :=
  decidable_of_iff (FitsDigits (spanPower a b) ∧ FitsDigits ((coarser a b).digits * spanPower a b))
    ⟨fun h => ⟨h.1, h.2⟩, fun h => ⟨h.power, h.product⟩⟩

variable {a b : Decimal}

theorem SpanFits.aligned (h : SpanFits a b) : Aligned a b := by
  obtain ⟨power, product⟩ := h
  have small := fits_ten_pow_iff.mp power
  rw [coarser, spanPower] at product
  -- At the larger scale only the other decimal is rescaled.
  rcases Nat.le_total a.scale b.scale with le | le
  · rw [max_eq_right le, min_eq_left le] at small product
    rw [if_pos le] at product
    exact .of_fitsAt ⟨small, product⟩ le
  · rw [max_eq_left le, min_eq_right le] at small product
    refine (Aligned.of_fitsAt ⟨small, ?_⟩ le).symm
    by_cases same : a.scale ≤ b.scale
    · rw [Nat.le_antisymm same le, digitsAt_self]
      exact b.digits_fit
    · rwa [if_neg same] at product

/-- Comparison orders these decimals totally, up to those that it finds equal. -/
structure OrdersTotally (s : Set Decimal) : Prop where
  refl : ∀ a ∈ s, a.compare a = .eq
  antisymm : ∀ a ∈ s, ∀ b ∈ s, a.compare b ≠ .gt → b.compare a ≠ .gt → a.compare b = .eq
  trans : ∀ a ∈ s, ∀ b ∈ s, ∀ c ∈ s,
    a.compare b ≠ .gt → b.compare c ≠ .gt → a.compare c ≠ .gt
  total : ∀ a ∈ s, ∀ b ∈ s, a.compare b ≠ .gt ∨ b.compare a ≠ .gt
  swap : ∀ a ∈ s, ∀ b ∈ s, b.compare a = (a.compare b).swap

theorem ordersTotally_of_aligned {s : Set Decimal} (h : ∀ a ∈ s, ∀ b ∈ s, Aligned a b) :
    OrdersTotally s where
  refl a ha := (h a ha a ha).compares.eq_eq.mpr rfl
  antisymm a ha b hb ab ba := by
    rw [(h a ha b hb).compares.ne_gt] at ab
    rw [(h b hb a ha).compares.ne_gt] at ba
    exact (h a ha b hb).compares.eq_eq.mpr (ab.antisymm ba)
  trans a ha b hb c hc ab bc := by
    rw [(h a ha b hb).compares.ne_gt] at ab
    rw [(h b hb c hc).compares.ne_gt] at bc
    exact (h a ha c hc).compares.ne_gt.mpr (ab.trans bc)
  total a ha b hb := by
    rw [(h a ha b hb).compares.ne_gt, (h b hb a ha).compares.ne_gt]
    exact le_total a.value b.value
  swap a _ b _ := compare_swap a b

theorem aligned_of_pairwise {s : Set Decimal} (h : s.Pairwise SpanFits) (ha : a ∈ s) (hb : b ∈ s) :
    Aligned a b := by
  by_cases same : a = b
  · exact same ▸ .refl a
  · exact (h ha hb same).aligned

/-! ## Sums

A sum that has a value is given at the larger scale, where its operands fit, so that
comparing it with them is exact. -/

variable {sum : Decimal}

theorem IsSum.symm (h : IsSum a b sum) : IsSum b a sum where
  aligned := h.aligned.symm
  scale := h.scale.trans (max_comm a.scale b.scale)
  digits := h.digits.trans (add_comm _ _)

/-- Nothing but the digits of the operands and of the result can keep a sum from having
a value. -/
theorem add?_eq_some_iff : a.add? b = some sum ↔ IsSum a b sum := by
  refine ⟨add?_eq_some, fun h => ?_⟩
  have made : make? (a.digitsAt (max a.scale b.scale) + b.digitsAt (max a.scale b.scale))
      (max a.scale b.scale) = some sum :=
    Literal.make?_eq_some_iff.mpr ⟨h.scale ▸ h.digits, h.scale⟩
  simp only [add?, h.aligned.left.rescaled?, h.aligned.right.rescaled?, Option.bind_eq_bind,
    Option.bind_some, made]

theorem add?_comm (a b : Decimal) : a.add? b = b.add? a := by
  ext sum
  rw [add?_eq_some_iff, add?_eq_some_iff]
  exact ⟨IsSum.symm, IsSum.symm⟩

/-- A sum is compared exactly with its operands, which fit its scale. -/
theorem IsSum.aligned_left (h : IsSum a b sum) : Aligned a sum :=
  .of_fitsAt (h.scale ▸ h.aligned.left) (h.scale ▸ le_max_left a.scale b.scale)

theorem IsSum.compare_eq_gt (h : IsSum a b sum) (positive : 0 < b.digits) :
    sum.compare a = .gt := by
  rw [h.aligned_left.symm.compares.eq_gt, h.value_eq]
  exact lt_add_of_pos_right a.value (value_pos positive)

/-- Comparing two decimals gives the order of their numbers, and `eq` for one number
whatever the scales, where the digits at the smaller scale can be taken to the larger
one; a set of such decimals is totally ordered. Adding does not depend on the order of
the operands. A sum has a value if the operands fit the larger scale and the sum of
their digits does; the value is exact, at that scale, and above the one operand if the
other is positive. -/
theorem compared_and_added_exactly :
    (∀ a b, SpanFits a b → (a.compare b).Compares a.value b.value ∧
      ((a.compare b == .eq) = true ↔ a.value = b.value)) ∧
    (∀ s : Set Decimal, s.Pairwise SpanFits → OrdersTotally s) ∧
    ∀ a b, a.add? b = b.add? a ∧ (∀ sum, a.add? b = some sum ↔ IsSum a b sum) ∧
      ∀ sum, a.add? b = some sum → sum.scale = max a.scale b.scale ∧
        sum.value = a.value + b.value ∧ (0 < b.digits → sum.compare a = .gt) := by
  refine ⟨fun a b fits => ?_, fun s pairs => ?_, fun a b => ?_⟩
  · have compares := fits.aligned.compares
    exact ⟨compares, beq_iff_eq.trans compares.eq_eq⟩
  · exact ordersTotally_of_aligned fun a ha b hb => aligned_of_pairwise pairs ha hb
  · refine ⟨add?_comm a b, fun sum => add?_eq_some_iff, fun sum added => ?_⟩
    have isSum := add?_eq_some added
    exact ⟨isSum.scale, isSum.value_eq, isSum.compare_eq_gt⟩

/-- One half, as `0.5` and as `0.500`, and three quarters. -/
def half : Decimal := ⟨5, 1, by decide, by decide⟩

def halfPadded : Decimal := ⟨500, 3, by decide, by decide⟩

def threeQuarters : Decimal := ⟨750, 3, by decide, halfPadded.scale_lt⟩

/-- The halves are equal, and the three decimals are totally ordered. The halves have the
sum `1.000`, which is above them. -/
theorem compared_and_added_exactly_halves :
    half.value = halfPadded.value ∧ half.compare halfPadded = .eq ∧
    half.value < threeQuarters.value ∧ half.compare threeQuarters = .lt ∧
    OrdersTotally {half, halfPadded, threeQuarters} ∧
    ∃ sum, half.add? halfPadded = some sum ∧ sum.digits = 1000 ∧ sum.scale = 3 ∧
      sum.value = half.value + halfPadded.value ∧ sum.compare half = .gt := by
  obtain ⟨compared, ordered, added⟩ := compared_and_added_exactly
  obtain ⟨-, equal⟩ := compared half halfPadded (by decide)
  obtain ⟨compares, -⟩ := compared half threeQuarters (by decide)
  have below : half.compare threeQuarters = .lt := by decide
  have pairs : ∀ a ∈ [half, halfPadded, threeQuarters], ∀ b ∈ [half, halfPadded, threeQuarters],
      SpanFits a b := by decide
  have total : OrdersTotally {half, halfPadded, threeQuarters} :=
    ordered _ fun a ha b hb _ => pairs a (by simpa using ha) b (by simpa using hb)
  obtain ⟨-, -, sums⟩ := added half halfPadded
  obtain ⟨sum, hsum⟩ := Option.isSome_iff_exists.mp (by decide : (half.add? halfPadded).isSome)
  obtain ⟨scale, value, greater⟩ := sums sum hsum
  have digits : (half.add? halfPadded).map digits = some 1000 := by decide
  rw [hsum] at digits
  exact ⟨equal.mp (by decide), by decide, compares.eq_lt.mp below, below, total, sum, hsum,
    Option.some.inj digits, scale, value, greater (by decide)⟩

end MapConfig.Decimal
