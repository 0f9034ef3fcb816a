import MapConfig.Proofs.Decimal.Rounding
import Mathlib.Order.Compare

/-! Sums and comparisons of decimals, beside the numbers that they denote. Both take
place at the larger of two scales. A sum that has a value is exact; a comparison is the
order of the numbers where both sides fit the larger scale. -/
namespace MapConfig

namespace Decimal

/-! ## Digits at a larger scale

Rescaling is exact where it has a result. -/

theorem digitsAt_self (d : Decimal) : d.digitsAt d.scale = d.digits := by
  rw [digitsAt, Nat.sub_self, pow_zero, mul_one]

theorem digitsAt_pos {d : Decimal} (positive : 0 < d.digits) (scale : Nat) :
    0 < d.digitsAt scale :=
  mul_pos positive (by positivity)

theorem value_pos {d : Decimal} (positive : 0 < d.digits) : 0 < d.value :=
  div_pos (Int.cast_pos.mpr positive) (by positivity)

theorem fitsAt_self (d : Decimal) : d.FitsAt d.scale :=
  ⟨(Nat.sub_self _).trans_le (Nat.zero_le _), d.digitsAt_self ▸ d.digits_fit⟩

theorem FitsAt.rescaled? {d : Decimal} {scale : Nat} (h : d.FitsAt scale) :
    d.rescaled? scale = some (d.digitsAt scale) :=
  rescaled?_eq_some_iff.mpr ⟨h, rfl⟩

/-! ## Comparisons

At any scale that is large enough for both, the digits have the order of the numbers.
Whether comparison looks at such digits is what `Aligned` says. -/

theorem value_lt_iff {a b : Decimal} {scale : Nat} (ha : a.scale ≤ scale) (hb : b.scale ≤ scale) :
    a.value < b.value ↔ a.digitsAt scale < b.digitsAt scale := by
  rw [value_eq_digitsAt ha, value_eq_digitsAt hb, div_lt_div_iff_of_pos_right (by positivity),
    Int.cast_lt]

theorem value_eq_iff {a b : Decimal} {scale : Nat} (ha : a.scale ≤ scale) (hb : b.scale ≤ scale) :
    a.value = b.value ↔ a.digitsAt scale = b.digitsAt scale := by
  rw [value_eq_digitsAt ha, value_eq_digitsAt hb, div_left_inj' (by positivity), Int.cast_inj]

/-- Compared the other way round, the result is the opposite, approximated or not. -/
theorem compare_swap (a b : Decimal) : b.compare a = (a.compare b).swap := by
  rw [Decimal.compare, Decimal.compare, max_comm]
  cases a.rescaled? (max a.scale b.scale) <;> cases b.rescaled? (max a.scale b.scale) <;>
    exact Std.OrientedOrd.eq_swap

/-- Both sides fit the larger of their scales, so that nothing is approximated. -/
structure Aligned (a b : Decimal) : Prop where
  left : a.FitsAt (max a.scale b.scale)
  right : b.FitsAt (max a.scale b.scale)

theorem Aligned.of_fitsAt {a b : Decimal} (h : a.FitsAt b.scale) (le : a.scale ≤ b.scale) :
    Aligned a b where
  left := by rwa [max_eq_right le]
  right := by
    rw [max_eq_right le]
    exact b.fitsAt_self

theorem Aligned.symm {a b : Decimal} (h : Aligned a b) : Aligned b a where
  left := max_comm a.scale b.scale ▸ h.right
  right := max_comm a.scale b.scale ▸ h.left

theorem Aligned.refl (d : Decimal) : Aligned d d := .of_fitsAt d.fitsAt_self le_rfl

theorem Aligned.compare_eq {a b : Decimal} (h : Aligned a b) : a.compare b =
    Ord.compare (a.digitsAt (max a.scale b.scale)) (b.digitsAt (max a.scale b.scale)) := by
  simp only [Decimal.compare, h.left.rescaled?, h.right.rescaled?]

/-- The digits at the larger scale have the order of the numbers. -/
theorem Aligned.compares {a b : Decimal} (h : Aligned a b) :
    (a.compare b).Compares a.value b.value := by
  have left := le_max_left a.scale b.scale
  have right := le_max_right a.scale b.scale
  rw [h.compare_eq]
  cases order : Ord.compare (a.digitsAt _) (b.digitsAt _) with
  | lt => exact (value_lt_iff left right).mpr (Std.compare_eq_lt.mp order)
  | eq => exact (value_eq_iff left right).mpr (Std.compare_eq_iff_eq.mp order)
  | gt => exact (value_lt_iff right left).mpr (Std.compare_eq_gt.mp order)

theorem Aligned.isBelow_iff {a b : Decimal} (h : Aligned a b) :
    a.isBelow b = true ↔ a.value < b.value := by
  rw [isBelow, beq_iff_eq, h.compares.eq_lt]

/-! ## Sums

A sum tells that its operands fit, so nothing about them has to be assumed beside it. -/

/-- The number `s` is the exact sum of two others at the larger of their scales. -/
structure IsSum (a b s : Decimal) : Prop where
  aligned : Aligned a b
  scale : s.scale = max a.scale b.scale
  digits : s.digits = a.digitsAt s.scale + b.digitsAt s.scale

theorem add?_eq_some {a b s : Decimal} (h : a.add? b = some s) : IsSum a b s := by
  obtain ⟨_, rescaled, h⟩ := Option.bind_eq_some_iff.mp h
  obtain ⟨left, rfl⟩ := rescaled?_eq_some_iff.mp rescaled
  obtain ⟨_, rescaled, made⟩ := Option.bind_eq_some_iff.mp h
  obtain ⟨right, rfl⟩ := rescaled?_eq_some_iff.mp rescaled
  obtain ⟨digits, scale⟩ := make?_eq_some made
  exact ⟨⟨left, right⟩, scale, by rw [digits, scale]⟩

theorem IsSum.value_eq {a b s : Decimal} (h : IsSum a b s) : s.value = a.value + b.value := by
  have left : a.scale ≤ s.scale := h.scale ▸ le_max_left _ _
  have right : b.scale ≤ s.scale := h.scale ▸ le_max_right _ _
  rw [value, h.digits, value_eq_digitsAt left, value_eq_digitsAt right, ← add_div]
  push_cast
  rfl

end Decimal

end MapConfig
