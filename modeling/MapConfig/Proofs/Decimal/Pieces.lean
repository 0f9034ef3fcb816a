import MapConfig.Decimal.Text
import MapConfig.Proofs.Decimal.Rounding
import Mathlib.Data.List.Induction

/-! A decimal is read from the pieces of its text: digits, their number behind the point,
and an exponent. The digits are made up in 128 bits with a sign, each step tested, and
that asks no more than that they fit in the end. The scale is taken in 64 bits and not
tested. It fits unless it is too large, and what is made of a scale that fits is the
same number that unbounded arithmetic gives. -/
namespace MapConfig

/-- A whole number that 64 bits with a sign hold. -/
abbrev FitsExponent (n : Int) : Prop := FitsBits 63 n

namespace Decimal

/-! ## The digits

Digits only grow as further ones are read, so a test that fails on the way fails at the
end as well. -/

theorem digitsValue_concat (digits : List Char) (c : Char) :
    Double.digitsValue (digits ++ [c]) =
      10 * Double.digitsValue digits + (c.toNat - '0'.toNat) := by
  simp [Double.digitsValue]

theorem fitting?_natCast (n : Nat) :
    fitting? n = if n < Nat.pow 2 127 then some (n : Int) else none := by
  have nonneg : -(Nat.pow 2 127 : Int) ≤ n := by
    have bound : 0 ≤ (Nat.pow 2 127 : Int) := Int.natCast_nonneg _
    omega
  simp only [fitting?, FitsBits, nonneg, true_and]
  norm_cast

theorem push?_natCast (n : Nat) (c : Char) : push? n c =
    if c.isDigit ∧ 10 * n + (c.toNat - '0'.toNat) < Nat.pow 2 127
      then some ((10 * n + (c.toNat - '0'.toNat) : Nat) : Int) else none := by
  have shifted : (n : Int) * 10 = (10 * n : Nat) := by
    push_cast
    ring
  rw [push?, shifted, fitting?_natCast]
  by_cases isDigit : c.isDigit
  · by_cases room : 10 * n < Nat.pow 2 127
    · rw [if_pos isDigit, if_pos room, Option.bind_eq_bind, Option.bind_some, ← Int.natCast_add,
        fitting?_natCast]
      simp only [isDigit, true_and]
    · have no_room : ¬ (c.isDigit ∧ 10 * n + (c.toNat - '0'.toNat) < Nat.pow 2 127) := by omega
      rw [if_pos isDigit, if_neg room, if_neg no_room]
      rfl
  · rw [if_neg isDigit, if_neg fun h => isDigit h.1]

theorem accumulate?_concat (digits : List Char) (c : Char) :
    accumulate? (digits ++ [c]) = (accumulate? digits).bind (push? · c) := by
  rw [accumulate?, List.foldlM_append]
  simp [accumulate?]

/-- The tests on the way ask no more than that the number fits in the end. -/
theorem accumulate?_eq (digits : List Char) : accumulate? digits =
    if digits.all Char.isDigit ∧ Double.digitsValue digits < Nat.pow 2 127
      then some (Double.digitsValue digits : Int) else none := by
  induction digits using List.reverseRecOn with
  | nil => exact (if_pos ⟨rfl, Nat.two_pow_pos 127⟩).symm
  | append_singleton digits c ih =>
    have all_concat : (digits ++ [c]).all Char.isDigit ↔ digits.all Char.isDigit ∧ c.isDigit := by
      simp
    rw [accumulate?_concat, ih]
    simp only [digitsValue_concat, all_concat]
    split
    · next fits =>
      rw [Option.bind_some, push?_natCast]
      exact if_congr (by rw [and_iff_right fits.1]) rfl rfl
    · next unfit =>
      have still : ¬ ((digits.all Char.isDigit ∧ c.isDigit) ∧
          10 * Double.digitsValue digits + (c.toNat - '0'.toNat) < Nat.pow 2 127) := by
        rintro ⟨⟨all, _⟩, fits⟩
        exact unfit ⟨all, by omega⟩
      rw [if_neg still]
      rfl

/-! ## The scale

`withScale?` is the same calculation without any bound on the scale. It agrees with
`atScale` wherever the scale can be negated. -/

/-- The digits at a scale, one below zero taken into the digits, in unbounded arithmetic. -/
def withScale? (digits scale : Int) : Option Decimal :=
  if 0 ≤ scale then make? digits scale.toNat
  else do make? (digits * (← powerOfTen? (-scale).toNat)) 0

/-- Only the least scale of all could not be negated. -/
theorem atScale_eq {digits scale : Int} (not_least : -(Nat.pow 2 63 : Int) < scale) :
    atScale digits scale = tested (withScale? digits scale) := by
  rw [atScale, withScale?]
  split
  · rfl
  · next below =>
    have fits : FitsBits UntestedStep.negatedScale.bits (-scale) := by
      show -((Nat.pow 2 63 : Nat) : Int) ≤ -scale ∧ -scale < ((Nat.pow 2 63 : Nat) : Int)
      omega
    rw [untested_of_fits fits, pure_bind]

variable {negative : Bool} {size places : Nat} {power : Int}

/-- The sign does not take the digits out of their type. -/
theorem signedDigits_eq (negative : Bool) (room : size < Nat.pow 2 127) :
    signedDigits negative size = pure (if negative then -(size : Int) else size) := by
  have fits : FitsBits UntestedStep.negatedDigits.bits (-(size : Int)) := by
    show -((Nat.pow 2 127 : Nat) : Int) ≤ -(size : Int) ∧
      -(size : Int) < ((Nat.pow 2 127 : Nat) : Int)
    omega
  cases negative
  · rfl
  · exact untested_of_fits fits

/-- Of the steps that are not tested only the one to the scale can stop the program. -/
theorem ofPieces_eq (room : size < Nat.pow 2 127) (exponent : FitsExponent power) :
    ofPieces negative size places power =
      if (places : Int) - power < Nat.pow 2 63
        then tested (withScale? (if negative then -(size : Int) else size) (places - power))
        else .error (.overflow .scale) := by
  rw [ofPieces, signedDigits_eq negative room, pure_bind]
  generalize (if negative then -(size : Int) else size) = digits
  obtain ⟨least, greatest⟩ := exponent
  split
  · next near =>
    have fits : FitsBits UntestedStep.scale.bits ((places : Int) - power) := by
      show -((Nat.pow 2 63 : Nat) : Int) ≤ places - power ∧
        (places : Int) - power < ((Nat.pow 2 63 : Nat) : Int)
      omega
    rw [untested_of_fits fits, pure_bind, atScale_eq (by omega)]
  · next far =>
    have beyond : ¬ FitsBits UntestedStep.scale.bits ((places : Int) - power) := fun h => far h.2
    rw [untested_of_not_fits beyond]
    rfl

/-! ## Reading

The sign is applied to digits whose size has been tested, so the negation stays in
range. -/

/-- What is read of a text that has been taken apart into digits and an exponent. -/
theorem parseChars_eq {text mantissa unsigned whole fraction : List Char}
    (taken : splitExponent? text = some (mantissa, power))
    (signed : Double.splitSign mantissa = (negative, unsigned))
    (pointed : splitPoint unsigned = (whole, fraction))
    (given : whole ++ fraction ≠ []) (all : ∀ c ∈ whole ++ fraction, c.isDigit)
    (exponent : FitsExponent power) : parseChars text =
      if Double.digitsValue (whole ++ fraction) < Nat.pow 2 127 then
        if (fraction.length : Int) - power < Nat.pow 2 63
          then tested (withScale? (if negative then -(Double.digitsValue (whole ++ fraction) : Int)
            else Double.digitsValue (whole ++ fraction)) (fraction.length - power))
          else .error (.overflow .scale)
      else .error .noValue := by
  have some_digit : ¬ (whole.isEmpty && fraction.isEmpty) = true := by simpa using given
  have digits : accumulate? (whole ++ fraction) =
      if Double.digitsValue (whole ++ fraction) < Nat.pow 2 127
        then some (Double.digitsValue (whole ++ fraction) : Int) else none := by
    rw [accumulate?_eq]
    exact if_congr (and_iff_right (List.all_eq_true.mpr all)) rfl rfl
  rw [parseChars, taken, tested_some, pure_bind]
  simp only [signed, pointed, some_digit, digits, Bool.false_eq_true, if_false]
  split
  · next room => exact ofPieces_eq room exponent
  · rfl

end Decimal

end MapConfig
