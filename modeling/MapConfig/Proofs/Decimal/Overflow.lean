import MapConfig.Proofs.Decimal.Literal
import MapConfig.Ramp

/-! The steps of reading a decimal whose results are not tested. The digits are made up
within their type, and so is their negation. The scale is not: an exponent close to the
least that is read takes it out of its type, and the program stops there. Wherever the
scale is found, it can be negated as well. -/
namespace MapConfig.Decimal

namespace Literal

/-! ## Stops

`stops_iff` looks at a literal, for which the outcome of reading is known piece by
piece; every other text has no value before a step without a test is reached. -/

variable {n : Literal} {text : String}

theorem StandsIn.stops_iff (h : n.StandsIn text) {step : UntestedStep} :
    parse text = .error (.overflow step) ↔
      step = .scale ∧ n.ReachesScale ∧ (Nat.pow 2 63 : Int) ≤ n.scale := by
  rw [h.parse_eq]
  split_ifs with reaches near
  · have made : tested (withScale? n.digits n.scale) ≠ .error (.overflow step) := by
      cases withScale? n.digits n.scale <;> simp [tested]
    exact iff_of_false made fun h => absurd h.2.2 (Int.not_le.mpr near)
  · simp only [reaches, Int.not_lt.mp near, and_true, Except.error.injEq, Failure.overflow.injEq,
      eq_comm]
  · simp only [reaches, false_and, and_false, Except.error.injEq, reduceCtorEq]

end Literal

/-- A text stops the program under any setting that asks for a decimal. -/
theorem decimal_text_stops_iff {text key subject : String} {step : UntestedStep} :
    (Tree.text text).decimal key subject = .error (.overflow step) ↔
      parse text = .error (.overflow step) :=
  ConfigError.mapError_overflow_iff (by simp)

/-- Reading a text stops the program exactly if the text is a literal whose exponent and
digits fit their types, but whose number of places exceeds its exponent by more than the
type of the scale holds. It is the subtraction that stops it: neither the digits nor the
scale are ever out of range when they are negated. A setting stops it with its text. -/
theorem reading_stops_iff (text : String) (step : UntestedStep) :
    (parse text = .error (.overflow step) ↔ step = .scale ∧
      ∃ n : Literal, n.StandsIn text ∧ n.ReachesScale ∧ (Nat.pow 2 63 : Int) ≤ n.scale) ∧
    ∀ key subject, (Tree.text text).decimal key subject = .error (.overflow step) ↔
      parse text = .error (.overflow step) := by
  refine ⟨⟨fun stops => ?_, ?_⟩, fun key subject => decimal_text_stops_iff⟩
  · obtain ⟨n, stands⟩ := exists_standsIn_of_parse (by simp) stops
    obtain ⟨rfl, reaches, far⟩ := stands.stops_iff.mp stops
    exact ⟨rfl, n, stands, reaches, far⟩
  · rintro ⟨rfl, n, stands, reaches, far⟩
    exact stands.stops_iff.mpr ⟨rfl, reaches, far⟩

/-- One, with the least exponent that 64 bits hold. -/
def leastPower : Literal where
  sign := .absent
  whole := ['1']
  fraction := none
  exponent := some ⟨'E', .minus, '9' :: "223372036854775808".toList, rfl, List.cons_ne_nil _ _,
    List.all_eq_true.mp rfl⟩
  given := List.cons_ne_nil _ _
  all_digits := List.all_eq_true.mp rfl

theorem reading_stops_iff_leastPower : leastPower.StandsIn "1E-9223372036854775808" ∧
    parse "1E-9223372036854775808" = .error (.overflow .scale) ∧
    (Tree.text "1E-9223372036854775808").decimal "ticks_every" "ndvi" =
      .error (.overflow .scale) := by
  obtain ⟨stops_iff, setting_iff⟩ := reading_stops_iff "1E-9223372036854775808" .scale
  have stands : leastPower.StandsIn "1E-9223372036854775808" :=
    ⟨[], [], List.all_eq_true.mp rfl, by decide⟩
  have reaches : leastPower.ReachesScale := ⟨by decide +kernel, by decide +kernel⟩
  have scale : leastPower.scale = Nat.pow 2 63 := by decide +kernel
  have stops := stops_iff.mpr ⟨rfl, leastPower, stands, reaches, scale.ge⟩
  exact ⟨stands, stops, (setting_iff _ _).mpr stops⟩

/-- The least exponent with no digit behind the point stops the program. -/
theorem not_every_text_is_safe :
    ¬ ∀ (text : String) (step : UntestedStep), parse text ≠ .error (.overflow step) := by
  intro every
  have stops : parse "1E-9223372036854775808" = .error (.overflow .scale) := by decide +kernel
  exact every _ _ stops

end MapConfig.Decimal
