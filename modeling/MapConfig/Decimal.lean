import MapConfig.Double.Text

/-! Exact decimals, as ticks and ramp positions are given: whole digits and a
scale, so that `0.50` and `0.5` are the same number with different texts. The
digits fit 128 bits with a sign and the scale 32 bits without one; an operation
whose result or whose rescaled operand does not fit has no result. A few steps
are not tested in this way: where the result of one of them does not fit, the
program stops, and says so instead of going on with another number. -/
namespace MapConfig

/-- Whether a whole number fits so many bits and a sign. -/
def FitsBits (bits : Nat) (n : Int) : Prop := -(Nat.pow 2 bits : Int) ≤ n ∧ n < Nat.pow 2 bits

instance (bits : Nat) (n : Int) : Decidable (FitsBits bits n) :=
  inferInstanceAs (Decidable (_ ∧ _))

/-- Whether a whole number fits 128 bits with a sign, as digits do. -/
abbrev FitsDigits (n : Int) : Prop := FitsBits 127 n

/-- The number `digits / 10 ^ scale`: the `TickValue` of a legend or a ramp. -/
structure Decimal where
  digits : Int
  scale : Nat
  digits_fit : FitsDigits digits
  scale_lt : scale < Nat.pow 2 32
deriving DecidableEq

namespace Decimal

/-- The steps whose results are not tested. Three of them are taken when a text is
read, and three when a quotient is rounded. -/
inductive UntestedStep where
  | negatedDigits
  | scale
  | negatedScale
  | remainderSize
  | doubledRemainder
  | roundedUp
deriving DecidableEq, Repr

namespace UntestedStep

/-- The bits beside the sign that the result of the step has to fit. -/
def bits : UntestedStep → Nat
  | scale | negatedScale => 63
  | negatedDigits | remainderSize | doubledRemainder | roundedUp => 127

/-- What the program says when it stops at the step. -/
def message : UntestedStep → String
  | scale => "attempt to subtract with overflow"
  | negatedDigits | negatedScale | remainderSize => "attempt to negate with overflow"
  | doubledRemainder => "attempt to multiply with overflow"
  | roundedUp => "attempt to add with overflow"

end UntestedStep

/-- Why a calculation has no result: none is in range, or the program has stopped at
a step that is not tested. -/
inductive Failure where
  | noValue
  | overflow (step : UntestedStep)
deriving DecidableEq, Repr

/-- A result that has been tested. -/
def tested {α : Type} : Option α → Except Failure α
  | some a => .ok a
  | none => .error .noValue

@[simp] theorem tested_some {α : Type} (a : α) : tested (some a) = pure a := rfl

@[simp] theorem tested_none {α : Type} : tested (none : Option α) = .error .noValue := rfl

/-- A tested result that is there is the result itself. -/
theorem tested_ok_iff {α : Type} {result : Option α} {a : α} :
    tested result = .ok a ↔ result = some a := by
  cases result <;> simp [tested]

/-- What comes of a result that has been tested, a missing value apart. -/
theorem tested_bind_iff {α β : Type} {result : Option α} {f : α → Except Failure β}
    {outcome : Except Failure β} (made : outcome ≠ .error .noValue) :
    tested result >>= f = outcome ↔ ∃ a, result = some a ∧ f a = outcome := by
  cases result with
  | none => exact iff_of_false made.symm (by simp)
  | some a => simp [tested, bind, Except.bind]

/-- The result of a step that is not tested. -/
def untested (step : UntestedStep) (n : Int) : Except Failure Int :=
  if FitsBits step.bits n then .ok n else .error (.overflow step)

theorem untested_of_fits {step : UntestedStep} {n : Int} (h : FitsBits step.bits n) :
    untested step n = pure n := if_pos h

theorem untested_of_not_fits {step : UntestedStep} {n : Int} (h : ¬ FitsBits step.bits n) :
    untested step n = .error (.overflow step) := if_neg h

/-- A whole number, if it fits the digits of a decimal. -/
def fitting? (n : Int) : Option Int := if FitsDigits n then some n else none

/-- The decimal with the given digits and scale, if both fit. -/
def make? (digits : Int) (scale : Nat) : Option Decimal :=
  if h : FitsDigits digits ∧ scale < Nat.pow 2 32 then some ⟨digits, scale, h.1, h.2⟩ else none

/-- The decimal `0`, with no places. -/
def zero : Decimal := ⟨0, 0, by decide, by decide⟩

/-- A power of ten that fits the digits of a decimal. -/
def powerOfTen? (exponent : Nat) : Option Nat :=
  if exponent ≤ 38 then some (Nat.pow 10 exponent) else none

/-- The digits at a scale that is not smaller. -/
def rescaled? (d : Decimal) (scale : Nat) : Option Int := do
  let factor ← powerOfTen? (scale - d.scale)
  fitting? (d.digits * factor)

/-- The exact sum, at the larger of the two scales (`checked_add`). -/
def add? (a b : Decimal) : Option Decimal := do
  let scale := max a.scale b.scale
  make? ((← a.rescaled? scale) + (← b.rescaled? scale)) scale

/-- The quotient of a number and a positive one, rounded to the nearest whole number,
halves away from zero (`round_half_up`). The remainder is doubled to find out whether
it is at least a half, and neither its double nor anything else is tested. -/
def roundedQuotient (num den : Int) : Except Failure Int := do
  let quotient := num.tdiv den
  let remainder ← untested .remainderSize (num.tmod den).natAbs
  let doubled ← untested .doubledRemainder (remainder * 2)
  if den ≤ doubled then untested .roundedUp (quotient + num.sign) else return quotient

/-- The rounded quotient as the digits of so many places. -/
def rounded (num den : Int) (places : Nat) : Except Failure Decimal := do
  tested (make? (← roundedQuotient num den) places)

/-- The decimal rounded to exactly `places` places. -/
def quantize (d : Decimal) (places : Nat) : Except Failure Decimal := do
  if d.scale ≤ places then
    let digits ← tested (d.rescaled? places)
    tested (make? digits places)
  else
    let power ← tested (powerOfTen? (d.scale - places))
    rounded d.digits power places

/-- A power of ten by repeated squaring in double arithmetic. -/
def tenTo (exponent : Int) : Float :=
  let rec power : Nat → Nat → Float → Float → Float
    | 0, _, _, product => product
    | bits + 1, n, square, product =>
      let product := if n % 2 = 1 then product * square else product
      power bits (n / 2) (square * square) product
  let size := power 32 exponent.natAbs 10.0 1.0
  if exponent < 0 then 1.0 / size else size

/-- The quotient in double arithmetic. The scale is taken as a signed number of
32 bits. -/
def approximate (d : Decimal) : Float :=
  let exponent : Int := if d.scale < Nat.pow 2 31 then d.scale else (d.scale : Int) - Nat.pow 2 32
  Double.ofInt d.digits / tenTo exponent

/-- The place of the approximation among the doubles; an undefined quotient
stands below all of them. -/
def approximateKey (d : Decimal) : Int :=
  let x := d.approximate
  if x.isNaN then -(Nat.pow 2 64 : Int) else Double.orderKey x

/-- Compares at the larger scale, where both fit it, and else by approximation. -/
def compare (a b : Decimal) : Ordering :=
  let scale := max a.scale b.scale
  match a.rescaled? scale, b.rescaled? scale with
  | some m, some n => Ord.compare m n
  | _, _ => Ord.compare a.approximateKey b.approximateKey

/-- Whether one decimal is smaller than the other. -/
def isBelow (a b : Decimal) : Bool := a.compare b == .lt

end Decimal

end MapConfig
