import MapConfig.Double

/-! The shortest decimal of a double: of all decimals that lie among the reals
rounding to the double, one with the fewest digits, and of those the nearest.
An exact half between two of them is settled by the format that asks. -/
namespace MapConfig.Double

/-- The number `digits * 10 ^ exponent`. -/
structure ShortDecimal where
  digits : Nat
  exponent : Int
deriving Repr, DecidableEq

/-- A decimal `n * 10 ^ grid` and the number `m * 2 ^ q`, as whole multiples of
one unit: the factors of `n` and of `m`. -/
def commonFactors (grid q : Int) : Nat × Nat :=
  (Nat.pow 10 grid.toNat * Nat.pow 2 (-q).toNat, Nat.pow 2 q.toNat * Nat.pow 10 (-grid).toNat)

/-- Whether `n * 10 ^ grid` rounds to the double `x`. Half the gap to the next
double lies on either side of `x`, except that the gap below a power of two is
half as wide; the ends belong to `x` exactly when its significand is even. -/
def readsBack (x : Dyadic) (n : Nat) (grid : Int) : Bool :=
  let (f, g) := commonFactors grid x.exponent
  let narrow := x.significand = Nat.pow 2 52 ∧ -1074 < x.exponent
  let low := (if narrow then 4 * x.significand - 1 else 4 * x.significand - 2) * g
  let high := (4 * x.significand + 2) * g
  let candidate := 4 * n * f
  if x.significand % 2 = 0 then low ≤ candidate ∧ candidate ≤ high
  else low < candidate ∧ candidate < high

/-- Picks between the neighbours `below` and `below + 1` of `x` on a grid. -/
def onGrid? (x : Dyadic) (tie : Tie) (grid : Int) : Option Nat :=
  let (f, g) := commonFactors grid x.exponent
  let value := x.significand * g
  let below := value / f
  match readsBack x below grid, readsBack x (below + 1) grid with
  | true, true => some (roundDiv value f tie)
  | true, false => some below
  | false, true => some (below + 1)
  | false, false => none

/-- The least `k` with `significand * 2 ^ exponent < 10 ^ k`, for a significand
other than zero: a logarithm in whole numbers, corrected by exact comparison. -/
def decimalOrder (x : Dyadic) : Int :=
  let guess := ((Nat.log2 x.significand : Int) + x.exponent) * 30103 / 100000
  let under := fun (k : Int) =>
    let (f, g) := commonFactors k x.exponent
    decide (x.significand * g < f)
  if under guess then guess
  else if under (guess + 1) then guess + 1
  else guess + 2

/-- Seventeen digits identify every double, so one of the grids has a hit; the
exact value stands in for the case that never arises. -/
def shortest (x : Dyadic) (tie : Tie) : ShortDecimal :=
  if x.significand = 0 then ⟨0, 0⟩ else
    let order := decimalOrder x
    let hit := (List.range 17).findSome? fun (count : Nat) =>
      let grid := order - 1 - count
      (onGrid? x tie grid).map fun n => (⟨n, grid⟩ : ShortDecimal)
    match hit with
    | some ⟨n, grid⟩ => if n % 10 = 0 then ⟨n / 10, grid + 1⟩ else ⟨n, grid⟩
    | none =>
      let digits := x.significand * Nat.pow 2 x.exponent.toNat * Nat.pow 5 (-x.exponent).toNat
      ⟨digits, min x.exponent 0⟩

end MapConfig.Double
