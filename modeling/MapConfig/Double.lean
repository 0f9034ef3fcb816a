import MapConfig.Rounding

/-! Doubles as exact numbers. A finite double is a whole significand times a
power of two, and every rational has a nearest double; both directions are
exact arithmetic on natural numbers. -/
namespace MapConfig

/-- The number `significand * 2 ^ exponent`. -/
structure Dyadic where
  significand : Nat
  exponent : Int

namespace Double

/-- The sign bit, which minus zero has as well. -/
def isNegative (x : Float) : Bool := decide (Nat.pow 2 63 ≤ x.toBits.toNat)

/-- The absolute value of a finite double. -/
def magnitude (x : Float) : Dyadic :=
  let bits := x.toBits.toNat % Nat.pow 2 63
  let exponent : Nat := bits / Nat.pow 2 52
  let fraction := bits % Nat.pow 2 52
  if exponent = 0 then ⟨fraction, -1074⟩ else ⟨Nat.pow 2 52 + fraction, Int.ofNat exponent - 1075⟩

/-- `num / den / 2 ^ shift` as a fraction. -/
def shifted (num den : Nat) (shift : Int) : Nat × Nat :=
  (num * Nat.pow 2 (-shift).toNat, den * Nat.pow 2 shift.toNat)

/-- The whole number `n` with `2 ^ n ≤ num / den < 2 ^ (n + 1)`. -/
def binaryOrder (num den : Nat) : Int :=
  let guess : Int := (Nat.log2 num : Int) - Nat.log2 den
  let (a, b) := shifted num den guess
  if b ≤ a then guess else guess - 1

/-- The bits of the double nearest to `num / den`, an exact half going to the
even significand. The bits of the doubles from zero up are consecutive, so a
significand that rounds up to the next power of two carries into the exponent
by itself, and everything from the first unrepresentable number on is infinite. -/
def nearestBits (num den : Nat) : Nat :=
  if num = 0 then 0 else
    let unit := max (binaryOrder num den - 52) (-1074)
    let (a, b) := shifted num den unit
    min ((unit + 1074).toNat * Nat.pow 2 52 + roundDiv a b .toEven) (2047 * Nat.pow 2 52)

/-- The double nearest to `num / den`. -/
def nearest (num den : Nat) : Float := Float.ofBits (nearestBits num den).toUInt64

def infinity : Float := Float.ofBits 0x7FF0000000000000

/-- The double nearest to a whole number. -/
def ofInt (n : Int) : Float :=
  let x := nearest n.natAbs 1
  if n < 0 then -x else x

/-- The double nearest to `digits * 10 ^ exponent`. Exponents that put the
number far outside the range of doubles are answered without forming the power. -/
def ofDecimal (digits : Nat) (exponent : Int) : Float :=
  let order := (Nat.toDigits 10 digits).length + exponent
  if digits = 0 then 0.0
  else if 400 < order then infinity
  else if order < -400 then 0.0
  else nearest (digits * Nat.pow 10 exponent.toNat) (Nat.pow 10 (-exponent).toNat)

def powerOfTen (n : Nat) : Float := ofDecimal 1 n

/-- The place of a double in the order that runs from the negative infinity
over minus zero and zero to the infinity. -/
def orderKey (x : Float) : Int :=
  let bits := x.toBits.toNat
  if isNegative x then -(bits % Nat.pow 2 63 : Nat) - 1 else bits

end Double

end MapConfig
