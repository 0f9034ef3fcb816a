import MapConfig.Double.Text

/-! Whole numbers in decimal text, read into a bounded range. -/
namespace MapConfig.Text

/-- An optional sign and at least one digit. The sign may be a minus only where
the range reaches below zero. -/
def boundedInt? (least greatest : Int) (text : List Char) : Option Int :=
  let (negative, digits) := match text with
    | '-' :: rest => if least < 0 then (true, rest) else (false, text)
    | '+' :: rest => (false, rest)
    | _ => (false, text)
  if digits.isEmpty || !digits.all Char.isDigit then none else
    let size : Int := Double.digitsValue digits
    let value := if negative then -size else size
    if least ≤ value ∧ value ≤ greatest then some value else none

/-- Reads a signed number of 64 bits. -/
def int64? (text : List Char) : Option Int :=
  boundedInt? (-(Nat.pow 2 63 : Int)) (Nat.pow 2 63 - 1) text

/-- Reads an unsigned number of 64 bits. -/
def word64? (text : List Char) : Option Nat :=
  (boundedInt? 0 (Nat.pow 2 64 - 1) text).map Int.toNat

end MapConfig.Text
