import MapConfig.Decimal
import MapConfig.Text.Blank
import MapConfig.Text.Integer
import MapConfig.Tree

/-! Decimals in text. A decimal is shown with all places of its scale, and with
an exponent when its first digit stands more than six places after the point.
Reading keeps trailing zeros, so reading a shown decimal gives it back. -/
namespace MapConfig.Decimal

/-- The digits with a point before the last `scale` of them, zeros put in front where
there are too few. -/
def plainText (digits : List Char) (scale : Nat) : List Char :=
  if scale = 0 then digits
  else if scale < digits.length then
    digits.take (digits.length - scale) ++ '.' :: digits.drop (digits.length - scale)
  else '0' :: '.' :: Double.zeros (scale - digits.length) ++ digits

/-- One digit before the point and the exponent that the first digit has. -/
def scientificText (digits : List Char) (order : Int) : List Char :=
  let mantissa := match digits with
    | first :: second :: rest => first :: '.' :: second :: rest
    | short => short
  mantissa ++ 'E' :: (toString order).toList

/-- The text of a decimal, which is also the key of a tick label. -/
def toText (d : Decimal) : String :=
  let digits := (toString d.digits.natAbs).toList
  let order : Int := (digits.length : Int) - 1 - d.scale
  let size := if order < -6 then scientificText digits order else plainText digits d.scale
  String.ofList (if d.digits < 0 then '-' :: size else size)

/-- Either case of the letter is read. -/
def isExponentMark (c : Char) : Bool := c = 'e' || c = 'E'

/-- The text before the exponent mark, and the exponent, zero without a mark. -/
def splitExponent? (text : List Char) : Option (List Char × Int) :=
  match text.dropWhile (fun c => !isExponentMark c) with
  | [] => some (text, 0)
  | _ :: exponent => do
    some (text.takeWhile (fun c => !isExponentMark c), ← Text.int64? exponent)

/-- The digits before and after the first point. -/
def splitPoint (text : List Char) : List Char × List Char :=
  (text.takeWhile (· != '.'), (text.dropWhile (· != '.')).drop 1)

/-- One more digit behind those read, the product and the sum tested. -/
def push? (sum : Int) (c : Char) : Option Int := do
  if c.isDigit then fitting? ((← fitting? (sum * 10)) + (c.toNat - '0'.toNat : Nat)) else none

/-- The whole number that the digits make up. -/
def accumulate? (digits : List Char) : Option Int := digits.foldlM push? 0

/-- The digits with their sign. -/
def signedDigits (negative : Bool) (size : Int) : Except Failure Int :=
  if negative then untested .negatedDigits (-size) else .ok size

/-- The digits at a scale. One below zero is negated and taken into the digits. -/
def atScale (digits scale : Int) : Except Failure Decimal :=
  if 0 ≤ scale then tested (make? digits scale.toNat)
  else do
    let exponent ← untested .negatedScale (-scale)
    tested do make? (digits * (← powerOfTen? exponent.toNat)) 0

/-- The decimal of digits read without their sign, so many of them behind the point.
The number of places is the length of a text, which fits the bits of a scale. -/
def ofPieces (negative : Bool) (size : Int) (places : Nat) (exponent : Int) :
    Except Failure Decimal := do
  let digits ← signedDigits negative size
  let scale ← untested .scale (places - exponent)
  atScale digits scale

/-- An optional sign, digits with at most one point and at least one digit, and
an optional exponent. -/
def parseChars (text : List Char) : Except Failure Decimal := do
  let (mantissa, exponent) ← tested (splitExponent? text)
  let (negative, unsigned) := Double.splitSign mantissa
  let (whole, fraction) := splitPoint unsigned
  if whole.isEmpty && fraction.isEmpty then .error .noValue
  else do
    let size ← tested (accumulate? (whole ++ fraction))
    ofPieces negative size fraction.length exponent

/-- Reads decimal text, white space around it set aside (`parse` of a `TickValue`). -/
def parse (text : String) : Except Failure Decimal := parseChars (Text.trimBlanks text.toList)

/-- A double stands for its shortest decimal. -/
def ofDouble (x : Float) : Except Failure Decimal := parse (Double.Layout.plain.render x)

/-- A configured number, or a text that holds one. -/
def ofTree : Tree → Except Failure Decimal
  | .number (.whole n) => tested (make? n 0)
  | .number (.double x) => ofDouble x
  | .text text => parse text
  | _ => .error .noValue

end MapConfig.Decimal
