import MapConfig.Double.Shortest

/-! Doubles in text. A layout says how the shortest decimal is set out; the
two layouts in use are that of JSON documents and plain positional notation.
`parse?` reads decimal text to the nearest double. -/
namespace MapConfig.Double

/-- How doubles are shown: the exponents for which no exponent is written, whether a
whole number keeps its point, and what becomes of an exact half. -/
structure Layout where
  /-- The decimal exponents written positionally; `none` is no bound. -/
  leastPositional : Option Int
  greatestPositional : Option Int
  /-- A whole number written positionally keeps one zero after the point. -/
  keepPoint : Bool
  tie : Tie

/-- Positional from `1e-5` up to below `1e16`, always with a point; an exact
half between two shortest decimals goes to the even one. -/
def Layout.json : Layout := ⟨some (-5), some 15, true, .toEven⟩

/-- Positional throughout, whole numbers without a point; an exact half between
two shortest decimals goes away from zero. -/
def Layout.plain : Layout := ⟨none, none, false, .awayFromZero⟩

/-- Whether a number of that exponent is shown without an exponent. -/
def Layout.isPositional (layout : Layout) (exponent : Int) : Bool :=
  layout.leastPositional.all (· ≤ exponent) && layout.greatestPositional.all (exponent ≤ ·)

def zeros (n : Nat) : List Char := List.replicate n '0'

/-- `digits * 10 ^ exponent` without an exponent mark. -/
def positional (digits : List Char) (exponent : Int) (keepPoint : Bool) : List Char :=
  let point := digits.length + exponent
  if 0 ≤ exponent then
    digits ++ zeros exponent.toNat ++ (if keepPoint then ['.', '0'] else [])
  else if 0 < point then
    digits.take point.toNat ++ '.' :: digits.drop point.toNat
  else
    '0' :: '.' :: zeros (-point).toNat ++ digits

/-- One digit before the point, and an exponent with its sign. -/
def scientific (digits : List Char) (order : Int) : List Char :=
  let mantissa := match digits with
    | first :: second :: rest => first :: '.' :: second :: rest
    | short => short
  let sign := if order < 0 then '-' else '+'
  mantissa ++ 'e' :: sign :: (toString order.natAbs).toList

/-- The shortest decimal of a double in the given layout. -/
def Layout.render (layout : Layout) (x : Float) : String :=
  if x.isNaN then "NaN" else
    let sign := if isNegative x then ['-'] else []
    if x.isInf then String.ofList (sign ++ ['i', 'n', 'f']) else
      let short := shortest (magnitude x) layout.tie
      let digits := (toString short.digits).toList
      let order := digits.length - 1 + short.exponent
      let text :=
        if layout.isPositional order then positional digits short.exponent layout.keepPoint
        else scientific digits order
      String.ofList (sign ++ text)

/-- The number written by a run of digits. -/
def digitsValue (digits : List Char) : Nat :=
  digits.foldl (fun n c => 10 * n + (c.toNat - '0'.toNat)) 0

/-- Takes a leading sign off: whether the number is negative, and the rest. -/
def splitSign : List Char → Bool × List Char
  | '-' :: rest => (true, rest)
  | '+' :: rest => (false, rest)
  | text => (false, text)

/-- An optional exponent part that ends the text. -/
def exponent? : List Char → Option Int
  | [] => some 0
  | mark :: rest =>
    if mark = 'e' ∨ mark = 'E' then
      let (negative, digits) := splitSign rest
      if digits.isEmpty || !digits.all Char.isDigit then none
      else some (if negative then -(digitsValue digits : Int) else digitsValue digits)
    else none

/-- Digits with an optional point among or around them and an optional
exponent; at least one digit stands before the exponent. -/
def unsigned? (text : List Char) : Option Float := do
  let whole := text.takeWhile Char.isDigit
  let afterWhole := text.dropWhile Char.isDigit
  let (fraction, rest) := match afterWhole with
    | '.' :: more => (more.takeWhile Char.isDigit, more.dropWhile Char.isDigit)
    | other => ([], other)
  if whole.isEmpty && fraction.isEmpty then none else
    let exponent ← exponent? rest
    some (ofDecimal (digitsValue (whole ++ fraction)) (exponent - fraction.length))

/-- Decimal text, or a name of infinity or of the undefined value in any case. -/
def parse? (text : String) : Option Float := do
  let (negative, rest) := splitSign text.toList
  let size ← match String.ofList (rest.map Char.toLower) with
    | "inf" | "infinity" => some infinity
    | "nan" => some (infinity - infinity)
    | _ => unsigned? rest
  some (if negative then -size else size)

end MapConfig.Double
