import MapConfig.Tree
import MapConfig.Double.Text

/-! The tokens of a JSON text. Reading is strict: no byte order mark, no
comments, no raw control characters in strings and no lone surrogates. -/
namespace MapConfig.Json

/-- A punctuation mark, or a whole scalar. -/
inductive Token where
  | openList
  | closeList
  | openMapping
  | closeMapping
  | comma
  | colon
  | scalar (value : Tree)

/-- Continues a significand with digits as long as it fits 64 bits; what is
left of the digits comes second. -/
def absorbDigits (significand : Nat) : List Char → Nat × List Char
  | [] => (significand, [])
  | c :: rest =>
    let next := 10 * significand + (c.toNat - '0'.toNat)
    if next < Nat.pow 2 64 then absorbDigits next rest else (significand, c :: rest)

/-- `x * 10 ^ exponent` in double arithmetic: one multiplication or division by
a power of ten, or two divisions where a single power would not be a double. A
product that overflows is no number. -/
def scaled? (x : Float) (exponent : Int) : Option Float :=
  if x == 0.0 then some x
  else if 308 < exponent then none
  else if 0 ≤ exponent then
    let product := x * Double.powerOfTen exponent.toNat
    if product.isInf then none else some product
  else if -308 ≤ exponent then some (x / Double.powerOfTen (-exponent).toNat)
  else if -616 ≤ exponent then
    some (x / Double.powerOfTen 308 / Double.powerOfTen (-exponent - 308).toNat)
  else some 0.0

/-- The double of a literal: the digits that fit 64 bits, scaled. Later digits
count for the magnitude when they stand before the point and are lost after it. -/
def double? (whole fraction : List Char) (exponent : Int) : Option Float :=
  let (head, beyond) := absorbDigits 0 whole
  let (significand, lost) := absorbDigits head fraction
  let kept : Int := fraction.length - lost.length
  if significand = 0 then some 0.0
  else scaled? (Double.ofInt significand) (beyond.length - kept + exponent)

/-- A literal without fraction and exponent is a whole number if it fits 64
bits, with a sign or without; every other literal is a double. -/
def number? (negative : Bool) (whole fraction : List Char) (exponent : Option Int) :
    Option Number :=
  let value := Double.digitsValue whole
  let signed : Float → Number := fun x => .double (if negative then -x else x)
  if fraction.isEmpty ∧ exponent.isNone then
    if negative then
      if 0 < value ∧ value ≤ Nat.pow 2 63 then some (.whole (-(value : Int)))
      else (double? whole [] 0).map signed
    else if value < Nat.pow 2 64 then some (.whole value)
    else (double? whole [] 0).map signed
  else (double? whole fraction (exponent.getD 0)).map signed

/-- At least one digit, and the text after the digits. -/
def digits? (text : List Char) : Option (List Char × List Char) :=
  let digits := text.takeWhile Char.isDigit
  if digits.isEmpty then none else some (digits, text.dropWhile Char.isDigit)

/-- The digits before the point: a leading zero stands alone. -/
def wholeDigits? : List Char → Option (List Char × List Char)
  | '0' :: rest => some (['0'], rest)
  | text => digits? text

/-- The digits behind a point, of which there is at least one where the point is. -/
def fractionDigits? : List Char → Option (List Char × List Char)
  | '.' :: rest => digits? rest
  | text => some ([], text)

/-- The exponent with its sign, if there is one, and the text after it. -/
def exponentPart? : List Char → Option (Option Int × List Char)
  | mark :: rest =>
    if mark = 'e' ∨ mark = 'E' then do
      let (negative, unsigned) := Double.splitSign rest
      let (digits, rest) ← digits? unsigned
      let size : Int := Double.digitsValue digits
      some (some (if negative then -size else size), rest)
    else some (none, mark :: rest)
  | [] => some (none, [])

/-- A number: sign, digits, fraction and exponent. A plus sign is none. -/
def numberToken? (text : List Char) : Option (Token × List Char) := do
  let (negative, unsigned) := match text with
    | '-' :: rest => (true, rest)
    | _ => (false, text)
  let (whole, rest) ← wholeDigits? unsigned
  let (fraction, rest) ← fractionDigits? rest
  let (exponent, rest) ← exponentPart? rest
  let number ← number? negative whole fraction exponent
  some (.scalar (.number number), rest)

/-- The value of a hexadecimal digit in either case. -/
def hexValue? (c : Char) : Option Nat :=
  if c.isDigit then some (c.toNat - '0'.toNat)
  else if 'a' ≤ c ∧ c ≤ 'f' then some (c.toNat - 'a'.toNat + 10)
  else if 'A' ≤ c ∧ c ≤ 'F' then some (c.toNat - 'A'.toNat + 10)
  else none

/-- A unit of four hexadecimal digits. -/
def unit? (a b c d : Char) : Option Nat := do
  some ((((← hexValue? a) * 16 + (← hexValue? b)) * 16 + (← hexValue? c)) * 16 + (← hexValue? d))

/-- What a backslash and one letter stand for. -/
def simpleEscape? : Char → Option Char
  | '"' => some '"'
  | '\\' => some '\\'
  | '/' => some '/'
  | 'b' => some '\x08'
  | 'f' => some '\x0c'
  | 'n' => some '\n'
  | 'r' => some '\r'
  | 't' => some '\t'
  | _ => none

/-- The rest of a string after its opening quote, put behind `before`, which
holds the characters read so far in reverse. -/
def textRest? (before : List Char) : List Char → Option (String × List Char)
  | [] => none
  | '"' :: rest => some (String.ofList before.reverse, rest)
  | '\\' :: 'u' :: a :: b :: c :: d :: rest => do
    let unit ← unit? a b c d
    if 0xD800 ≤ unit ∧ unit < 0xDC00 then
      match rest with
      | '\\' :: 'u' :: e :: f :: g :: h :: rest => do
        let low ← unit? e f g h
        if 0xDC00 ≤ low ∧ low < 0xE000 then
          textRest? (Char.ofNat (0x10000 + (unit - 0xD800) * 0x400 + (low - 0xDC00)) :: before) rest
        else none
      | _ => none
    else if 0xDC00 ≤ unit ∧ unit < 0xE000 then none
    else textRest? (Char.ofNat unit :: before) rest
  | '\\' :: escape :: rest => do textRest? ((← simpleEscape? escape) :: before) rest
  | c :: rest => if c = '\\' ∨ c.toNat < 0x20 then none else textRest? (c :: before) rest

def isSpace (c : Char) : Bool := c = ' ' || c = '\n' || c = '\t' || c = '\r'

/-- The token at the start of a text that starts with no space. -/
def token? : List Char → Option (Token × List Char)
  | '[' :: rest => some (.openList, rest)
  | ']' :: rest => some (.closeList, rest)
  | '\x7b' :: rest => some (.openMapping, rest)
  | '\x7d' :: rest => some (.closeMapping, rest)
  | ',' :: rest => some (.comma, rest)
  | ':' :: rest => some (.colon, rest)
  | 'n' :: 'u' :: 'l' :: 'l' :: rest => some (.scalar .null, rest)
  | 't' :: 'r' :: 'u' :: 'e' :: rest => some (.scalar (.bool true), rest)
  | 'f' :: 'a' :: 'l' :: 's' :: 'e' :: rest => some (.scalar (.bool false), rest)
  | '"' :: rest => (textRest? [] rest).map fun (text, rest) => (.scalar (.text text), rest)
  | text => numberToken? text

/-- The tokens of a text. Every token takes at least one character, so the
length of the text bounds their number. -/
def tokensWithin? : Nat → List Char → Option (List Token)
  | bound, text =>
    match bound, text.dropWhile isSpace with
    | _, [] => some []
    | 0, _ => none
    | bound + 1, text => do
      let (token, rest) ← token? text
      return token :: (← tokensWithin? bound rest)

def tokens? (text : List Char) : Option (List Token) := tokensWithin? text.length text

end MapConfig.Json
