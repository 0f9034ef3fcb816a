import MapConfig.Tree
import MapConfig.Double.Text

/-! Trees as compact JSON text: no spaces, keys in the order of the tree, and
only those characters escaped that JSON does not allow in a string. -/
namespace MapConfig.Json

def hexDigit (n : Nat) : Char := (Nat.toDigits 16 (n % 16)).headD '0'

/-- A character as it stands in a string. -/
def escaped (c : Char) : List Char :=
  if c = '"' then ['\\', '"']
  else if c = '\\' then ['\\', '\\']
  else if c = '\x08' then ['\\', 'b']
  else if c = '\x0c' then ['\\', 'f']
  else if c = '\n' then ['\\', 'n']
  else if c = '\r' then ['\\', 'r']
  else if c = '\t' then ['\\', 't']
  else if c.toNat < 0x20 then ['\\', 'u', '0', '0', hexDigit (c.toNat / 16), hexDigit c.toNat]
  else [c]

/-- A string between its quotes. -/
def textChars (text : String) : List Char :=
  '"' :: text.toList.flatMap escaped ++ ['"']

/-- A number in the shortest text that reads back as the same number. -/
def numberLiteral : Number → String
  | .whole n => toString n
  | .double x => Double.Layout.json.render x

mutual

/-- The characters of a tree's text. -/
def chars : Tree → List Char
  | .null => ['n', 'u', 'l', 'l']
  | .bool true => ['t', 'r', 'u', 'e']
  | .bool false => ['f', 'a', 'l', 's', 'e']
  | .number n => (numberLiteral n).toList
  | .text value => textChars value
  | .list items => '[' :: charsItems items ++ [']']
  | .mapping entries => '\x7b' :: charsEntries entries ++ ['\x7d']

def charsItems : List Tree → List Char
  | [] => []
  | [item] => chars item
  | item :: rest => chars item ++ ',' :: charsItems rest

def charsEntries : List (String × Tree) → List Char
  | [] => []
  | [(key, value)] => textChars key ++ ':' :: chars value
  | (key, value) :: rest => textChars key ++ ':' :: chars value ++ ',' :: charsEntries rest

end

/-- The compact text of a tree. -/
def render (tree : Tree) : String := String.ofList (chars tree)

end MapConfig.Json
