import MapConfig.Text.Printable
import MapConfig.Table

/-! Quoted text, and lists and tables of quoted text, as messages show them. -/
namespace MapConfig.Text

/-- A character as it stands between the quotes. -/
def escapedQuoted (c : Char) : List Char :=
  if c = '"' then ['\\', '"']
  else if c = '\\' then ['\\', '\\']
  else if c = '\n' then ['\\', 'n']
  else if c = '\r' then ['\\', 'r']
  else if c = '\t' then ['\\', 't']
  else if c = '\x00' then ['\\', '0']
  else if isPrintable c then [c]
  else ['\\', 'u', '\x7b'] ++ Nat.toDigits 16 c.toNat ++ ['\x7d']

/-- The text between quotes, with every character that cannot be shown as
itself written as an escape. -/
def quoted (text : String) : String :=
  String.ofList ('"' :: text.toList.flatMap escapedQuoted ++ ['"'])

def quotedList (texts : List String) : String :=
  "[" ++ ", ".intercalate (texts.map quoted) ++ "]"

def quotedTable (t : Table String) : String :=
  "\x7b" ++ ", ".intercalate (t.map fun entry => quoted entry.1 ++ ": " ++ quoted entry.2) ++ "\x7d"

end MapConfig.Text
