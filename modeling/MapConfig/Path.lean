/-! Paths of documents. Either separator may be written in a configuration; a
path keeps forward slashes only (`NormalizedPath`). Joining and taking the parent work
on the text and look at no file; making a path absolute does, see `FileTree.absolute`. -/
namespace MapConfig

/-- A path as it is written, with forward slashes. -/
structure Path where
  text : String
deriving DecidableEq

namespace Path

/-- Every backslash as a forward slash. -/
def slashed (text : List Char) : List Char := text.map fun c => if c = '\\' then '/' else c

/-- The path that a configured text stands for. -/
def ofText (text : String) : Path := ⟨String.ofList (slashed text.toList)⟩

def isAbsolute (p : Path) : Bool := p.text.toList.head? == some '/'

/-- The text after any leading `./`. -/
def trimHere : List Char → List Char
  | '.' :: '/' :: rest => trimHere rest
  | text => text

/-- The text before the slashes at its end, if there are any. -/
def trimEndSlashes (text : List Char) : List Char :=
  (text.reverse.dropWhile (· == '/')).reverse

/-- The characters of a joined path. One slash stands between base and segment, and none
where the base is empty. -/
def joinChars (base segment : List Char) : List Char :=
  let segment := slashed segment
  if segment.head? = some '/' then segment else
    let segment := trimHere segment
    if base.isEmpty then segment
    else if base.getLast? = some '/' then base ++ segment
    else base ++ '/' :: segment

/-- An absolute segment replaces the path. -/
def join (p : Path) (segment : String) : Path :=
  ⟨String.ofList (joinChars p.text.toList segment.toList)⟩

/-- The text before the last slash that has a name behind it. Slashes at the end do not
count, and the parent of a name under the root is the root. -/
def parentChars? (text : List Char) : Option (List Char) :=
  match (trimEndSlashes text).reverse.dropWhile (· != '/') with
  | [] => none
  | _ :: [] => some ['/']
  | _ :: before => some before.reverse

/-- The directory of a path, up to its last slash; a bare name has none. -/
def parent? (p : Path) : Option Path :=
  (parentChars? p.text.toList).map fun text => ⟨String.ofList text⟩

/-- The names between the slashes, empty ones included. -/
def splitSlashes : List Char → List (List Char)
  | [] => [[]]
  | c :: rest =>
    if c = '/' then [] :: splitSlashes rest
    else match splitSlashes rest with
      | name :: names => (c :: name) :: names
      | [] => [[c]]

def names (p : Path) : List String := (splitSlashes p.text.toList).map String.ofList

end Path

end MapConfig
