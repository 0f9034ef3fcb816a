import MapConfig.Path
import MapConfig.Error

/-! The files that documents are read from, as a value: a working directory and
files at places under the root. A place is the list of names that leads to it.
Directories are those that hold a file or the working directory. -/
namespace MapConfig

/-- The names that lead from the root to a file or a directory. -/
abbrev Place := List String

structure FileTree where
  working : Place
  files : List (Place × ByteArray)

namespace FileTree

/-- The contents of the file at a place. -/
def file? (t : FileTree) (place : Place) : Option ByteArray :=
  (t.files.find? fun entry => decide (entry.1 = place)).map Prod.snd

/-- Whether a place is above the working directory, is it, or is above a file. -/
def isDirectory (t : FileTree) (place : Place) : Bool :=
  place.isPrefixOf t.working ||
    t.files.any fun entry => place.isPrefixOf entry.1 && decide (place ≠ entry.1)

/-- Follows names from a place. Going on from a place takes a directory, also
for an empty name and for the directory's own name. -/
def walk? (t : FileTree) : List String → Place → Option Place
  | [], place => some place
  | name :: rest, place =>
    if !t.isDirectory place then none
    else if name = "" ∨ name = "." then t.walk? rest place
    else if name = ".." then t.walk? rest place.dropLast
    else
      let next := place ++ [name]
      if t.isDirectory next || (t.file? next).isSome then t.walk? rest next else none

/-- Where an existing file or directory stands. -/
def locate? (t : FileTree) (p : Path) : Option Place :=
  if p.text.isEmpty then none
  else t.walk? p.names (if p.isAbsolute then [] else t.working)

/-- The contents of the file that a path leads to. -/
def read (t : FileTree) (p : Path) : Except DocumentError ByteArray :=
  match (t.locate? p).bind t.file? with
  | some bytes => .ok bytes
  | none => .error (.unreadable p.text)

/-- A place as an absolute path is written. -/
def placeText (place : Place) : String := "/" ++ "/".intercalate place

/-- The working directory as a path, where inclusion starts. -/
def workingPath (t : FileTree) : Path := Path.ofText (placeText t.working)

/-- The path made absolute by its text: names that say nothing are left out, two
leading slashes are kept and more count as one, and so is a slash at the end. -/
def absoluteText (t : FileTree) (p : Path) : String :=
  let names := p.names.filter fun name => name ≠ "" && name ≠ "."
  let text := match p.text.toList with
    | '/' :: '/' :: '/' :: _ => placeText names
    | '/' :: '/' :: _ => "/" ++ placeText names
    | '/' :: _ => placeText names
    | _ => placeText (t.working ++ names)
  if p.text.toList.getLast? = some '/' ∧ text.toList.getLast? ≠ some '/' then text ++ "/" else text

/-- A path to something that exists is resolved, any other is made absolute by
its text. -/
def absolute (t : FileTree) (p : Path) : Except DocumentError Path :=
  match t.locate? p with
  | some place => .ok (Path.ofText (placeText place))
  | none =>
    if p.text.isEmpty then .error (.unreadable p.text)
    else .ok (Path.ofText (t.absoluteText p))

end FileTree

end MapConfig
