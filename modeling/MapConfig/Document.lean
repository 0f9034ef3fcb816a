import MapConfig.FileTree
import MapConfig.Json.Reader

/-! Documents and where they are: files, and objects in remote stores. Remote
documents have a URL with the scheme `s3` and are read only where that is
allowed. A document included from another is looked for beside it. `Location` is the
program's `ConfigLocation`, and `Library` its `DocumentLoader` with what that reads. -/
namespace MapConfig

/-- Where one document is. -/
inductive DocumentRef where
  | file (path : Path)
  | remote (url : String)
deriving DecidableEq

/-- What relative references are resolved against: a directory, or what comes
before the last slash of a URL. -/
inductive Location where
  | directory (path : Path)
  | remote (url : String)
deriving DecidableEq

/-- The texts before and after the first `://`. -/
def splitScheme? : List Char → Option (List Char × List Char)
  | ':' :: '/' :: '/' :: rest => some ([], rest)
  | [] => none
  | c :: rest => (splitScheme? rest).map fun (scheme, after) => (c :: scheme, after)

/-- The characters that a scheme is made of. -/
def isSchemeChar (c : Char) : Bool := c.isAlphanum || c = '+' || c = '-' || c = '.'

/-- The scheme of a URL in small letters; any other text has none. -/
def scheme? (text : String) : Option String := do
  let (scheme, _) ← splitScheme? text.toList
  if scheme.isEmpty || !scheme.all isSchemeChar then none
  else some (String.ofList (scheme.map Char.toLower))

namespace DocumentRef

def text : DocumentRef → String
  | .file path => path.text
  | .remote url => url

/-- A text without a scheme is the path of a file. -/
def parse (text : String) (allowRemote : Bool) : Except DocumentError DocumentRef :=
  match scheme? text with
  | none => .ok (.file (Path.ofText text))
  | some "s3" => if allowRemote then .ok (.remote text) else .error (.remoteDisabled text)
  | some scheme => .error (.unsupportedScheme scheme)

/-- The text before the last slash, or all of it if there is none. -/
def beforeLastSlash (text : List Char) : List Char :=
  match text.reverse.dropWhile (· != '/') with
  | [] => text
  | _ :: before => before.reverse

/-- The directory of a file, or the prefix of a URL, against which the references inside
a document are resolved. -/
def location (files : FileTree) : DocumentRef → Except DocumentError Location
  | .file path => do
    let absolute ← files.absolute path
    return .directory (absolute.parent?.getD absolute)
  | .remote url => .ok (.remote (String.ofList (beforeLastSlash url.toList)))

end DocumentRef

namespace Location

def text : Location → String
  | .directory path => path.text
  | .remote url => url

/-- A reference with a scheme stands for itself. -/
def resolve (location : Location) (text : String) (allowRemote : Bool) :
    Except DocumentError DocumentRef :=
  if (scheme? text).isSome then DocumentRef.parse text allowRemote else
    match location with
    | .directory path => .ok (.file (path.join text))
    | .remote url =>
      .ok (.remote (String.ofList
        (Path.trimEndSlashes url.toList ++ '/' :: Path.trimHere text.toList)))

end Location

/-- All documents within reach. A store that is there holds some URLs. -/
structure Library where
  files : FileTree
  store : Option (Table ByteArray)
  allowRemote : Bool

namespace Library

/-- The bytes of a document. A remote one is refused before the store is asked. -/
def fetch (l : Library) : DocumentRef → Except DocumentError ByteArray
  | .file path => l.files.read path
  | .remote url =>
    if !l.allowRemote then .error (.remoteDisabled url) else
      match l.store with
      | none => .error (.noStore url)
      | some store =>
        match store.find? url with
        | some bytes => .ok bytes
        | none => .error (.fetchFailed url "NoSuchKey")

/-- The tree of a document. -/
def load (l : Library) (doc : DocumentRef) : Except DocumentError Tree := do
  let bytes ← l.fetch doc
  match Json.parseBytes? bytes with
  | some tree => .ok tree
  | none => .error (.notJson doc.text)

/-- The trees of all documents that can be read. -/
def trees (l : Library) : List Tree :=
  (l.files.files.map Prod.snd ++ (l.store.getD []).map Prod.snd).filterMap Json.parseBytes?

end Library

end MapConfig
