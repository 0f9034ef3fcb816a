import MapConfig.Inclusion
import MapConfig.Text.Blank

/-! Loader settings (`LoaderSettings`), and reading the raw configuration they name. A
source is an inline document, the path of a JSON file or the name of a host object. -/
namespace MapConfig

/-- Where the configuration comes from, whether remote documents are allowed, and the
filter of the log. -/
structure Settings where
  source : String
  allowRemote : Bool
  logFilter : String

namespace Settings

/-- The source where none is given. -/
def defaultSource : String := "ows_cfg.json"

/-- What holds where nothing is given. -/
def default : Settings := ⟨defaultSource, false, "ows_config=info,ows_fs=info,warn"⟩

/-- Compared without regard to case. -/
def isTruthy (value : String) : Bool :=
  ["yes", "true", "1", "y"].contains (String.ofList (value.toList.map Char.toLower))

/-- Settings from the values of the two variables. A blank source is no source. -/
def ofValues (source allowRemote : Option String) : Settings :=
  { Settings.default with
    source := (source.filter fun s => !(Text.trimmed s).isEmpty).getD defaultSource
    allowRemote := allowRemote.any isTruthy }

/-- Settings from an environment, in which the long names win. -/
def ofEnvironment (lookup : String → Option String) : Settings :=
  ofValues ((lookup "DATACUBE_OWS_CFG").or (lookup "OWS_CFG"))
    ((lookup "DATACUBE_OWS_CFG_ALLOW_S3").or (lookup "OWS_CFG_ALLOW_S3"))

/-- Settings given as a mapping, or as a list in the order of the fields. What is
left out keeps its default. -/
def ofTree? : Tree → Option Settings
  | .mapping entries => do
    let text := fun key fallback => match Table.find? entries key with
      | none => some fallback
      | some value => Tree.text? value
    some {
      source := ← text "cfg_source" default.source
      allowRemote := ← match Table.find? entries "allow_s3" with
        | none => some default.allowRemote
        | some value => value.bool?
      logFilter := ← text "log_filter" default.logFilter }
  | .list [] => some default
  | .list [.text source] => some { default with source }
  | .list [.text source, .bool allowRemote] => some { default with source, allowRemote }
  | .list [.text source, .bool allowRemote, .text logFilter] =>
    some { source, allowRemote, logFilter }
  | _ => none

end Settings

/-- What a source is, by its text alone. -/
inductive ConfigSource where
  | inline (tree : Tree)
  | json (path : String)
  | object (name : String)

namespace ConfigSource

/-- A text that opens a mapping or a list is the document itself; of the others those
that end in `.json` are paths. -/
def parse (source : String) : Except ConfigError ConfigSource :=
  let text := Text.trimBlanks source.toList
  if text.head? = some '\x7b' ∨ text.head? = some '[' then
    match Json.parse? (String.ofList text) with
    | some tree => .ok (.inline tree)
    | none => .error (.invalid .badInline)
  else if ".json".toList.isSuffixOf text then .ok (.json (String.ofList text))
  else .ok (.object (String.ofList text))

/-- The tree to expand: the inline document, or an inclusion of the source. -/
def root : ConfigSource → Tree
  | .inline tree => tree
  | .json path => .mapping [("include", .text path), ("type", .text "json")]
  | .object name => .mapping [("include", .text name), ("type", .text "python")]

end ConfigSource

/-- Reads and expands the raw configuration. A source given here is taken in
place of the one in the settings. -/
def readConfig (source : Option String) (settings : Settings) (files : FileTree)
    (store : Option (Table ByteArray)) (objects : Objects Tree) : Except ConfigError Tree := do
  let source ← ConfigSource.parse (source.getD settings.source)
  Inclusion.expandRoot ⟨⟨files, store, settings.allowRemote⟩, objects⟩ source.root

end MapConfig
