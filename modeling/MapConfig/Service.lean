import MapConfig.Layer
import MapConfig.Settings

/-! The configuration of a whole service: a global section and a tree of layers,
in which folders hold further layers. -/
namespace MapConfig

/-- A service as read (`OwsConfig`), with the registries that its layers and styles were
entered into. -/
structure Service where
  life : Lifecycle
  metadata : Metadata
  languages : List String
  languageDirectory : Option String
  messageDomain : String
  layers : List Layer
  /-- The position of each layer, by its name. -/
  layerIndex : OrderedTable Nat
  catalogue : Catalogue
  wording : Wording

namespace Service

/-- The label of the global texts. -/
def label : String := "global"

mutual

/-- The layers under a `layers` key, depth first. An entry that has layers of
its own is a folder and has no name. -/
def collectLayers : Tree → Except ConfigError (List Tree)
  | .list items => collectItems items
  | _ => .error (.invalid .layersNotList)

def collectItems : List Tree → Except ConfigError (List Tree)
  | [] => .ok []
  | .mapping entries :: rest => do
    let layers ← collectEntry (.mapping entries) (Table.contains entries "name") entries
    return layers ++ (← collectItems rest)
  | other :: _ => .error (.invalid (.notMapping "Layer" other.kind))

/-- The layers of an entry, looked for among its remaining settings. -/
def collectEntry (entry : Tree) (named : Bool) : List (String × Tree) →
    Except ConfigError (List Tree)
  | [] => .ok [entry]
  | (key, value) :: rest =>
    if key = "layers" then
      if named then .error (.conflicting .nameAndLayers) else collectLayers value
    else collectEntry entry named rest

end

/-- Reads the layers in turn (`NamedLayer`), each with those before it in the registries. -/
def loadLayers (above : Heritage) (functions : Objects HostFunction) :
    List Tree → Registries → Except ConfigError (List Layer × Registries)
  | [], r => .ok ([], r)
  | raw :: rest, r => do
    let (layer, r) ← Layer.load raw above functions r
    let (layers, r) ← loadLayers above functions rest r
    return (layer :: layers, r)

/-- The global section has every field. -/
def metadataFields : MetadataFields where
  keywords := true
  contact := true
  fees := true
  accessConstraints := true
  attribution := true

/-- Nothing stands above the service. Its title has to be given, its abstract may be
left out. -/
def metadataContext : MetadataContext where
  label := label
  above := none
  defaultTitle := none
  defaultAbstract := some ""

/-- The global section, which has to be there. -/
def globalOf (root : Mapping) : Except ConfigError Mapping :=
  match Table.find? root "global" with
  | some globals => globals.asMapping "Global section"
  | none => .error (.missing "Configuration" "global")

/-- The languages of the service, English alone unless others are given. -/
def languagesOf (globals : Mapping) : Except ConfigError (List String) := do
  let languages ← Mapping.texts globals "supported_languages" "Global section"
  return if languages.isEmpty then ["en"] else languages

/-- Builds the service from a tree whose inclusions are expanded. Texts are
translated when there are several languages and a directory for their texts. -/
def ofTree (raw : Tree) (functions : Objects HostFunction) : Except ConfigError Service := do
  let root ← raw.asMapping "Configuration"
  let globals ← globalOf root
  let (texts, metadata) := Metadata.parse Wording.empty metadataFields globals metadataContext
  let metadata ← metadata
  let languages ← languagesOf globals
  let languageDirectory ← Mapping.text? globals "translations_directory" "Global section"
  let messageDomain := (← Mapping.text? globals "message_domain" "Global section").getD "ows_cfg"
  let layerTrees ← ((Table.find? root "layers").map collectLayers).getD (.ok [])
  let wording := { Wording.empty with
    internationalised := languageDirectory.isSome && decide (1 < languages.length) }
  let (layers, r) ← loadLayers (metadata.handedDown label) functions layerTrees
    ⟨Catalogue.empty, wording.registerAll texts⟩
  return {
    life := Lifecycle.start raw []
    metadata, languages, languageDirectory, messageDomain, layers
    layerIndex := .positions (layers.map Layer.name)
    catalogue := r.catalogue
    wording := r.wording }

/-- The layer of a name, by its position. -/
def layer? (s : Service) (name : String) : Option Layer :=
  (s.layerIndex.find? name).bind fun position => s.layers[position]?

/-- Makes the layers ready one after the other, up to the first failure. -/
def makeReady (s : Service) (dc : Datacube) : Attempt Service :=
  ((Attempt.each (fun l => Layer.makeReady l dc) s.layers).within
    fun layers => { s with layers }).andThen
    fun s => s.life.finish s fun life => { s with life }

/-- Puts a translator over the texts, or takes it away. -/
def setTranslator (s : Service) (translator : Option (String → String)) : Service :=
  { s with wording := { s.wording with translator } }

/-- Puts messages over the texts, or takes them away. -/
def setMessages (s : Service) (messages : Option (String → Option String)) : Service :=
  { s with wording := { s.wording with messages } }

end Service

/-- Reads, expands and builds a configuration (`load_config`). -/
def loadService (source : Option String) (settings : Settings) (files : FileTree)
    (store : Option (Table ByteArray)) (objects : Objects Tree)
    (functions : Objects HostFunction) : Except ConfigError Service := do
  Service.ofTree (← readConfig source settings files store objects) functions

end MapConfig
