import MapConfig.Bands
import MapConfig.FlagBand
import MapConfig.Style

/-! Layers. A layer publishes one or more products under names for their bands;
it has flag bands and styles, and may inherit from a layer loaded before it. -/
namespace MapConfig

/-- A layer as read (`NamedLayer`). -/
structure Layer where
  life : Lifecycle
  scope : LayerScope
  metadata : Metadata
  bands : BandTable
  flagBands : List FlagBand
  flagGroups : List FlagGroup
  fuse : Option BoundFunction
  styles : List Style
  /-- The position of each style, by its name. -/
  styleIndex : OrderedTable Nat
  /-- The position of the style that stands for the layer. -/
  defaultPosition : Nat
  products : Cell (List Product)
  lowResProducts : Cell (List Product)

namespace Layer

def name (l : Layer) : String := l.scope.name

/-- The style of a name, by its position. -/
def style? (l : Layer) (name : String) : Option Style :=
  (l.styleIndex.find? name).bind fun position => l.styles[position]?

/-- The style that stands for the layer. -/
def defaultStyle? (l : Layer) : Option Style := l.styles[l.defaultPosition]?

/-- Names under a key for one or a key for several. -/
def namesOf (cfg : Mapping) (single plural subject : String) :
    Except ConfigError (List String) := do
  match ← Mapping.text? cfg single subject with
  | some name =>
    if Table.contains cfg plural then throw (.conflicting (.bothKeys subject single plural))
    else return [name]
  | none => Mapping.texts cfg plural subject

/-- The products of a layer, of which the first stands for all. -/
structure Products where
  first : String
  others : List String
  lowRes : List String

def Products.names (p : Products) : List String := p.first :: p.others

/-- Low-resolution products, where there are any, pair up with the products. -/
def productsOf (cfg : Mapping) (subject : String) : Except ConfigError Products := do
  match ← namesOf cfg "product_name" "product_names" subject with
  | [] => throw (.missing subject "product_names")
  | first :: others =>
    let lowRes ← namesOf cfg "low_res_product_name" "low_res_product_names" subject
    if !lowRes.isEmpty && lowRes.length != (first :: others).length then
      throw (.invalid (.lowResLength subject))
    return { first, others, lowRes }

/-- The bands of a layer, whose texts are registered with those before them. -/
def bandsOf (cfg : Mapping) (name subject product : String) (w : Wording) :
    Except ConfigError (BandTable × Wording) :=
  match Table.find? cfg "bands" with
  | none => .error (.missing subject "bands")
  | some bands =>
    let (read, w) := (BandTable.load name product bands).run.run w
    read.map fun bands => (bands, w)

/-- What a layer's parts see of it. -/
def scopeOf (raw : Tree) (name : String) (products : Products) (bands : BandTable) :
    LayerScope where
  name
  products := products.names
  lowResProducts := products.lowRes
  band := bands.mapper
  raw

/-- A single flag band need not stand in a list. -/
def flagBandsOf (cfg : Mapping) (scope : LayerScope) (functions : Objects HostFunction) :
    Except ConfigError (List FlagBand) :=
  match Table.find? cfg "flags" with
  | none | some .null => .ok []
  | some (.list items) => items.mapM fun item => FlagBand.parse item scope functions
  | some single => do return [← FlagBand.parse single scope functions]

/-- The `styling` section and its styles, of which there is at least one. -/
def stylingOf (cfg : Mapping) (subject : String) : Except ConfigError (Mapping × List Tree) :=
  match Table.find? cfg "styling" with
  | none => .error (.missing subject "styling")
  | some styling => do
    let entries ← styling.asMapping s!"{subject}: styling"
    match Table.find? entries "styles" with
    | some (.list []) => throw (.invalid (.noStyles subject))
    | some (.list styles) => return (entries, styles)
    | _ => throw (.missing s!"{subject} styling" "styles")

/-- Reads the styles in turn, each with those before it in the registries. -/
def loadStyles (scope : LayerScope) (functions : Objects HostFunction) :
    List Tree → Registries → Except ConfigError (List Style × Registries)
  | [], r => .ok ([], r)
  | raw :: rest, r => do
    let (style, r) ← Style.load raw scope functions r
    let (styles, r) ← loadStyles scope functions rest r
    return (style :: styles, r)

/-- The position of the style named as the default, else that of the first one. -/
def defaultPositionOf (styling : Mapping) (index : OrderedTable Nat) (subject : String) :
    Except ConfigError Nat := do
  match ← Mapping.text? styling "default_style" subject with
  | some name =>
    match index.find? name with
    | some position => return position
    | none => throw (.invalid (.defaultStyle name subject))
  | none => return 0

/-- A layer has keywords and an attribution beside its title and abstract. -/
def metadataFields : MetadataFields := { keywords := true, attribution := true }

/-- The texts of a layer stand under its name, and may come from the service above it. -/
def metadataContext (name : String) (above : Heritage) : MetadataContext where
  label := name
  above := some above
  defaultTitle := none
  defaultAbstract := none

/-- Reads a layer and enters it and its styles into the registries. The layer is
entered before its styles, which may then inherit from each other. -/
def load (raw : Tree) (above : Heritage) (functions : Objects HostFunction) (r : Registries) :
    Except ConfigError (Layer × Registries) := do
  let expanded ← Inheritance.expand raw .layer r.catalogue none ∅
  let cfg ← expanded.asMapping "Layer"
  let name ← Mapping.text cfg "name" "Layer"
  let subject := s!"Layer {name}"
  let (texts, metadata) := Metadata.parse r.wording metadataFields cfg (metadataContext name above)
  let metadata ← metadata
  let products ← productsOf cfg subject
  let (bands, wording) ← bandsOf cfg name subject products.first (r.wording.registerAll texts)
  let scope := scopeOf expanded name products bands
  let flagBands ← flagBandsOf cfg scope functions
  let flagGroups ← FlagGroup.build flagBands
  let fuse ← BoundFunction.parse? scope.owner cfg "fuse_func" functions
  let catalogue ← r.catalogue.register .layer (layerKeys name) expanded
  let (styling, styleTrees) ← stylingOf cfg subject
  let (styles, r) ← loadStyles scope functions styleTrees ⟨catalogue, wording⟩
  let styleIndex := OrderedTable.positions (styles.map Style.name)
  let defaultPosition ← defaultPositionOf styling styleIndex subject
  let layer := {
    life := Lifecycle.start expanded ["products", "low_res_products"]
    scope, metadata, bands, flagBands, flagGroups, fuse, styles, styleIndex, defaultPosition
    products := Cell.empty "products"
    lowResProducts := Cell.empty "low_res_products" }
  return (layer, r)

/-- The products of the given names; an error says which is missing. -/
def findProducts (dc : Datacube) (names : List String) (qualifier layer : String) :
    Except ConfigError (List Product) :=
  FlagBand.findProducts dc names (.productMissing qualifier · layer)

/-- Finds the products. The two fields are filled together or not at all. -/
def readyProducts (l : Layer) (dc : Datacube) : Attempt Layer :=
  let found := do
    let products ← findProducts dc l.scope.products "" l.name
    return (products, ← findProducts dc l.scope.lowResProducts "low_res " l.name)
  match found with
  | .error error => .failed l error
  | .ok (found, foundLowRes) =>
    let (life, products) := l.life.fill l.products found
    let (life, lowResProducts) := life.fill l.lowResProducts foundLowRes
    .done { l with life, products, lowResProducts }

/-- Makes the bands ready. -/
def readyBands (dc : Datacube) (l : Layer) : Attempt Layer :=
  (l.bands.makeReady dc).within fun bands => { l with bands }

/-- Makes the flag bands ready in turn; those before a failure stay ready. -/
def readyFlagBands (dc : Datacube) (l : Layer) : Attempt Layer :=
  (Attempt.each (fun f => f.makeReadyIn dc l.scope) l.flagBands).within
    fun flagBands => { l with flagBands }

/-- The canonical names of flag bands are known only when these are ready. -/
def regroup (l : Layer) : Attempt Layer :=
  match FlagGroup.build l.flagBands with
  | .ok flagGroups => .done { l with flagGroups }
  | .error error => .failed l error

/-- Makes the styles ready in turn. -/
def readyStyles (l : Layer) : Attempt Layer :=
  (Attempt.each Style.makeReady l.styles).within fun styles => { l with styles }

/-- Finds the products and makes every part ready, in this order. -/
def makeReady (l : Layer) (dc : Datacube) : Attempt Layer :=
  ((((l.readyProducts dc).andThen (readyBands dc)).andThen (readyFlagBands dc)).andThen
    regroup).andThen readyStyles |>.andThen fun l => l.life.finish l fun life => { l with life }

end Layer

end MapConfig
