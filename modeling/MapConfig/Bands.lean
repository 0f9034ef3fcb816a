import MapConfig.Datacube
import MapConfig.Function
import MapConfig.Lifecycle
import MapConfig.Wording

/-! The bands of a layer. A layer names its bands and their aliases, none of
which may stand for two bands; any of the names can be used elsewhere in the
layer. Which measurement of the product a band is shows in the second phase. -/
namespace MapConfig

/-- The bands of one layer (`BandIndex`). -/
structure BandTable where
  life : Lifecycle
  layer : String
  /-- The product whose measurements the bands are. -/
  product : String
  aliases : OrderedTable (List String)
  /-- The band that each name and alias stands for. -/
  canonical : Table String
  native : Cell (Table String)

namespace BandTable

/-- The aliases given for a band; null is no alias. -/
def aliasesOf (given : Tree) (band layer : String) : Except ConfigError (List String) :=
  match given with
  | .null => .ok []
  | .list items =>
    match Tree.texts? items with
    | some aliases => .ok aliases
    | none => .error (.invalid (.aliasesNotTexts band layer))
  | other => .error (.invalid (.aliasesNotList band layer other.kind))

/-- Lets a name stand for a band, unless it stands for another one. -/
def claim (layer band : String) (canonical : Table String) (name : String) :
    Except ConfigError (Table String) :=
  match canonical.find? name with
  | some other =>
    if other = band then .ok (canonical.insert name band)
    else .error (.conflicting (.bandName name layer))
  | none => .ok (canonical.insert name band)

/-- The names read so far: the aliases of each band, and what each name means. -/
structure Names where
  aliases : OrderedTable (List String)
  canonical : Table String

/-- One entry of the section: the band claims its own name and then each of its aliases. -/
def readBand (layer : String) (names : Names) (entry : String × Tree) :
    Except ConfigError Names := do
  let (band, given) := entry
  let aliases ← aliasesOf given band layer
  let canonical ← (band :: aliases).foldlM (claim layer band) names.canonical
  return ⟨names.aliases.insert band aliases, canonical⟩

/-- Reads the `bands` section of a layer. -/
def parse (layer product : String) (cfg : Tree) : Except ConfigError BandTable := do
  let bands ← cfg.asMapping s!"Bands section of layer {layer}"
  if bands.isEmpty then throw (.invalid (.noBands layer))
  let names ← bands.foldlM (readBand layer) ⟨∅, []⟩
  return {
    life := Lifecycle.start cfg ["native_bands"]
    layer, product
    aliases := names.aliases
    canonical := names.canonical
    native := Cell.empty "native_bands" }

/-- The label of the texts of the bands. -/
def label (t : BandTable) : String := t.layer ++ ".bands"

/-- A band is displayed under its first alias, or its own name. -/
def registrations (t : BandTable) : List Registration :=
  t.aliases.entries.map fun (band, aliases) => ⟨t.label, band, aliases.headD band, false⟩

/-- Reads the `bands` section of a layer and registers the texts of its bands. Texts
that are registered before a failure stay. -/
def load (layer product : String) (cfg : Tree) :
    ExceptT ConfigError (StateM Wording) BandTable := do
  let t ← MonadExcept.ofExcept (parse layer product cfg)
  modify fun w => w.registerAll t.registrations
  return t

/-- The canonical name for any name of a band. -/
def band (t : BandTable) (name : String) : Except ConfigError String :=
  match t.canonical.find? name with
  | some band => .ok band
  | none => .error (.invalid (.unknownBand name t.layer))

/-- The names as the parts of the layer read them, apart from the table. -/
def mapper (t : BandTable) : BandMapper := t.band

/-- The canonical names, in order. -/
def names (t : BandTable) : List String := t.aliases.keys

/-- The text a band is displayed under. -/
def bandLabel (t : BandTable) (w : Wording) (name : String) : Except ConfigError String := do
  let band ← t.band name
  return (w.read t.label band).getD band

/-- The measurement that a band is. -/
def nativeBand (t : BandTable) (name : String) : Except ConfigError String := do
  let band ← t.band name
  let native ← t.native.get
  match native.find? band with
  | some measurement => return measurement
  | none => throw (.notFound (.nativeBand band))

/-- The measurement of a product under one of the names of a band, tried in
order. -/
def measurementOf (product : Product) (layer band : String) (aliases : List String) :
    Except ConfigError (String × String) :=
  match (band :: aliases).findSome? product.measurement? with
  | some (measurement, _) => .ok (band, measurement)
  | none => .error (.invalid (.bandNotMeasured band product.name layer))

/-- The measurement of every band, or the first band that the product does not have. -/
def nativeNames (t : BandTable) (dc : Datacube) : Except ConfigError (Table String) :=
  match Table.find? dc t.product with
  | none => .error (.invalid (.bandProductMissing t.product t.layer))
  | some product =>
    t.aliases.entries.mapM fun (band, aliases) => measurementOf product t.layer band aliases

/-- Looks every band up in the product. -/
def makeReady (t : BandTable) (dc : Datacube) : Attempt BandTable :=
  match t.nativeNames dc with
  | .error error => .failed t error
  | .ok names =>
    let (life, native) := t.life.fill t.native names
    let filled := { t with life, native }
    life.finish filled fun life => { filled with life }

end BandTable

end MapConfig
