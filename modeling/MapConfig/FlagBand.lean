import MapConfig.MaskRule
import MapConfig.Scope

/-! Flag bands of a layer, taken from the layer's own products or from others.
Products, flags and the bits that are for information only are looked up in the
second phase. -/
namespace MapConfig

/-- A band whose values are flags, as a layer uses it. -/
structure FlagBand where
  life : Lifecycle
  layer : String
  /-- The band as configured. -/
  band : String
  /-- The band after alias resolution, which takes place in the second phase. -/
  canonical : String
  products : List String
  lowResProducts : List String
  /-- The band is one of the layer's own products. -/
  ownProducts : Bool
  fuse : Option BoundFunction
  ignoreTime : Bool
  ignoredFlags : List String
  manualMerge : Bool
  foundProducts : Cell (List Product)
  foundLowResProducts : Cell (List Product)
  flags : Cell FlagsDefinition
  infoMask : Cell Pixel

namespace FlagBand

/-- Products under a key for one or a key for several. -/
def productsOf (cfg : Mapping) (single plural subject : String) (fallback : List String) :
    Except ConfigError (List String) :=
  match Table.find? cfg single, Table.find? cfg plural with
  | some _, some _ => .error (.conflicting (.bothKeys subject single plural))
  | some (.text product), none => .ok [product]
  | some _, none => .error (.invalid (.notText subject single))
  | none, some _ => do
    let products ← Mapping.texts cfg plural subject
    return if products.isEmpty then fallback else products
  | none, none => .ok fallback

/-- Low-resolution products default to the layer's where the products are. -/
def parse (cfg : Tree) (scope : LayerScope) (functions : Objects HostFunction) :
    Except ConfigError FlagBand := do
  let layer := scope.name
  let subject := s!"Flag band of layer {layer}"
  let entries ← cfg.asMapping subject
  let band ← Mapping.text entries "band" subject
  let products ← productsOf entries "product" "products" subject scope.products
  let ownProducts := decide (products = scope.products)
  let lowResProducts ← productsOf entries "low_res_product" "low_res_products" subject
    (if ownProducts then scope.lowResProducts else [])
  let fuse ← BoundFunction.parse? scope.owner entries "fuse_func" functions
  let ignoredFlags ← Mapping.texts entries "ignore_info_flags" subject
  return {
    life := Lifecycle.start cfg ["pq_products", "pq_low_res_products", "flags_def", "info_mask"]
    layer, band
    canonical := band
    products, lowResProducts, ownProducts, fuse
    ignoreTime := Mapping.flag entries "ignore_time" false
    ignoredFlags
    manualMerge := Mapping.flag entries "manual_merge" false
    foundProducts := Cell.empty "pq_products"
    foundLowResProducts := Cell.empty "pq_low_res_products"
    flags := Cell.empty "flags_def"
    infoMask := Cell.empty "info_mask" }

/-- The products of the given names, or the first name that there is none of. -/
def findProducts (dc : Datacube) (names : List String) (missing : String → Fault) :
    Except ConfigError (List Product) :=
  names.mapM fun name =>
    match Table.find? dc name with
    | some product => .ok product
    | none => .error (.invalid (missing name))

/-- The flags of the band in the first of its products. -/
def flagsIn (f : FlagBand) (products : List Product) : Except ConfigError FlagsDefinition :=
  match products with
  | [] => .error (.invalid (.noFlagProducts f.band f.layer))
  | product :: _ =>
    match product.measurement? f.canonical with
    | none => .error (.invalid (.flagBandNotMeasured f.band product.name f.layer))
    | some (_, measurement) =>
      match measurement.flags with
      | some flags => .ok flags
      | none => .error (.invalid (.noFlagsDefinition f.band product.name f.layer))

/-- The bit of a flag that has a single one; flags of several bits are never
ignored. -/
def singleBit (definition : Tree) : Pixel :=
  match (definition.get? "bits").bind Flag.position? with
  | some position => Flag.bit position
  | none => 0#64

/-- All bits but those of the flags named. -/
def infoMaskOf (flags : FlagsDefinition) (ignored : List String) (layer : String) :
    Except ConfigError Pixel :=
  ignored.foldlM (fun (mask : Pixel) name =>
    match Table.find? flags name with
    | some definition => .ok (mask &&& ~~~ singleBit definition)
    | none => .error (.invalid (.unknownInfoFlag name layer)))
    (BitVec.allOnes 64)

/-- What the second phase finds for a flag band. -/
structure Findings where
  products : List Product
  lowResProducts : List Product
  flags : FlagsDefinition
  infoMask : Pixel

/-- Looks everything up before anything is filled. -/
def find (f : FlagBand) (dc : Datacube) : Except ConfigError Findings := do
  let products ← findProducts dc f.products (.flagProductMissing · f.layer)
  let lowResProducts ← findProducts dc f.lowResProducts (.flagLowResProductMissing · f.layer)
  let flags ← f.flagsIn products
  let infoMask ← infoMaskOf flags f.ignoredFlags f.layer
  return { products, lowResProducts, flags, infoMask }

/-- Fills the four fields with what was found. -/
def fill (f : FlagBand) (found : Findings) : FlagBand :=
  let (life, foundProducts) := f.life.fill f.foundProducts found.products
  let (life, foundLowResProducts) := life.fill f.foundLowResProducts found.lowResProducts
  let (life, flags) := life.fill f.flags found.flags
  let (life, infoMask) := life.fill f.infoMask found.infoMask
  { f with life, foundProducts, foundLowResProducts, flags, infoMask }

/-- The second phase on its own, without resolving an alias. -/
def makeReady (f : FlagBand) (dc : Datacube) : Attempt FlagBand :=
  match f.find dc with
  | .error error => .failed f error
  | .ok found =>
    let filled := f.fill found
    filled.life.finish filled fun life => { filled with life }

/-- A band of the layer's own products takes its canonical name; a name that the
layer does not know stays as it is. -/
def resolved (f : FlagBand) (band : BandMapper) : FlagBand :=
  if f.ownProducts then
    match band f.band with
    | .ok canonical => { f with canonical }
    | .error _ => f
  else f

/-- The second phase as a layer takes it (`make_ready_in`): the alias is resolved first,
and by the names that the layer gives to its own bands. -/
def makeReadyIn (f : FlagBand) (dc : Datacube) (scope : LayerScope) : Attempt FlagBand :=
  (f.resolved scope.band).makeReady dc

end FlagBand

/-- Flag bands that are read from the same products (`FlagProductGroup`). -/
structure FlagGroup where
  products : List String
  /-- The low-resolution products of the first band. -/
  lowResProducts : List String
  bands : NameSet
  ignoreTime : Bool
  manualMerge : Bool
  fuse : Option String
  ownProducts : Bool
deriving DecidableEq

namespace FlagGroup

/-- The group of a single band. -/
def ofBand (f : FlagBand) : FlagGroup where
  products := f.products
  lowResProducts := f.lowResProducts
  bands := {f.canonical}
  ignoreTime := f.ignoreTime
  manualMerge := f.manualMerge
  fuse := f.fuse.map BoundFunction.name
  ownProducts := f.ownProducts

/-- Bands of one group agree on `ignore_time` and, where both have one, on the
fuse function. -/
def add (g : FlagGroup) (f : FlagBand) : Except ConfigError FlagGroup :=
  let fuse := f.fuse.map BoundFunction.name
  if g.fuse.isSome ∧ fuse.isSome ∧ g.fuse ≠ fuse then
    .error (.conflicting (.fuseFunctions g.products))
  else if g.ignoreTime ≠ f.ignoreTime then .error (.conflicting (.ignoreTime g.products))
  else .ok { g with
    fuse := g.fuse.or fuse
    manualMerge := g.manualMerge || f.manualMerge
    bands := g.bands.insert f.canonical }

/-- Adds a band to the group of its products, or starts a group with it. -/
def place (f : FlagBand) : List FlagGroup → Except ConfigError (List FlagGroup)
  | [] => .ok [ofBand f]
  | g :: rest =>
    if g.products = f.products then do return (← g.add f) :: rest
    else do return g :: (← place f rest)

/-- Groups in the order of their first bands. -/
def build (bands : List FlagBand) : Except ConfigError (List FlagGroup) :=
  bands.foldlM (fun groups f => place f groups) []

end FlagGroup

end MapConfig
