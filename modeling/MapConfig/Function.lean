import MapConfig.Objects
import MapConfig.Tree.Fields

/-! Functions named in a configuration. The host supplies them under qualified
names; a configuration may fix some of their arguments, and may ask that they
can map band names as its own section does, or see its raw tree. A `HostFunction` is a
`Capability`, a `BoundFunction` a `FunctionReference`. -/
namespace MapConfig

/-- Maps a band name or alias, as written, to the canonical name of the band. -/
abbrev BandMapper := String → Except ConfigError String

/-- What a host function is called with. -/
structure FunctionCall where
  args : List Tree
  kwargs : Mapping
  mapper : Option BandMapper
  cfg? : Option Tree

/-- Without a mapper a band keeps its name. -/
def FunctionCall.mapBand (call : FunctionCall) (band : String) : Except ConfigError String :=
  match call.mapper with
  | some mapper => mapper band
  | none => .ok band

/-- A function of the host: it answers with a tree, or fails in its own words. -/
abbrev HostFunction := FunctionCall → Except ConfigError Tree

/-- A function by its name, or the function itself. -/
inductive FunctionTarget where
  | named (name : String)
  | callable (function : HostFunction)

/-- A function as a configuration names it. -/
structure FunctionSpec where
  target : FunctionTarget
  args : List Tree
  kwargs : Mapping
  passCfg : Bool
  mapsBands : Bool

namespace FunctionSpec

/-- A function with nothing fixed and nothing asked for. -/
def bare (target : FunctionTarget) : FunctionSpec := ⟨target, [], [], false, false⟩

/-- The fixed arguments. -/
def argsOf (cfg : Mapping) (name : String) : Except ConfigError (List Tree) :=
  match Table.find? cfg "args" with
  | none | some .null => .ok []
  | some (.list args) => .ok args
  | some other => .error (.invalid (.functionArguments name "args" "a list" other.kind))

/-- The fixed keyword arguments. -/
def kwargsOf (cfg : Mapping) (name : String) : Except ConfigError Mapping :=
  match Table.find? cfg "kwargs" with
  | none | some .null => .ok []
  | some (.mapping kwargs) => .ok kwargs
  | some other => .error (.invalid (.functionArguments name "kwargs" "a mapping" other.kind))

/-- The qualified name under `function`. -/
def nameOf (cfg : Mapping) : Except ConfigError String :=
  match Table.find? cfg "function" with
  | some (.text name) => .ok name
  | some other => .error (.malformed (.functionName other.kind))
  | none => .error (.missing "Function definition" "function")

/-- The key `pass_product_cfg` is an older name, read only without the newer one. -/
def mapsBandsOf (cfg : Mapping) : Bool :=
  if Table.contains cfg "mapped_bands" then Mapping.flag cfg "mapped_bands" false
  else Mapping.flag cfg "pass_product_cfg" false

/-- A qualified name, or a mapping that gives one and more. -/
def parse : Tree → Except ConfigError FunctionSpec
  | .text name => .ok (bare (.named name))
  | .mapping cfg => do
    let name ← nameOf cfg
    let args ← argsOf cfg name
    let kwargs ← kwargsOf cfg name
    return {
      target := .named name
      args
      kwargs
      passCfg := Mapping.flag cfg "pass_layer_cfg" false
      mapsBands := mapsBandsOf cfg }
  | other => .error (.malformed (.functionSpec other.kind))

end FunctionSpec

/-- The section of a configuration that a function is named in. -/
structure FunctionOwner where
  mapper : Option BandMapper
  cfg : Tree

/-- A function found, with its fixed arguments. -/
structure BoundFunction where
  name : String
  function : HostFunction
  args : List Tree
  kwargs : Mapping
  mapper : Option BandMapper
  cfg? : Option Tree

namespace BoundFunction

/-- A callable stands for itself only on its own, outside of a configuration. -/
def target (spec : FunctionSpec) (standAlone : Bool) (functions : Objects HostFunction) :
    Except ConfigError (String × HostFunction) :=
  match spec.target with
  | .named name => do return (name, ← functions.resolve name)
  | .callable function =>
    if standAlone then .ok ("<callable>", function) else .error (.invalid .callableRefused)

/-- The mapper of the owner, where the function asks for one. -/
def mapperOf (spec : FunctionSpec) (name : String) (owner : Option FunctionOwner) :
    Except ConfigError (Option BandMapper) :=
  if spec.mapsBands then
    match owner.bind FunctionOwner.mapper with
    | some mapper => .ok (some mapper)
    | none => .error (.invalid (.mappedBandsAlone name))
  else .ok none

/-- Finds the function and fixes its arguments (`wrap`). -/
def ofSpec (owner : Option FunctionOwner) (spec : FunctionSpec) (standAlone : Bool)
    (functions : Objects HostFunction) : Except ConfigError BoundFunction := do
  let (name, function) ← target spec standAlone functions
  let mapper ← mapperOf spec name owner
  return {
    name, function, mapper
    args := spec.args
    kwargs := spec.kwargs
    cfg? := if spec.passCfg then owner.map FunctionOwner.cfg else none }

/-- Reads and binds a function from its node in a configuration. -/
def parse (owner : Option FunctionOwner) (node : Tree) (functions : Objects HostFunction) :
    Except ConfigError BoundFunction := do
  ofSpec owner (← FunctionSpec.parse node) false functions

/-- The function under a key, if one is given there. -/
def parse? (owner : FunctionOwner) (cfg : Mapping) (key : String)
    (functions : Objects HostFunction) : Except ConfigError (Option BoundFunction) :=
  match Table.find? cfg key with
  | none | some .null => .ok none
  | some node => some <$> parse (some owner) node functions

/-- The arguments of the call come before the fixed ones, and its keyword
arguments win over them. -/
def call (f : BoundFunction) (args : List Tree) (kwargs : Mapping) : Except ConfigError Tree :=
  f.function {
    args := args ++ f.args
    kwargs := Table.override f.kwargs kwargs
    mapper := f.mapper
    cfg? := f.cfg? }

end BoundFunction

end MapConfig
