import MapConfig.Error

/-! Host objects and functions are known by qualified names: a module, a point
and a name within the module. One table serves for both, the `ObjectRegistry` of trees
and the `FunctionRegistry` of functions. -/
namespace MapConfig

/-- The parts around the last point, neither of them empty. -/
def splitQualified? (name : String) : Option (String × String) :=
  let (last, before) := name.toList.reverse.span (· != '.')
  match before with
  | _ :: module => 
    if last.isEmpty || module.isEmpty then none
    else some (String.ofList module.reverse, String.ofList last.reverse)
  | [] => none

/-- Values registered by the host under qualified names. -/
structure Objects (α : Type) where
  entries : Table α

namespace Objects
variable {α : Type}

def empty : Objects α := ⟨[]⟩

/-- A name registered again replaces its value. -/
def register (o : Objects α) (name : String) (value : α) : Except ConfigError (Objects α) :=
  match splitQualified? name with
  | some _ => .ok ⟨o.entries.insert name value⟩
  | none => .error (.unresolvable name)

/-- The value registered under exactly this name. -/
def resolve (o : Objects α) (name : String) : Except ConfigError α :=
  match o.entries.find? name with
  | some value => .ok value
  | none => .error (.unresolvable name)

def contains (o : Objects α) (name : String) : Bool := o.entries.contains name

end Objects

end MapConfig
