import MapConfig.Function

/-! What the parts of a layer see of it. -/
namespace MapConfig

/-- The part of a layer that its flag bands and styles are read with: its name, its
products, the mapper of its bands and its raw tree. -/
structure LayerScope where
  name : String
  products : List String
  lowResProducts : List String
  band : BandMapper
  raw : Tree

/-- A layer as the owner of the functions named in it. -/
def LayerScope.owner (scope : LayerScope) : FunctionOwner := ⟨some scope.band, scope.raw⟩

end MapConfig
