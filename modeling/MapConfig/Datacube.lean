import MapConfig.Tree

/-! What the datacube knows: its products, and the measurements of each. The second
phase reads nothing else of it (`DatacubeIndex`), so a table of products stands for it. -/
namespace MapConfig

/-- The flags of a band by name. -/
abbrev FlagsDefinition := Table Tree

/-- A measurement of a product: other names for it, and what its bits mean, if it is one
of flags (`MeasurementInfo`). -/
structure Measurement where
  aliases : List String
  flags : Option FlagsDefinition

/-- A product and its measurements by native name (`ProductInfo`). -/
structure Product where
  name : String
  measurements : Table Measurement

/-- Products by name. -/
abbrev Datacube := Table Product

/-- A product of the same name as an earlier one replaces it. -/
def Datacube.ofProducts (products : List Product) : Datacube :=
  Table.ofList (products.map fun product => (product.name, product))

/-- The measurement with a native name, else the first one, by native name,
that has the alias. -/
def Product.measurement? (p : Product) (name : String) : Option (String × Measurement) :=
  match p.measurements.find? name with
  | some measurement => some (name, measurement)
  | none => List.find? (fun entry => entry.2.aliases.contains name) p.measurements

end MapConfig
