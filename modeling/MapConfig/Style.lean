import MapConfig.Inheritance
import MapConfig.Legend
import MapConfig.MaskRule
import MapConfig.Scope
import MapConfig.Text.Alphabetic
import MapConfig.Wording.Metadata

/-! Styles of a layer: which bands they read, how values are coloured and what
their legend shows. A style may name the layer's bands in its own words, and
may inherit from another style, of the same layer unless it says otherwise. -/
namespace MapConfig

/-- A mask rule with the colour and the title that it is drawn with (`ValueMapRule`). -/
structure ColorRule where
  rule : MaskRule
  title : String
  color : String

/-- A style as read (`StyleDef`). -/
structure Style where
  life : Lifecycle
  name : String
  layer : String
  /-- The style's own names for bands of the layer. -/
  bandNames : Table String
  neededBands : NameSet
  indexFunction : Option BoundFunction
  /-- Rules by the band they are configured under. -/
  valueMap : Table (List ColorRule)
  ramp : Option Ramp
  legend : Option Legend

/-- What loading has gathered so far: the entries to inherit from and the texts. -/
structure Registries where
  catalogue : Catalogue
  wording : Wording

namespace Style

/-- The label of the texts of a style. -/
def labelOf (layer name : String) : String := layer ++ "." ++ name

def label (s : Style) : String := labelOf s.layer s.name

/-- The layer's name for a band, as the style calls it. -/
def localBand (bandNames : Table String) (band : String) : String :=
  (bandNames.find? band).getD band

/-- The `band_map` section: the style's own name for each band of the layer that it
renames. -/
def bandNamesOf (cfg : Mapping) (subject : String) : Except ConfigError (Table String) :=
  match Table.find? cfg "band_map" with
  | none | some .null => .ok []
  | some given =>
    let names := do
      let entries ← given.mapping?
      entries.mapM fun (name, band) => do some (name, ← Tree.text? band)
    match names with
    | some names => .ok names
    | none => .error (.invalid (.badBandMap subject))

/-- One rule of the value map. The band that the rule stands under goes through the
mapper of the style. -/
def ruleOf (band : String) (subject : String) (mapper : BandMapper) (cfg : Tree) :
    Except ConfigError ColorRule := do
  let rule ← MaskRule.parse band cfg subject (some mapper)
  let entries ← cfg.asMapping subject
  let title := (← Mapping.text? entries "title" subject).getD ""
  let color ← Mapping.text entries "color" s!"Value map rule in {subject}"
  return { rule, title, color }

/-- The `value_map` section, band by band and rule by rule. -/
def valueMapOf (cfg : Mapping) (subject : String) (mapper : BandMapper) :
    Except ConfigError (Table (List ColorRule)) :=
  match Table.find? cfg "value_map" with
  | none | some .null => .ok []
  | some given => do
    let bands ← given.asMapping s!"{subject}: value_map"
    bands.mapM fun (band, rules) =>
      match rules with
      | .list rules => do return (band, ← rules.mapM (ruleOf band subject mapper))
      | _ => throw (.invalid (.rulesNotList subject band))

/-- The legend, if the style has the section. -/
def legendOf (cfg : Mapping) (name subject : String) (ramp : Option Ramp) :
    Except ConfigError (Option Legend) :=
  match Table.find? cfg "legend" with
  | none | some .null => .ok none
  | some given => do
    let entries ← given.asMapping subject
    return some (← Legend.parse entries name ramp)

/-- All rules of a value map, band after band. -/
def rules (valueMap : Table (List ColorRule)) : List ColorRule := valueMap.flatMap Prod.snd

/-- The texts of rules, by their numbers. -/
def numberedTexts (label : String) (titles : List (Nat × String)) : List Registration :=
  titles.map fun (index, title) => ⟨label, "rule_" ++ toString index, title, false⟩

/-- Rules are numbered over all bands; those without a title have no text. -/
def ruleTexts (label : String) (rules : List ColorRule) : List Registration :=
  numberedTexts label
    ((rules.zipIdx.filter fun entry => entry.1.title ≠ "").map fun (rule, index) =>
      (index, rule.title))

/-- Labels without a letter are numbers and not registered as texts. -/
def tickTexts (label : String) (ticks : List (String × String)) : List Registration :=
  (ticks.filter fun entry => entry.2.toList.any Text.isAlphabetic).map fun (tick, text) =>
    ⟨label, "lbl_" ++ tick, text, false⟩

/-- The texts of a legend: its units, and the labels of its ticks. -/
def legendTexts (label : String) (legend : Legend) : List Registration :=
  (legend.units.map fun units => ⟨label, "units", units, false⟩).toList ++
    tickTexts label (legend.tickTexts.zip legend.labels)

/-- The mapper of a style: its own names first, then those of the layer. -/
def mapperOf (bandNames : Table String) (band : BandMapper) : BandMapper :=
  fun name => band (localBand bandNames name)

/-- The parts of a style that its settings give, once its name is known. -/
def ofMapping (raw : Tree) (cfg : Mapping) (name : String) (scope : LayerScope)
    (functions : Objects HostFunction) : Except ConfigError Style := do
  let subject := s!"Style {name} of layer " ++ scope.name
  let bandNames ← bandNamesOf cfg subject
  let mapper := mapperOf bandNames scope.band
  let listed ← (← Mapping.texts cfg "needed_bands" subject).mapM mapper
  let indexFunction ← BoundFunction.parse? ⟨some mapper, raw⟩ cfg "index_function" functions
  let valueMap ← valueMapOf cfg subject mapper
  let ramp ← Ramp.parse cfg subject
  let legend ← legendOf cfg name subject ramp
  return {
    life := Lifecycle.start raw []
    name
    layer := scope.name
    bandNames
    neededBands := NameSet.ofList (listed ++ (rules valueMap).map fun r => r.rule.band)
    indexFunction, valueMap, ramp, legend }

/-- The texts that a style registers beside its metadata. -/
def registrations (s : Style) : List Registration :=
  ruleTexts s.label (rules s.valueMap) ++ (s.legend.map (legendTexts s.label)).getD []

def keyValues (s : Style) : KeyValues := styleKeys s.layer s.name

/-- A style takes no texts from its layer, so there is nothing above it. -/
def metadataContext (layer name : String) : MetadataContext where
  label := labelOf layer name
  above := none
  defaultTitle := none
  defaultAbstract := none

/-- Reads a style and enters it into the registries. -/
def load (raw : Tree) (scope : LayerScope) (functions : Objects HostFunction) (r : Registries) :
    Except ConfigError (Style × Registries) := do
  -- The layer is the one attribute that a directive may leave out.
  let expanded ← Inheritance.expand raw .style r.catalogue none (layerKeys scope.name)
  let subject := "Style of layer " ++ scope.name
  let cfg ← expanded.asMapping subject
  let name ← Mapping.text cfg "name" subject
  let (texts, metadata) := Metadata.parse r.wording {} cfg (metadataContext scope.name name)
  let _ ← metadata
  let style ← ofMapping expanded cfg name scope functions
  let catalogue ← r.catalogue.register .style style.keyValues style.life.raw
  return (style, ⟨catalogue, r.wording.registerAll (texts ++ style.registrations)⟩)

/-- The displayed label of a rule, by its number over all bands. -/
def ruleLabel (s : Style) (w : Wording) (index : Nat) : Option String :=
  w.read s.label ("rule_" ++ toString index)

/-- The displayed label of a tick: its text, if one is there, else the label
from the legend. Texts that are no ticks have none. -/
def tickLabel (s : Style) (w : Wording) (tick : String) : Option String := do
  let legend ← s.legend
  let (_, label) ← List.find? (fun entry => entry.1 = tick) (legend.tickTexts.zip legend.labels)
  ((w.read s.label ("lbl_" ++ tick)).filter fun text => text ≠ "").or (some label)

/-- A style has nothing to look up. Its rules keep their own state. -/
def makeReady (s : Style) : Attempt Style :=
  s.life.finish s fun life => { s with life }

end Style

end MapConfig
