import MapConfig.Decimal.Text
import MapConfig.Tree.Fields

/-! Colour ramps: the stops of a style's `color_ramp`, or a default ramp
stretched over the style's `range`. -/
namespace MapConfig

/-- One stop of a colour ramp. -/
structure RampStop where
  value : Decimal
  color : String
  alpha : Float

/-- The stops of a ramp in the order of the configuration. -/
abbrev Ramp := List RampStop

/-- A number, or a text that holds one, as a double. -/
def Tree.double? : Tree → Option Float
  | .number (.whole n) => some (Double.ofInt n)
  | .number (.double x) => some x
  | .text words => Double.parse? (MapConfig.Text.trimmed words)
  | _ => none

/-- The decimal of a setting. -/
def Tree.decimal (tree : Tree) (key subject : String) : Except ConfigError Decimal :=
  (Decimal.ofTree tree).mapError (.ofFailure (.invalid (.notDecimal subject key tree)))

/-- Whether a stop is fully opaque, up to rounding. -/
def RampStop.isSolid (stop : RampStop) : Bool := (stop.alpha - 1.0).abs ≤ 1e-9

/-- Reads one stop, an entry of `color_ramp`. The key `legend` belongs to an older
format and is refused. -/
def RampStop.parse (stop : Tree) (subject : String) : Except ConfigError RampStop := do
  let entries ← match stop with
    | .mapping entries => pure entries
    | other => .error (.invalid (.rampEntry subject other.kind))
  if Table.contains entries "legend" then throw (.invalid (.oldLegendFormat subject))
  let value ← match Table.find? entries "value" with
    | some given => given.decimal "value" subject
    | none => throw (.missing s!"Color ramp entry of {subject}" "value")
  let color ← match ← Mapping.text? entries "color" subject with
    | some color => pure color
    | none => throw (.missing s!"Color ramp entry of {subject}" "color")
  let alpha ← match Table.find? entries "alpha" with
    | none => pure 1.0
    | some given => match given.double? with
      | some alpha => pure alpha
      | none => throw (.invalid (.alphaNotNumber subject))
  return ⟨value, color, alpha⟩

namespace Ramp

/-- The default ramp over the range from 0 to 1. -/
def unitStops : List (Float × String × Float) := [
  (-1e-24, "#000080", 0.0),
  (0.0, "#000080", 1.0),
  (0.1, "#0000FF", 1.0),
  (0.3, "#00FFFF", 1.0),
  (0.5, "#00FF00", 1.0),
  (0.7, "#FFFF00", 1.0),
  (0.9, "#FF0000", 1.0),
  (1.0, "#800000", 1.0)]

/-- The default ramp stretched over a range. Each place is computed in doubles and then
taken as its shortest decimal. -/
def overRange (low high : Float) (subject : String) : Except ConfigError Ramp :=
  unitStops.mapM fun (place, color, alpha) => do
    let value ← (Decimal.ofDouble ((high - low) * place + low)).mapError
      (.ofFailure (.invalid (.rangeNotRepresentable subject low high)))
    return ⟨value, color, alpha⟩

/-- The two ends of a range. -/
def range? : Tree → Option (Float × Float)
  | .list [low, high] => do some (← low.double?, ← high.double?)
  | _ => none

/-- The ramp of a style, if it has one. -/
def parse (cfg : Mapping) (subject : String) : Except ConfigError (Option Ramp) :=
  match Table.find? cfg "color_ramp", Table.find? cfg "range" with
  | some (.list (stop :: rest)), _ =>
    some <$> (stop :: rest).mapM fun stop => RampStop.parse stop subject
  | some _, _ => .error (.invalid (.rampNotList subject))
  | none, none => .ok none
  | none, some range =>
    match range? range with
    | some (low, high) => some <$> overRange low high subject
    | none => .error (.invalid (.rangeNotPair subject))

end Ramp

end MapConfig
