import MapConfig.Ramp

/-! Legends of styles: where ticks stand and how they are labelled. Ticks are
listed one by one, set at a fixed step, or divide the legend evenly; the legend
reaches from the first to the last solid stop of the ramp unless it says
otherwise. All of this is settled when the style is read, and nothing in a legend
depends on the datacube. -/
namespace MapConfig

/-- A legend as read. -/
structure Legend where
  units : Option String
  begins : Option Decimal
  ends : Option Decimal
  places : Nat
  ticks : List Decimal
  /-- One label for each tick. -/
  labels : List String

/-- How the ticks of a legend are given. -/
inductive TickPlan where
  | every (step : Decimal)
  | listed (ticks : List Decimal)
  | count (divisions : Nat)

namespace Legend

/-- The keys of an older format, which are refused. -/
def oldKeys : List String := ["major_ticks", "offset", "scale_by", "radix_point"]

/-- The places that divided ticks are rounded to, one unless given. -/
def placesOf (cfg : Mapping) : Except ConfigError Nat :=
  match Table.find? cfg "decimal_places" with
  | none => .ok 1
  | some given =>
    match given.word64? with
    | some places =>
      if places < Nat.pow 2 32 then .ok places else .error (.invalid .decimalPlaces)
    | none => .error (.invalid .decimalPlaces)

/-- A step has to be positive. -/
def stepOf (given : Tree) (subject : String) : Except ConfigError TickPlan := do
  let step ← given.decimal "ticks_every" subject
  if Decimal.zero.isBelow step then return .every step
  else throw (.invalid .stepNotPositive)

/-- The ticks as they are listed. -/
def listedOf (given : Tree) (subject : String) : Except ConfigError TickPlan :=
  match given with
  | .list items => .listed <$> items.mapM fun item => item.decimal "ticks" subject
  | other => .error (.invalid (.wrongKind subject "ticks" "a list" other.kind))

/-- The number of parts to divide the legend into, one unless given. -/
def countOf (given : Option Tree) (subject : String) : Except ConfigError TickPlan :=
  match given with
  | none => .ok (.count 1)
  | some given =>
    match given.int64? with
    | none => .error (.invalid (.tickCountNotWhole subject))
    | some count =>
      if 0 ≤ count then .ok (.count count.toNat) else .error (.invalid .tickCountNegative)

/-- The three ways to give ticks exclude each other. -/
def planOf (cfg : Mapping) (subject : String) : Except ConfigError TickPlan :=
  match Table.find? cfg "ticks", Table.find? cfg "ticks_every", Table.find? cfg "tick_count" with
  | _, some _, some _ => .error (.conflicting .countAndEvery)
  | some _, some _, none => .error (.conflicting .ticksAndEvery)
  | some _, none, some _ => .error (.conflicting .countAndTicks)
  | none, some step, none => stepOf step subject
  | some listed, none, none => listedOf listed subject
  | none, none, count => countOf count subject

/-- A bound of the legend: as configured, else the given stop of the ramp. -/
def boundOf (cfg : Mapping) (key subject : String) (stop : Option RampStop) :
    Except ConfigError (Option Decimal) :=
  match Table.find? cfg key with
  | some given => some <$> given.decimal key subject
  | none => .ok (stop.map RampStop.value)

/-- The first stop that is opaque, else the first of all. -/
def firstStop (ramp : Ramp) : Option RampStop := (ramp.find? RampStop.isSolid).or ramp.head?

/-- The last stop that is opaque, else the last of all. -/
def lastStop (ramp : Ramp) : Option RampStop := firstStop ramp.reverse

/-- Listed ticks lie within the legend if both its bounds are known. -/
def withinBounds (ticks : List Decimal) (begins ends : Option Decimal) : Bool :=
  match begins, ends with
  | some low, some high => ticks.all fun tick => !tick.isBelow low && !high.isBelow tick
  | _, _ => true

/-- The ticks from `tick` on at a fixed step, as long as they are below `last`,
and then `last` itself. Nothing if a tick has no value. -/
def ticksFrom? (step last : Decimal) : Nat → Decimal → Option (List Decimal)
  | 0, _ => none
  | bound + 1, tick =>
    if tick.isBelow last then do
      let next ← tick.add? step
      return tick :: (← ticksFrom? step last bound next)
    else some [last]

/-- From the first sum on all ticks have one scale and their digits ascend, so
no run of them is longer than the range of digits. -/
def steppedTicks? (first last step : Decimal) : Option (List Decimal) :=
  ticksFrom? step last (Nat.pow 2 128 + 2) first

/-- The tick after `index` of `divisions` parts of the way: the digits of the
first tick and of the way are given at a common scale, whose unit is `den` when
counted in parts; `unit` is the unit of the places shown. -/
def division (first way divisions den : Int) (unit places index : Nat) :
    Except Decimal.Failure Decimal := do
  let start ← Decimal.tested (Decimal.fitting? (first * divisions))
  let part ← Decimal.tested (Decimal.fitting? (index * way))
  let sum ← Decimal.tested (Decimal.fitting? (start + part))
  let num ← Decimal.tested (Decimal.fitting? (sum * unit))
  Decimal.rounded num den places

/-- The results for `index`, `index + 1`, ..., as many as asked for. -/
def collect (tick : Nat → Except Decimal.Failure Decimal) :
    Nat → Nat → Except Decimal.Failure (List Decimal)
  | 0, _ => .ok []
  | count + 1, index => do
    let here ← tick index
    return here :: (← collect tick count (index + 1))

/-- Ticks that divide the way from `first` to `last` evenly, rounded to `places`
places. No division at all leaves `first` alone, unrounded. -/
def evenTicks (first last : Decimal) (divisions places : Nat) :
    Except Decimal.Failure (List Decimal) :=
  if divisions = 0 then .ok [first] else do
    let scale := max first.scale last.scale
    let start ← Decimal.tested (first.rescaled? scale)
    let finish ← Decimal.tested (last.rescaled? scale)
    let way ← Decimal.tested (Decimal.fitting? (finish - start))
    let power ← Decimal.tested (Decimal.powerOfTen? scale)
    let den ← Decimal.tested (Decimal.fitting? (divisions * power))
    let unit ← Decimal.tested (Decimal.powerOfTen? places)
    collect (division start way divisions den unit places) (divisions + 1) 0

/-- The ticks of a plan. A step needs both bounds, a number of parts gives no ticks
without them, and listed ticks need none. -/
def ticksOf (plan : TickPlan) (begins ends : Option Decimal) (places : Nat) (subject : String) :
    Except ConfigError (List Decimal) :=
  let orOutOfRange (ticks : Except Decimal.Failure (List Decimal)) :=
    ticks.mapError (.ofFailure (.invalid (.ticksOutOfRange subject)))
  match plan, begins, ends with
  | .listed ticks, begins, ends =>
    if withinBounds ticks begins ends then .ok ticks else .error (.invalid .tickOutsideLegend)
  | .every _, none, _ => .error (.missing subject "begin")
  | .every _, some _, none => .error (.missing subject "end")
  | .every step, some first, some last =>
    orOutOfRange (Decimal.tested (steppedTicks? first last step))
  | .count divisions, some first, some last =>
    orOutOfRange (evenTicks first last divisions places)
  | .count _, _, _ => .ok []

/-- A part of a tick's label, as configured for the tick or by default. -/
def labelPart (entry : Option Tree) (key fallback : String) : String :=
  ((entry.bind (·.get? key)).bind Tree.text?).getD fallback

/-- The label of a tick shown as `text`: a leading part, the text or what
replaces it, and a trailing part. -/
def labelOf (labels : Option Tree) (text : String) : String :=
  let default := labels.bind (·.get? "default")
  let entry := labels.bind (·.get? text)
  labelPart entry "prefix" (labelPart default "prefix" "") ++
    labelPart entry "label" text ++
    labelPart entry "suffix" (labelPart default "suffix" "")

/-- The legend of the named style, with the bounds of its ramp. -/
def parse (cfg : Mapping) (style : String) (ramp : Option Ramp) : Except ConfigError Legend := do
  let subject := s!"Legend of style {style}"
  if oldKeys.any fun key => Table.contains cfg key then
    throw (.invalid (.oldLegendFormat s!"Style {style}"))
  let places ← placesOf cfg
  let plan ← planOf cfg subject
  let begins ← boundOf cfg "begin" subject (ramp.bind firstStop)
  let ends ← boundOf cfg "end" subject (ramp.bind lastStop)
  let ticks ← ticksOf plan begins ends places subject
  let labels := ticks.map fun tick => labelOf (Table.find? cfg "tick_labels") tick.toText
  let units ← Mapping.text? cfg "units" subject
  return { units, begins, ends, places, ticks, labels }

def tickTexts (l : Legend) : List String := l.ticks.map Decimal.toText

end Legend

end MapConfig
