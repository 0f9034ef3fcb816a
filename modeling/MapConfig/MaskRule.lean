import MapConfig.Function
import MapConfig.Datacube
import MapConfig.Lifecycle
import MapConfig.Text.Integer

/-! Mask rules select pixels of a flag band, by the states of named flags or by
the value of the pixel, and may be inverted. A flag occupies some bits of the
pixel; the band's flags definition says which, and what their values mean. -/
namespace MapConfig

/-- What a rule asks of a pixel (`RuleCondition`). -/
inductive MaskCondition where
  /-- All flags are as expected, or any of them is. -/
  | flags (expected : Mapping) (any : Bool)
  | values (values : List Int)

/-- A rule as read: the band that it looks at is the mapped one. -/
structure MaskRule where
  life : Lifecycle
  band : String
  condition : MaskCondition
  invert : Bool

namespace MaskRule

/-- The flags of a rule, under `and` or `or` where these are used. -/
def flagGroup (flags : Mapping) (subject : String) : Except ConfigError (Mapping × Bool) :=
  let group := fun (given : Tree) (any : Bool) => match given with
    | .mapping flags => .ok (flags, any)
    | other => .error (.invalid (.flagGroup subject other.kind))
  match Table.find? flags "and", Table.find? flags "or" with
  | some _, some _ => .error (.conflicting (.andWithOr subject))
  | none, some given => group given true
  | some given, none => group given false
  | none, none => .ok (flags, false)

/-- No flags at all count as no section. -/
def flagsOf (cfg : Mapping) (subject : String) : Except ConfigError (Option MaskCondition) :=
  match Table.find? cfg "flags" with
  | none | some .null => .ok none
  | some (.mapping flags) => do
    let (flags, any) ← flagGroup flags subject
    return if flags.isEmpty then none else some (.flags flags any)
  | some other =>
    .error (.invalid (.wrongKind s!"Mask rule in {subject}" "flags" "a mapping" other.kind))

/-- One value or a list of values; an empty list counts as no section. -/
def valuesOf (cfg : Mapping) (subject : String) : Except ConfigError (Option MaskCondition) :=
  let whole := fun (values : Option (List Int)) => match values with
    | some [] => .ok none
    | some values => .ok (some (.values values))
    | none => .error (.invalid (.valuesNotWhole subject))
  match Table.find? cfg "values" with
  | none | some .null => .ok none
  | some (.list items) => whole (items.mapM Tree.int64?)
  | some other => whole (other.int64?.map fun value => [value])

/-- Exactly one of the sections has to say something. -/
def conditionOf (cfg : Mapping) (subject : String) : Except ConfigError MaskCondition := do
  match ← flagsOf cfg subject, ← valuesOf cfg subject with
  | some _, some _ => throw (.conflicting (.flagsAndValues subject))
  | some condition, none => return condition
  | none, some condition => return condition
  | none, none =>
    throw (.missing s!"Mask rule in {subject}" "non-empty 'flags' or 'values' section")

/-- A rule on a band, whose name goes through the mapper if there is one. -/
def parse (band : String) (cfg : Tree) (subject : String) (mapper : Option BandMapper) :
    Except ConfigError MaskRule := do
  let entries ← cfg.asMapping s!"Mask rule in {subject}"
  let band ← match mapper with
    | some mapper => mapper band
    | none => pure band
  let condition ← conditionOf entries subject
  return {
    life := Lifecycle.start cfg []
    band, condition
    invert := Mapping.flag entries "invert" false }

/-- A rule has nothing to look up. -/
def makeReady (r : MaskRule) : Attempt MaskRule :=
  r.life.finish r fun life => { r with life }

end MaskRule

/-- Pixels of a flag band. -/
abbrev Pixel := BitVec 64

namespace Flag

/-- A position is taken as an unsigned number of 32 bits. -/
def position? (given : Tree) : Option Nat := given.word64?.map (· % Nat.pow 2 32)

/-- The positions that a definition lists under `bits`. -/
def positions (definition : Tree) : List Nat :=
  match definition.get? "bits" with
  | some (.list items) => items.filterMap position?
  | some other => (position? other).toList
  | none => []

/-- The pixel with one bit set; positions from 64 on are outside. -/
def bit (position : Nat) : Pixel := if position < 64 then 1#64 <<< position else 0#64

/-- The pixel with the bits at all of the positions set. -/
def mask (positions : List Nat) : Pixel :=
  positions.foldl (fun m position => m ||| bit position) 0#64

/-- A position from 64 on is no bit of a pixel, so it sets none. -/
theorem getLsbD_bit (position i : Nat) :
    (bit position).getLsbD i = decide (i = position ∧ i < 64) := by
  by_cases h : position < 64
  · by_cases hi : i = position
    · simp [bit, h, hi]
    · simp only [bit, h, if_true, hi, false_and, decide_false]
      simp [BitVec.getLsbD_shiftLeft, BitVec.getLsbD_one]
      omega
  · simp only [bit, h, if_false, BitVec.getLsbD_zero]
    simp
    omega

theorem getLsbD_foldl_bit (positions : List Nat) (start : Pixel) (i : Nat) :
    (positions.foldl (fun m position => m ||| bit position) start).getLsbD i =
      (start.getLsbD i || decide (i ∈ positions ∧ i < 64)) := by
  induction positions generalizing start with
  | nil => simp
  | cons position rest ih =>
    rw [List.foldl_cons, ih, BitVec.getLsbD_or, getLsbD_bit, Bool.or_assoc]
    congr 1
    by_cases hi : i < 64 <;> simp [hi]

/-- The mask has exactly the bits at its positions. -/
theorem getLsbD_mask (positions : List Nat) (i : Nat) :
    (mask positions).getLsbD i = decide (i ∈ positions ∧ i < 64) := by
  rw [mask, getLsbD_foldl_bit]
  simp

/-- The bits of the pixel at the given positions, moved down by the lowest. -/
def fieldAt (pixel : Pixel) (positions : List Nat) (lowest : Nat) : Pixel :=
  if lowest < 64 then (pixel &&& mask positions) >>> lowest else 0#64

/-- The field value of the first state that is the expected one. States are
listed under `values` by the text of the field value. -/
def target? (definition expected : Tree) : Option Nat := do
  let states ← (definition.get? "values").bind Tree.mapping?
  let (value, _) ← List.find? (fun entry => Tree.same entry.2 expected) states
  Text.word64? value.toList

/-- Whether the flag is in the expected state (`flag_matches`). -/
def matches? (definitions : FlagsDefinition) (pixel : Pixel) (name : String) (expected : Tree) :
    Except ConfigError Bool :=
  match Table.find? definitions name with
  | none => .error (.invalid (.unknownFlag name))
  | some definition =>
    match (positions definition).min? with
    | none => .error (.invalid (.flagWithoutBits name))
    | some lowest =>
      match target? definition expected with
      | none => .error (.invalid (.noMatchingValue name expected))
      | some target => .ok (decide ((fieldAt pixel (positions definition) lowest).toNat = target))

end Flag

namespace MaskRule

/-- Every flag is looked at, so an error does not depend on the pixel. -/
def selects (condition : MaskCondition) (band : String) (pixel : Pixel)
    (definitions : Option FlagsDefinition) : Except ConfigError Bool :=
  match condition with
  | .values values => .ok (values.any fun value => decide (value = pixel.toNat))
  | .flags expected any =>
    match definitions with
    | none => .error (.invalid (.bandWithoutFlags band))
    | some definitions => do
      let states ← expected.mapM fun (name, state) => Flag.matches? definitions pixel name state
      return if any then states.any id else states.all id

/-- Whether the rule selects the pixel, after inverting. -/
def matchesPixel (r : MaskRule) (pixel : Pixel) (definitions : Option FlagsDefinition) :
    Except ConfigError Bool := do
  return (← selects r.condition r.band pixel definitions) != r.invert

end MaskRule

end MapConfig
