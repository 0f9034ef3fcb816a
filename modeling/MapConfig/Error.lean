import MapConfig.Decimal
import MapConfig.Json.Writer
import MapConfig.NameSet
import MapConfig.Table.Ordered
import MapConfig.Text.Quoted

/-! Why a configuration cannot be resolved. Each cause is a constructor with
the data it is about; the wording stands in the `message` functions alone. The nine
causes of `ConfigError` are those of the program, and `overflow` is the one outcome
beside them: a calculation at which the program stops. -/
namespace MapConfig

/-- A document that cannot be located or loaded. -/
inductive DocumentError where
  | unreadable (path : String)
  | notJson (location : String)
  | unsupportedScheme (scheme : String)
  | remoteDisabled (url : String)
  | noStore (url : String)
  | fetchFailed (url reason : String)
deriving DecidableEq

/-- A reference to a document, an entry or a function that is not well formed
or leads nowhere. -/
inductive ReferenceFault where
  | includeTarget (got : Tree.Kind)
  | includeType (shown : String)
  | includeLocation (cause : DocumentError)
  | documentNotFound (path : String)
  | inherits (got : Tree.Kind)
  | functionSpec (got : Tree.Kind)
  | functionName (got : Tree.Kind)
deriving DecidableEq

/-- Two settings that exclude each other. -/
inductive Conflict where
  | bandName (name layer : String)
  | bothKeys (subject single plural : String)
  | flagsAndValues (subject : String)
  | andWithOr (subject : String)
  | countAndEvery
  | ticksAndEvery
  | countAndTicks
  | fuseFunctions (products : List String)
  | ignoreTime (products : List String)
  | nameAndLayers
deriving DecidableEq

/-- A look-up that found nothing. -/
inductive Absence where
  | entry (kind : String) (keys : OrderedTable String)
  | nativeBand (band : String)
deriving DecidableEq

/-- A setting whose value is refused. -/
inductive Fault where
  /-- The value of a whole section is of the wrong kind. -/
  | notMapping (subject : String) (got : Tree.Kind)
  /-- The value under a key is not `wanted`. -/
  | wrongKind (subject key wanted : String) (got : Tree.Kind)
  | notTexts (subject key : String)
  | notText (subject key : String)
  | badAttribution (subject : String)
  | badBandMap (subject : String)
  | badInline
  -- Entries and functions.
  | missingKeys (missing : List String) (keys : OrderedTable String)
  | duplicateEntry (kind : String) (keys : OrderedTable String)
  | declaredTooLate (name : String)
  | functionArguments (name key wanted : String) (got : Tree.Kind)
  | callableRefused
  | mappedBandsAlone (name : String)
  -- Bands and flag bands.
  | noBands (layer : String)
  | aliasesNotTexts (band layer : String)
  | aliasesNotList (band layer : String) (got : Tree.Kind)
  | unknownBand (name layer : String)
  | bandProductMissing (product layer : String)
  | bandNotMeasured (band product layer : String)
  | flagProductMissing (product layer : String)
  | flagLowResProductMissing (product layer : String)
  | noFlagProducts (band layer : String)
  | flagBandNotMeasured (band product layer : String)
  | noFlagsDefinition (band product layer : String)
  | unknownInfoFlag (flag layer : String)
  -- Mask rules, as they are read and as they are applied to a pixel.
  | valuesNotWhole (subject : String)
  | flagGroup (subject : String) (got : Tree.Kind)
  | bandWithoutFlags (band : String)
  | unknownFlag (flag : String)
  | flagWithoutBits (flag : String)
  | noMatchingValue (flag : String) (expected : Tree)
  -- Ramps and legends.
  | rampNotList (subject : String)
  | rangeNotPair (subject : String)
  | rangeNotRepresentable (subject : String) (low high : Float)
  | rampEntry (subject : String) (got : Tree.Kind)
  | alphaNotNumber (subject : String)
  | notDecimal (subject key : String) (got : Tree)
  | oldLegendFormat (subject : String)
  | decimalPlaces
  | stepNotPositive
  | tickCountNotWhole (subject : String)
  | tickCountNegative
  | tickOutsideLegend
  | ticksOutOfRange (subject : String)
  -- Styles, layers and the service.
  | rulesNotList (subject band : String)
  | lowResLength (subject : String)
  | noStyles (subject : String)
  | defaultStyle (name subject : String)
  | productMissing (qualifier product layer : String)
  | layersNotList
  /-- Reported by a host function or band mapper, in its own words. -/
  | host (words : String)

/-- What loading a configuration, or the second phase, fails with. -/
inductive ConfigError where
  | document (cause : DocumentError)
  | malformed (fault : ReferenceFault)
  | cyclicInclusion (target : String)
  | unresolvable (name : String)
  | missing (subject field : String)
  | conflicting (conflict : Conflict)
  | notReady (fields : NameSet)
  | notFound (absence : Absence)
  | invalid (fault : Fault)
  /-- No refusal: the program has stopped at a step of its arithmetic. -/
  | overflow (step : Decimal.UntestedStep)

/-- The refusal given stands for a missing value, but not for the stop of the program. -/
def ConfigError.ofFailure (refusal : ConfigError) : Decimal.Failure → ConfigError
  | .noValue => refusal
  | .overflow step => .overflow step

namespace ConfigError
variable {α : Type} {result : Except Decimal.Failure α} {refusal : ConfigError}

/-- A refusal given for missing values leaves the results as they are. -/
theorem mapError_ok_iff {a : α} : result.mapError (ofFailure refusal) = .ok a ↔ result = .ok a := by
  cases result with
  | error => exact ⟨nofun, nofun⟩
  | ok => constructor <;> (rintro ⟨⟩; rfl)

/-- It hides no overflow either. -/
theorem mapError_overflow_iff {step : Decimal.UntestedStep} (other : refusal ≠ .overflow step) :
    result.mapError (ofFailure refusal) = .error (.overflow step) ↔
      result = .error (.overflow step) := by
  rcases result with (_ | step') | a
  · exact iff_of_false (fun h => other (Except.error.inj h)) nofun
  · constructor <;> (rintro ⟨⟩; rfl)
  · exact ⟨nofun, nofun⟩

end ConfigError

/-- The reason that a system or a parser would add is left open. -/
def DocumentError.message : DocumentError → String
  | .unreadable path => s!"I/O error at {path}: ..."
  | .notJson location => s!"Failed to parse JSON document {location}: ..."
  | .unsupportedScheme scheme => s!"Unsupported URL scheme in config inheritance: {scheme}"
  | .remoteDisabled _ =>
    "Please set environment variable 'DATACUBE_OWS_CFG_ALLOW_S3=YES' to enable OWS config from AWS S3"
  | .noStore url => s!"No object store configured to fetch {url}"
  | .fetchFailed url reason => s!"Failed to fetch {url}: {reason}"

def ReferenceFault.message : ReferenceFault → String
  | .includeTarget got => "Inclusion target must be a string, got " ++ got.noun
  | .includeType shown => s!"Unsupported inclusion type: {shown}"
  | .includeLocation cause => cause.message
  | .documentNotFound path => s!"Could not find json file {path}"
  | .inherits got => "'inherits' must be a mapping, got " ++ got.noun
  | .functionSpec got => "Function must be a qualified name or a mapping, got " ++ got.noun
  | .functionName got => "'function' must be a qualified name, got " ++ got.noun

/-- The wording of a conflict. The products of flag bands are shown as a quoted list. -/
def Conflict.message : Conflict → String
  | .bandName name layer => s!"Duplicate band name/alias: {name} in layer {layer}"
  | .bothKeys subject single plural =>
    s!"{subject} has both '{single}' and '{plural}' - choose one."
  | .flagsAndValues subject =>
    s!"Mask rule in {subject} has both a 'flags' and a 'values' section - choose one."
  | .andWithOr subject => s!"ValueMap rule in {subject} combines 'and' and 'or' rules"
  | .countAndEvery => "Cannot use tick count and ticks_every in the same legend"
  | .ticksAndEvery => "Cannot use ticks and ticks_every in the same legend"
  | .countAndTicks => "Cannot use tick count and ticks in the same legend"
  | .fuseFunctions products =>
    "Fuse functions for flag bands in product set " ++ Text.quotedList products ++ " do not match"
  | .ignoreTime products =>
    "ignore_time option for flag bands in product set " ++ Text.quotedList products ++
      " do not match"
  | .nameAndLayers => "A layer entry cannot have both 'name' and 'layers'"

/-- Key values in one line, as `key=value`. -/
def keyListing (keys : OrderedTable String) : String :=
  ", ".intercalate (keys.entries.map fun entry => entry.1 ++ "=" ++ entry.2)

def Absence.message : Absence → String
  | .entry kind keys => s!"No {kind} named " ++ keyListing keys
  | .nativeBand band => s!"No native band for {band}"

/-- The wording of a refused setting; where there is one, the subject comes first. -/
def Fault.message : Fault → String
  | .notMapping subject got => s!"{subject} must be a mapping, got " ++ got.noun
  | .wrongKind subject key wanted got => s!"{subject}: '{key}' must be {wanted}, got " ++ got.noun
  | .notTexts subject key => s!"{subject}: '{key}' must be a list of strings"
  | .notText subject key => s!"{subject}: '{key}' must be a string"
  | .badAttribution subject => s!"{subject}: bad attribution: ..."
  | .badBandMap subject => s!"{subject}: bad band_map: ..."
  | .badInline => "Invalid inline configuration: ..."
  | .missingKeys missing keys =>
    "Key value " ++ ", ".intercalate missing ++ " missing from keyvals: " ++
      Text.quotedTable keys.entries
  | .duplicateEntry kind keys => s!"Duplicate {kind} entry: " ++ keyListing keys
  | .declaredTooLate name => s!"Cannot declare {name} as unready on a ready object"
  | .functionArguments name key wanted got =>
    s!"Function {name}: '{key}' must be {wanted}, got " ++ got.noun
  | .callableRefused =>
    "Directly including callable objects in configuration is no longer supported. " ++
      "Please reference callables by fully qualified name."
  | .mappedBandsAlone name => s!"Function {name} uses mapped_bands outside of a layer or style"
  | .noBands layer => s!"Layer {layer} has no bands"
  | .aliasesNotTexts band layer => s!"Aliases for band {band} in layer {layer} must be strings"
  | .aliasesNotList band layer got =>
    s!"Aliases for band {band} in layer {layer} must be a list, got " ++ got.noun
  | .unknownBand name layer => s!"Unknown band name/alias: {name} in layer {layer}"
  | .bandProductMissing product layer =>
    s!"Could not find product {product} in datacube for layer {layer}"
  | .bandNotMeasured band product layer =>
    s!"Band {band} does not exist in product {product} for layer {layer}"
  | .flagProductMissing product layer =>
    s!"Could not find flags product {product} for layer {layer} in datacube"
  | .flagLowResProductMissing product layer =>
    s!"Could not find flags low_res product {product} for layer {layer} in datacube"
  | .noFlagProducts band layer => s!"Flag band {band} of layer {layer} has no products"
  | .flagBandNotMeasured band product layer =>
    s!"Band {band} does not exist in product {product} - " ++
      s!"cannot be used as a flag band for layer {layer}."
  | .noFlagsDefinition band product layer =>
    s!"Band {band} in product {product} has no flags_definition in ODC - " ++
      s!"cannot be used as a flag band for layer {layer}."
  | .unknownInfoFlag flag layer => s!"Unknown flag {flag} in ignore_info_flags of layer {layer}"
  | .valuesNotWhole subject => s!"Mask rule in {subject}: 'values' must be integers"
  | .flagGroup subject got =>
    s!"ValueMap rule in {subject}: flag group must be a mapping, got " ++ got.noun
  | .bandWithoutFlags band => s!"Band {band} has no flags definition"
  | .unknownFlag flag => s!"Unknown flag: {flag}"
  | .flagWithoutBits flag => s!"Flag {flag} has no bits"
  | .noMatchingValue flag expected =>
    s!"Flag {flag} has no value matching " ++ Json.render expected
  | .rampNotList subject => s!"{subject}: color_ramp must be a non-empty list"
  | .rangeNotPair subject => s!"{subject}: range must be a list of two numbers"
  | .rangeNotRepresentable subject low high =>
    s!"{subject}: range " ++ Double.Layout.plain.render low ++ ".." ++
      Double.Layout.plain.render high ++ " is not representable"
  | .rampEntry subject got => s!"{subject}: color_ramp entries must be mappings, got " ++ got.noun
  | .alphaNotNumber subject => s!"{subject}: alpha must be a number"
  | .notDecimal subject key got =>
    s!"{subject}: {key} must be a decimal number, got " ++ Json.render got
  | .oldLegendFormat subject =>
    s!"{subject} uses a no-longer supported format for legend configuration. " ++
      "Please refer to the documentation and update your config"
  | .decimalPlaces => "decimal_places cannot be negative"
  | .stepNotPositive => "ticks_every must be greater than zero"
  | .tickCountNotWhole subject => s!"{subject}: tick_count must be an integer"
  | .tickCountNegative => "tick_count cannot be negative"
  | .tickOutsideLegend => "Explicit ticks must all be within legend begin/end range"
  | .ticksOutOfRange subject => s!"{subject}: ticks out of range"
  | .rulesNotList subject band => s!"{subject}: value_map rules for {band} must be a list"
  | .lowResLength subject =>
    s!"Lengths of product_names and low_res_product_names do not match in {subject}"
  | .noStyles subject => s!"{subject} has no styles"
  | .defaultStyle name subject => s!"Default style {name} is not in the 'styles' for {subject}"
  | .productMissing qualifier product layer =>
    s!"Could not find {qualifier}product {product} in datacube for layer {layer}"
  | .layersNotList => "'layers' must be a list"
  | .host words => words

/-- The wording of an error, which is all that a caller is shown. -/
def ConfigError.message : ConfigError → String
  | .document cause => cause.message
  | .malformed fault => fault.message
  | .cyclicInclusion target => s!"Cyclic inclusion: {target}"
  | .unresolvable name => s!"Could not import python object: {name}"
  | .missing subject field => s!"{subject} has no {field}"
  | .conflicting conflict => conflict.message
  | .notReady fields =>
    "The following parameters have not been initialised: " ++ NameSet.listing fields
  | .notFound absence => absence.message
  | .invalid fault => fault.message
  | .overflow step => step.message

end MapConfig
