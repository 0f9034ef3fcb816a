import MapConfig.Proofs.MaskRule
import MapConfig.Proofs.MaskRule.FlagSection

/-! Whether a mask rule can be evaluated. Every flag of a rule is looked at, whatever the
flags before it have said, so a rule that fails on one pixel fails on all of them, and
with the same error. Inverting a rule changes its answers and nothing else. -/
namespace MapConfig

/-! ## Failures that do not depend on the input

`FailsAlike` is closed under the ways in which steps are put together, so it follows the
text of a definition. The only thing that it rules out is a failure that depends on an
intermediate result. -/

section
variable {ε ι κ α β : Type}

/-- Fails on every input, with one error, or on none. -/
def FailsAlike (f : ι → Except ε α) : Prop :=
  (∃ error, ∀ i, f i = .error error) ∨ ∀ i, ∃ a, f i = .ok a

theorem FailsAlike.pure (g : ι → α) : FailsAlike fun i => (pure (g i) : Except ε α) :=
  .inr fun i => ⟨g i, rfl⟩

theorem FailsAlike.error (error : ε) : FailsAlike fun _ : ι => (.error error : Except ε α) :=
  .inl ⟨error, fun _ => rfl⟩

theorem FailsAlike.comp {f : ι → Except ε α} (h : FailsAlike f) (k : κ → ι) :
    FailsAlike fun i => f (k i) := by
  rcases h with ⟨error, fails⟩ | succeeds
  · exact .inl ⟨error, fun i => fails (k i)⟩
  · exact .inr fun i => succeeds (k i)

/-- The second step may use the result of the first one, but not to decide on a failure. -/
theorem FailsAlike.bind {f : ι → Except ε α} {g : ι → α → Except ε β} (hf : FailsAlike f)
    (hg : FailsAlike fun input : ι × α => g input.1 input.2) :
    FailsAlike fun i => f i >>= g i := by
  rcases hf with ⟨error, fails⟩ | succeeds
  · exact .inl ⟨error, fun i => bind_error_iff.mpr (.inl (fails i))⟩
  · rcases hg with ⟨error, fails⟩ | succeeds'
    · refine .inl ⟨error, fun i => ?_⟩
      obtain ⟨a, ha⟩ := succeeds i
      exact bind_error_iff.mpr (.inr ⟨a, ha, fails (i, a)⟩)
    · refine .inr fun i => ?_
      obtain ⟨a, ha⟩ := succeeds i
      obtain ⟨b, hb⟩ := succeeds' (i, a)
      exact ⟨b, bind_ok_iff.mpr ⟨a, ha, hb⟩⟩

theorem FailsAlike.mapM {f : ι → κ → Except ε α} {as : List κ}
    (h : ∀ a ∈ as, FailsAlike fun i => f i a) : FailsAlike fun i => as.mapM (f i) := by
  induction as with
  | nil => exact .pure fun _ => []
  | cons a as ih =>
    simp only [List.mapM_cons]
    have rest := ih fun a' hm => h a' (List.mem_cons_of_mem a hm)
    refine (h a List.mem_cons_self).bind ((rest.comp Prod.fst).bind ?_)
    exact .pure fun input : (ι × α) × List α => input.1.2 :: input.2

end

/-! ## Rules

A flag fails before the pixel comes into play, and values never fail. All flags are
asked even when the answer is already known, which is what makes the failure of a rule
one of its flags alone. -/

/-- The pixel is looked at only when the flag has been understood. -/
theorem Flag.failsAlike_matches? (definitions : FlagsDefinition) (name : String)
    (expected : Tree) :
    FailsAlike fun pixel => Flag.matches? definitions pixel name expected := by
  unfold Flag.matches?
  cases Table.find? definitions name with
  | none => exact .error _
  | some definition =>
    dsimp only
    cases (positions definition).min? with
    | none => exact .error _
    | some lowest =>
      dsimp only
      cases target? definition expected with
      | none => exact .error _
      | some target => exact .pure _

namespace MaskRule
variable {r r' : MaskRule} {band subject : String} {cfg cfg' : Mapping}
  {mapper : Option BandMapper}

theorem failsAlike_selects (condition : MaskCondition) (band : String)
    (definitions : Option FlagsDefinition) :
    FailsAlike fun pixel => selects condition band pixel definitions := by
  cases condition with
  | values values => exact .pure _
  | flags expected any =>
    cases definitions with
    | none => exact .error _
    | some definitions =>
      have states : FailsAlike fun pixel =>
          expected.mapM fun flag => Flag.matches? definitions pixel flag.1 flag.2 :=
        FailsAlike.mapM fun flag _ => Flag.failsAlike_matches? definitions flag.1 flag.2
      exact states.bind (.pure _)

theorem failsAlike_matchesPixel (r : MaskRule) (definitions : Option FlagsDefinition) :
    FailsAlike fun pixel => r.matchesPixel pixel definitions :=
  (failsAlike_selects r.condition r.band definitions).bind (.pure _)

/-! ## The inverted rule

Inverting stands outside of everything that can fail. -/

/-- Only `invert` is given differently, and so that one of two rules is inverted. -/
structure Opposed (cfg cfg' : Mapping) : Prop where
  same : ∀ key, key ≠ "invert" → Table.find? cfg' key = Table.find? cfg key
  opposite : Mapping.flag cfg' "invert" false = !Mapping.flag cfg "invert" false

theorem opposed_insert (cfg : Mapping) :
    Opposed cfg (Table.insert cfg "invert" (.bool !Mapping.flag cfg "invert" false)) where
  same _ other := Table.find?_insert_ne _ _ (Ne.symm other)
  opposite := by
    rw [Mapping.flag, Table.find?_insert_self]
    rfl

theorem Opposed.conditionOf_eq (h : Opposed cfg cfg') :
    conditionOf cfg' subject = conditionOf cfg subject := by
  simp only [conditionOf, flagsOf, valuesOf, h.same "flags" (by decide),
    h.same "values" (by decide)]

/-- The rule that is read instead has the same band and condition and is inverted. -/
theorem exists_parse_of_opposed (h : parse band (.mapping cfg) subject mapper = .ok r)
    (opposed : Opposed cfg cfg') : ∃ r', parse band (.mapping cfg') subject mapper = .ok r' ∧
      r'.band = r.band ∧ r'.condition = r.condition ∧ r'.invert = !r.invert := by
  obtain ⟨entries, isMapping, h⟩ := bind_ok_iff.mp h
  cases isMapping
  cases mapper
  all_goals
    obtain ⟨name, named, h⟩ := bind_ok_iff.mp h
    obtain ⟨condition, given, h⟩ := bind_ok_iff.mp h
    cases h
    rw [← opposed.conditionOf_eq] at given
    refine ⟨_, bind_ok_iff.mpr ⟨cfg', rfl, bind_ok_iff.mpr ⟨name, named,
      bind_ok_iff.mpr ⟨condition, given, rfl⟩⟩⟩, rfl, rfl, opposed.opposite⟩

theorem matchesPixel_of_inverted (hband : r'.band = r.band)
    (hcondition : r'.condition = r.condition) (hinvert : r'.invert = !r.invert)
    (pixel : Pixel) (definitions : Option FlagsDefinition) :
    r'.matchesPixel pixel definitions =
      (fun answer => !answer) <$> r.matchesPixel pixel definitions := by
  unfold matchesPixel
  rw [hband, hcondition, hinvert]
  cases selects r.condition r.band pixel definitions with
  | error => rfl
  | ok selected => cases selected <;> cases r.invert <;> rfl

/-- A rule fails on every pixel, with one error, or on none. The rule of the opposite
`invert` fails where the rule does, and elsewhere gives the opposite answer. -/
theorem evaluable_on_all_pixels_or_none (r : MaskRule) (definitions : Option FlagsDefinition) :
    ((∃ error, ∀ pixel, r.matchesPixel pixel definitions = .error error) ∨
        ∀ pixel, ∃ answer, r.matchesPixel pixel definitions = .ok answer) ∧
      ∀ band cfg cfg' subject mapper, parse band (.mapping cfg) subject mapper = .ok r →
        Opposed cfg cfg' → ∃ r', parse band (.mapping cfg') subject mapper = .ok r' ∧
          ∀ pixel, r'.matchesPixel pixel definitions =
            (fun answer => !answer) <$> r.matchesPixel pixel definitions := by
  refine ⟨failsAlike_matchesPixel r definitions, ?_⟩
  intro band cfg cfg' subject mapper parsed opposed
  obtain ⟨r', parsed', hband, hcondition, hinvert⟩ := exists_parse_of_opposed parsed opposed
  exact ⟨r', parsed', fun pixel =>
    matchesPixel_of_inverted hband hcondition hinvert pixel definitions⟩

/-- Clouds or water, of which the first alone would select a pixel. -/
def cloudOrWater : Mapping := [
  ("flags", .mapping [("or", .mapping [("cloud", .text "cloudy"), ("water", .bool true)])])]

def waterFlag : Tree := .mapping [
  ("bits", .number (.whole 2)),
  ("values", .mapping [("0", .bool false), ("1", .bool true)])]

/-- Without a definition of water the rule fails on clouds as well. With one, the
inverted rule does not select them. -/
theorem evaluable_on_all_pixels_or_none_cloudy : ∃ r r',
    parse "fmask" (.mapping cloudOrWater) "style s" none = .ok r ∧
      parse "fmask" (.mapping (Table.insert cloudOrWater "invert" (.bool true))) "style s" none =
        .ok r' ∧
      (∀ pixel, r.matchesPixel pixel (some [("cloud", cloudFlag)]) =
        .error (.invalid (.unknownFlag "water"))) ∧
      r'.matchesPixel 0b1010#64 (some [("cloud", cloudFlag), ("water", waterFlag)]) =
        .ok false := by
  obtain ⟨r, parsed, condition⟩ : ∃ r, parse "fmask" (.mapping cloudOrWater) "style s" none =
      .ok r ∧ r = ⟨Lifecycle.start (.mapping cloudOrWater) [], "fmask",
        .flags [("cloud", .text "cloudy"), ("water", .bool true)] true, false⟩ := ⟨_, rfl, rfl⟩
  obtain ⟨alike, _⟩ := evaluable_on_all_pixels_or_none r (some [("cloud", cloudFlag)])
  obtain ⟨_, opposed⟩ := evaluable_on_all_pixels_or_none r
    (some [("cloud", cloudFlag), ("water", waterFlag)])
  obtain ⟨r', parsed', opposite⟩ := opposed _ _ _ _ _ parsed (opposed_insert cloudOrWater)
  subst condition
  refine ⟨_, r', parsed, parsed', ?_, ?_⟩
  · rcases alike with ⟨error, fails⟩ | succeeds
    · intro pixel
      rw [fails pixel, ← fails 0b1010#64]
      rfl
    · obtain ⟨answer, h⟩ := succeeds 0b1010#64
      cases h
  · rw [opposite]
    rfl

end MaskRule

end MapConfig
