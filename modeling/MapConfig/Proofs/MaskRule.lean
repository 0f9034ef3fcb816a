import MapConfig.MaskRule
import MapConfig.Proofs.Decimal.RoundTrip
import MapConfig.Proofs.Results

/-! Which pixels the flags of a mask rule select. A flag is satisfied where the states
of its definition label the field of the pixel, as a decimal, with the expected value.
A rule goes the other way: it looks for the label and compares its number with the
field. Both agree on flags where the label has one number, written as a plain decimal. -/
namespace MapConfig

/-- The decimal of a number reads as no other. -/
theorem word64?_toString {n m : Nat} (h : Text.word64? (toString n).toList = some m) : m = n := by
  have isDigit : ∀ c ∈ (toString n).toList, c.isDigit := fun c hm => isDigit_of_mem_toString hm
  have unsigned : ∀ sign, sign.isDigit = false → ∀ rest, (toString n).toList = sign :: rest →
      False := by
    intro sign hsign rest same
    have digit := isDigit sign (same ▸ List.mem_cons_self)
    simp [hsign] at digit
  have tested := digits_tested (EndsInDigit.of_nat n).ne_nil isDigit
  rw [Text.word64?, Text.boundedInt?] at h
  · simp only [tested, Bool.false_eq_true, if_false, digitsValue_toString] at h
    split at h
    · exact (Option.some.inj h).symm
    · cases h
  · exact unsigned '-' rfl
  · exact unsigned '+' rfl

namespace Flag

/-! ## What a definition says

The specification takes positions as they are written and looks for the field among the
labels; `Clear` is where the program, which narrows the positions and looks for the
first label, cannot tell the difference. -/

/-- The bit positions that a definition lists, whatever their size. -/
def listed (definition : Tree) : List Nat :=
  match definition.get? "bits" with
  | some (.list items) => items.filterMap Tree.word64?
  | some other => other.word64?.toList
  | none => []

/-- The bits of the pixel at the listed positions, moved down by the lowest of them. -/
def IsField (listed : List Nat) (pixel : Pixel) (n : Nat) : Prop :=
  ∃ lowest, listed.min? = some lowest ∧
    ∀ i, n.testBit i = (decide (lowest + i ∈ listed) && pixel.getLsbD (lowest + i))

/-- The states of a definition map the text to the value. Keys are not repeated, so what
a key is mapped to is what stands in its entry. -/
def Labels (definition expected : Tree) (text : String) : Prop :=
  ∃ states, (definition.get? "values").bind Tree.mapping? = some states ∧
    ∃ label, (text, label) ∈ states ∧ label.same expected

/-- The field of the pixel is labelled as expected. -/
def Satisfied (definitions : FlagsDefinition) (pixel : Pixel) (name : String) (expected : Tree) :
    Prop :=
  ∃ definition n, Table.find? definitions name = some definition ∧
    IsField (listed definition) pixel n ∧ Labels definition expected (toString n)

/-- The number is the field of some pixel. -/
def Reaches (listed : List Nat) (n : Nat) : Prop := ∃ pixel, IsField listed pixel n

/-- The number is looked for, and the positions as they are taken can form it. -/
def Sought (definition expected : Tree) (n : Nat) : Prop :=
  target? definition expected = some n ∧ Reaches (positions definition) n

/-- Among the fields that pixels have, the one that is looked for is the one with the
label; and if there is one, no position is taken for another one within the pixel. -/
structure Clear (definition expected : Tree) : Prop where
  single : ∀ n, Reaches (listed definition) n →
    (Labels definition expected (toString n) ↔ Sought definition expected n)
  none_wraps : ∀ n, Sought definition expected n → ∀ position ∈ listed definition,
    position % Nat.pow 2 32 < 64 → position % Nat.pow 2 32 ∈ listed definition

variable {definition expected : Tree} {definitions : FlagsDefinition} {pixel : Pixel}
  {name : String}

/-! ## The field

A number is the field of a pixel if its bits are those of the pixel at the listed
positions, moved down by the least. This determines the number, and positions beyond the
pixel add nothing to it. -/

theorem IsField.unique {listed : List Nat} {n m : Nat} (h : IsField listed pixel n)
    (h' : IsField listed pixel m) : n = m := by
  obtain ⟨lowest, least, bits⟩ := h
  obtain ⟨_, least', bits'⟩ := h'
  cases least.symm.trans least'
  exact Nat.eq_of_testBit_eq fun i => (bits i).trans (bits' i).symm

theorem positions_eq (definition : Tree) :
    positions definition = (listed definition).map (· % Nat.pow 2 32) := by
  unfold positions listed
  cases definition.get? "bits" with
  | none => rfl
  | some given =>
    cases given with
    | list items => exact List.map_filterMap.symm
    | number n =>
      show (n.word64?.map (· % Nat.pow 2 32)).toList = n.word64?.toList.map (· % Nat.pow 2 32)
      cases n.word64? <;> rfl
    | _ => rfl

theorem isField_fieldAt {positions : List Nat} {lowest : Nat}
    (least : positions.min? = some lowest) :
    IsField positions pixel (fieldAt pixel positions lowest).toNat := by
  refine ⟨lowest, least, fun i => ?_⟩
  have outside : 64 ≤ lowest + i → pixel.getLsbD (lowest + i) = false :=
    BitVec.getLsbD_of_ge pixel (lowest + i)
  rw [BitVec.testBit_toNat, fieldAt]
  split
  · next low =>
    rw [BitVec.getLsbD_ushiftRight, BitVec.getLsbD_and, getLsbD_mask, Bool.and_comm]
    by_cases inside : lowest + i < 64
    · simp [inside]
    · rw [outside (by omega), Bool.and_false, Bool.and_false]
  · next high => rw [outside (by omega), Bool.and_false, BitVec.getLsbD_zero]

theorem exists_isField {listed : List Nat} (some_bit : listed ≠ []) (pixel : Pixel) :
    ∃ n, IsField listed pixel n := by
  obtain ⟨lowest, least⟩ := Option.isSome_iff_exists.mp (List.isSome_min?_iff.mpr some_bit)
  exact ⟨_, isField_fieldAt least⟩

/-- The field depends only on the positions within the pixel. -/
theorem IsField.congr {listed others : List Nat} {n : Nat} (h : IsField listed pixel n)
    (some_bit : others ≠ []) (same : ∀ i < 64, i ∈ others ↔ i ∈ listed) :
    IsField others pixel n := by
  obtain ⟨lowest, least, bits⟩ := h
  obtain ⟨lowest', least'⟩ := Option.isSome_iff_exists.mp (List.isSome_min?_iff.mpr some_bit)
  refine ⟨lowest', least', fun i => ?_⟩
  obtain ⟨hm, below⟩ := List.min?_eq_some_iff.mp least
  obtain ⟨hm', below'⟩ := List.min?_eq_some_iff.mp least'
  rw [bits]
  by_cases inside : lowest < 64
  · have hle := below' lowest ((same lowest inside).mpr hm)
    have hge := below lowest' ((same lowest' (by omega)).mp hm')
    obtain rfl : lowest' = lowest := by omega
    by_cases bit : lowest' + i < 64
    · rw [decide_eq_decide.mpr (same _ bit)]
    -- Beyond the pixel both fields have no bit, listed or not.
    · rw [BitVec.getLsbD_of_ge pixel _ (by omega), Bool.and_false, Bool.and_false]
  · -- No position is within the pixel, so neither field has a bit.
    have beyond : 64 ≤ lowest' := by
      by_contra inside'
      have := below lowest' ((same lowest' (by omega)).mp hm')
      omega
    rw [BitVec.getLsbD_of_ge pixel _ (by omega), BitVec.getLsbD_of_ge pixel _ (by omega),
      Bool.and_false, Bool.and_false]

theorem mem_positions {i : Nat} : i ∈ positions definition ↔
    ∃ position ∈ listed definition, position % Nat.pow 2 32 = i := by
  rw [positions_eq, List.mem_map]

theorem positions_eq_nil_iff : positions definition = [] ↔ listed definition = [] := by
  rw [positions_eq, List.map_eq_nil_iff]

/-- Positions that are not taken for others give the same field. -/
theorem isField_positions_iff {n : Nat} (some_bit : listed definition ≠ [])
    (none_wraps : ∀ position ∈ listed definition, position % Nat.pow 2 32 < 64 →
      position % Nat.pow 2 32 ∈ listed definition) :
    IsField (positions definition) pixel n ↔ IsField (listed definition) pixel n := by
  have same : ∀ i < 64, i ∈ positions definition ↔ i ∈ listed definition := by
    intro i inside
    rw [mem_positions]
    constructor
    · rintro ⟨position, hm, rfl⟩
      exact none_wraps position hm inside
    · intro hm
      exact ⟨i, hm, Nat.mod_eq_of_lt (Nat.lt_trans inside (by decide))⟩
  exact ⟨fun h => h.congr some_bit fun i inside => (same i inside).symm,
    fun h => h.congr (positions_eq_nil_iff.not.mpr some_bit) same⟩

/-! ## The answer for one flag

What is compared is the field at the narrowed positions with the first number that has
the label. On a clear flag this is the same as asking for the label of the field. -/

theorem isField_fieldAt_iff {positions : List Nat} {lowest n : Nat}
    (least : positions.min? = some lowest) :
    (fieldAt pixel positions lowest).toNat = n ↔ IsField positions pixel n :=
  ⟨fun same => same ▸ isField_fieldAt least, fun h => (isField_fieldAt least).unique h⟩

/-- An answer compares the field, at the positions as they are taken, with the number
that is looked for. -/
theorem matches?_ok_iff {answer : Bool} : matches? definitions pixel name expected = .ok answer ↔
    ∃ definition target, Table.find? definitions name = some definition ∧
      listed definition ≠ [] ∧ target? definition expected = some target ∧
      (answer ↔ IsField (positions definition) pixel target) := by
  unfold matches?
  cases Table.find? definitions name with
  | none => simp
  | some definition =>
    have bits : listed definition ≠ [] ↔ (positions definition).min? ≠ none := by
      rw [ne_eq, ne_eq, List.min?_eq_none_iff, positions_eq_nil_iff]
    simp only [Option.some.injEq, exists_and_left, exists_eq_left', bits]
    cases least : (positions definition).min? with
    | none => simp
    | some lowest =>
      cases target? definition expected with
      | none => simp
      | some target =>
        simp only [← isField_fieldAt_iff least]
        cases answer <;> simp

theorem satisfied_iff (found : Table.find? definitions name = some definition) {n : Nat}
    (field : IsField (listed definition) pixel n) :
    Satisfied definitions pixel name expected ↔ Labels definition expected (toString n) := by
  constructor
  · rintro ⟨_, m, found', field', labels⟩
    cases found.symm.trans found'
    rwa [field.unique field']
  · intro labels
    exact ⟨definition, n, found, field, labels⟩

/-- On a clear flag the answer says whether the flag is satisfied. -/
theorem matches?_iff_satisfied {answer : Bool}
    (clear : ∀ definition, Table.find? definitions name = some definition →
      Clear definition expected)
    (h : matches? definitions pixel name expected = .ok answer) :
    answer ↔ Satisfied definitions pixel name expected := by
  obtain ⟨definition, target, found, some_bit, labelled, answers⟩ := matches?_ok_iff.mp h
  obtain ⟨n, field⟩ := exists_isField some_bit pixel
  have clear := clear definition found
  rw [answers, satisfied_iff found field, clear.single n ⟨pixel, field⟩]
  constructor
  · intro reached
    have sought : Sought definition expected target := ⟨labelled, pixel, reached⟩
    have same := (isField_positions_iff some_bit (clear.none_wraps target sought)).mp reached
    rwa [field.unique same]
  · intro sought
    cases labelled.symm.trans sought.1
    exact (isField_positions_iff some_bit (clear.none_wraps target sought)).mpr field

/-! ### No other flags will do

The condition is not only sufficient. If a position is taken for another one within the
pixel, changing that bit changes the answer and not the field; and a field with the
label that is not the one looked for is answered wrongly. -/

/-- A pixel with one bit changed has the same field, unless the bit is listed. -/
theorem IsField.flip_iff {listed : List Nat} {n i : Nat} (inside : i < 64)
    (h : IsField listed pixel n) : IsField listed (pixel ^^^ bit i) n ↔ i ∉ listed := by
  obtain ⟨lowest, least, bits⟩ := h
  have flipped : ∀ k, (pixel ^^^ bit i).getLsbD k = (pixel.getLsbD k ^^ decide (k = i)) := by
    intro k
    rw [BitVec.getLsbD_xor, getLsbD_bit]
    congr 1
    exact decide_eq_decide.mpr ⟨fun h => h.1, fun h => ⟨h, h ▸ inside⟩⟩
  constructor
  · rintro ⟨_, least', bits'⟩ hm
    cases least.symm.trans least'
    obtain ⟨k, rfl⟩ := Nat.exists_eq_add_of_le ((List.min?_eq_some_iff.mp least).2 i hm)
    have same := (bits k).symm.trans (bits' k)
    simp [hm, flipped] at same
  · intro unlisted
    refine ⟨lowest, least, fun k => ?_⟩
    rw [bits, flipped]
    by_cases hm : lowest + k ∈ listed
    · have other : lowest + k ≠ i := fun same => unlisted (same ▸ hm)
      simp [other]
    · simp [hm]

/-- The answers for all pixels say whether the flag is satisfied. -/
def Agrees (definitions : FlagsDefinition) (name : String) (expected : Tree) : Prop :=
  ∀ pixel answer, matches? definitions pixel name expected = .ok answer →
    (answer ↔ Satisfied definitions pixel name expected)

/-- Such answers compare the field as it is taken with the number that is looked for, and
the comparison tells whether the field has the label. -/
theorem Agrees.isField_iff {target n : Nat} (agrees : Agrees definitions name expected)
    (found : Table.find? definitions name = some definition) (some_bit : listed definition ≠ [])
    (labelled : target? definition expected = some target)
    (field : IsField (listed definition) pixel n) :
    IsField (positions definition) pixel target ↔ Labels definition expected (toString n) := by
  obtain ⟨answer, answers⟩ : ∃ answer : Bool,
      answer ↔ IsField (positions definition) pixel target := by
    classical
    exact ⟨decide (IsField (positions definition) pixel target), decide_eq_true_iff⟩
  have h := matches?_ok_iff.mpr ⟨definition, target, found, some_bit, labelled, answers⟩
  rw [← satisfied_iff found field, ← answers, agrees pixel answer h]

/-- If a position were taken for one that is not listed, the bit there would be no part of
the field, but the answer would depend on it. -/
theorem Agrees.none_wraps {n : Nat} (agrees : Agrees definitions name expected)
    (found : Table.find? definitions name = some definition) (some_bit : listed definition ≠ [])
    (sought : Sought definition expected n) : ∀ position ∈ listed definition,
      position % Nat.pow 2 32 < 64 → position % Nat.pow 2 32 ∈ listed definition := by
  intro position hm inside
  obtain ⟨labelled, pixel, reached⟩ := sought
  by_contra unlisted
  obtain ⟨m, field⟩ := exists_isField some_bit pixel
  have label := (agrees.isField_iff found some_bit labelled field).mp reached
  have still := (agrees.isField_iff found some_bit labelled
    ((field.flip_iff inside).mpr unlisted)).mpr label
  exact (reached.flip_iff inside).mp still (mem_positions.mpr ⟨position, hm, rfl⟩)

/-- Where a flag has bits and a number for its label, the answers for all pixels are
right exactly if it is clear. -/
theorem agrees_iff_clear (found : Table.find? definitions name = some definition)
    (some_bit : listed definition ≠ []) (known : (target? definition expected).isSome) :
    Agrees definitions name expected ↔ Clear definition expected := by
  constructor
  · intro agrees
    obtain ⟨target, labelled⟩ := Option.isSome_iff_exists.mp known
    refine ⟨?_, fun _ sought => agrees.none_wraps found some_bit sought⟩
    rintro n ⟨pixel, field⟩
    rw [← agrees.isField_iff found some_bit labelled field]
    constructor
    · intro reached
      -- A right answer for this pixel shows first that no position wraps into its field.
      have sought : Sought definition expected target := ⟨labelled, pixel, reached⟩
      have none_wraps := agrees.none_wraps found some_bit sought
      have same := (isField_positions_iff some_bit none_wraps).mp reached
      rwa [field.unique same]
    · intro sought
      cases labelled.symm.trans sought.1
      have none_wraps := agrees.none_wraps found some_bit sought
      exact (isField_positions_iff some_bit none_wraps).mpr field
  · intro clear pixel answer h
    refine matches?_iff_satisfied (fun _ found' => ?_) h
    cases found.symm.trans found'
    exact clear

/-- A flag is clear if its positions are in range and all texts with the label read as
one number, whose decimal is one of them. -/
theorem clear_of_plain {n : Nat}
    (small : ∀ position ∈ listed definition, position < Nat.pow 2 32)
    (plain : Labels definition expected (toString n))
    (only : ∀ text, Labels definition expected text → Text.word64? text.toList = some n) :
    Clear definition expected := by
  have labelled : target? definition expected = some n := by
    obtain ⟨states, hstates, label, hm, same⟩ := plain
    have any : (List.find? (fun entry => Tree.same entry.2 expected) states).isSome :=
      List.find?_isSome.mpr ⟨_, hm, same⟩
    obtain ⟨⟨text, first⟩, hfirst⟩ := Option.isSome_iff_exists.mp any
    have read := only text ⟨states, hstates, first, List.mem_of_find?_eq_some hfirst,
      by simpa using List.find?_some hfirst⟩
    exact Option.bind_eq_some_iff.mpr
      ⟨states, hstates, Option.bind_eq_some_iff.mpr ⟨_, hfirst, read⟩⟩
  have none_wraps : ∀ position ∈ listed definition, position % Nat.pow 2 32 < 64 →
      position % Nat.pow 2 32 ∈ listed definition := by
    intro position hm _
    rwa [Nat.mod_eq_of_lt (small position hm)]
  refine ⟨?_, fun _ _ => none_wraps⟩
  rintro m ⟨pixel, field⟩
  constructor
  · intro labels
    obtain rfl := word64?_toString (only _ labels)
    have some_bit : listed definition ≠ [] := by
      rintro none
      obtain ⟨_, least, _⟩ := field
      rw [none] at least
      cases least
    exact ⟨labelled, pixel, (isField_positions_iff some_bit none_wraps).mpr field⟩
  · rintro ⟨labelled', -⟩
    cases labelled.symm.trans labelled'
    exact plain

end Flag

/-! ## Rules

The flags of a rule are answered one by one, and joined by `all` or by `any`. -/

section
variable {α : Type*} {p : α → Prop} {as : List α} {answers : List Bool}

theorem all_iff_of_forall₂ (h : List.Forall₂ (fun a answer => answer = true ↔ p a) as answers) :
    answers.all id ↔ ∀ a ∈ as, p a := by
  induction h with
  | nil => simp
  | cons first _ ih => simp [← first, ih]

theorem any_iff_of_forall₂ (h : List.Forall₂ (fun a answer => answer = true ↔ p a) as answers) :
    answers.any id ↔ ∃ a ∈ as, p a := by
  induction h with
  | nil => simp
  | cons first _ ih => simp [← first, ih]

end

namespace MaskRule
variable {r : MaskRule} {expected : Mapping} {any : Bool} {definitions : FlagsDefinition}
  {pixel : Pixel}

/-- The flags of a rule are as expected: all of them, or any of them in an `or` group. -/
def FlagsSatisfied (expected : Mapping) (any : Bool) (definitions : FlagsDefinition)
    (pixel : Pixel) : Prop :=
  if any then ∃ flag ∈ expected, Flag.Satisfied definitions pixel flag.1 flag.2
  else ∀ flag ∈ expected, Flag.Satisfied definitions pixel flag.1 flag.2

theorem selects_flags_iff {band : String} {answer : Bool}
    (clear : ∀ flag ∈ expected, ∀ definition, Table.find? definitions flag.1 = some definition →
      Flag.Clear definition flag.2)
    (h : selects (.flags expected any) band pixel (some definitions) = .ok answer) :
    answer ↔ FlagsSatisfied expected any definitions pixel := by
  obtain ⟨answers, matched, h⟩ := bind_ok_iff.mp h
  cases h
  obtain ⟨same, each⟩ := forall₂_iff_forall_zip.mp (mapM_ok_iff.mp matched)
  have agree : List.Forall₂ (fun flag answer => answer = true ↔
      Flag.Satisfied definitions pixel flag.1 flag.2) expected answers :=
    forall₂_iff_forall_zip.mpr ⟨same, fun pair hm =>
      Flag.matches?_iff_satisfied (clear pair.1 (List.of_mem_zip hm).1) (each pair hm)⟩
  cases any with
  | true => exact any_iff_of_forall₂ agree
  | false => exact all_iff_of_forall₂ agree

/-- What a rule on clear flags answers differs from its inversion exactly where the flags
are satisfied. -/
theorem matchesPixel_iff_satisfied {answer : Bool} (flags : r.condition = .flags expected any)
    (clear : ∀ flag ∈ expected, ∀ definition, Table.find? definitions flag.1 = some definition →
      Flag.Clear definition flag.2)
    (h : r.matchesPixel pixel (some definitions) = .ok answer) :
    answer ≠ r.invert ↔ FlagsSatisfied expected any definitions pixel := by
  obtain ⟨selected, hselected, h⟩ := bind_ok_iff.mp h
  cases h
  rw [flags] at hselected
  rw [← selects_flags_iff clear hselected]
  cases selected <;> cases r.invert <;> decide

/-! ### Flags with labels

A flag whose bits have a gap between them, and one whose label stands for two numbers. -/

/-- A flag of two bits with a gap between them. -/
def cloudFlag : Tree := .mapping [
  ("bits", .list [.number (.whole 1), .number (.whole 3)]),
  ("values", .mapping [("0", .text "clear"), ("5", .text "cloudy")])]

/-- All pixels but those of clouds. -/
def clearSky : MaskRule where
  life := Lifecycle.start .null []
  band := "fmask"
  condition := .flags [("cloud", .text "cloudy")] false
  invert := true

theorem clear_cloudFlag : Flag.Clear cloudFlag (.text "cloudy") := by
  have decimal : toString 5 = "5" := rfl
  have plain : Flag.Labels cloudFlag (.text "cloudy") (toString 5) :=
    ⟨_, rfl, .text "cloudy", by simp [decimal], rfl⟩
  refine Flag.clear_of_plain (by decide) plain ?_
  rintro text ⟨_, hstates, label, hm, same⟩
  cases hstates
  rcases List.mem_cons.mp hm with h | hm
  · cases h
    cases same
  · cases List.mem_singleton.mp hm
    rfl

/-- The bits with the gap are a field with a gap. -/
theorem matchesPixel_iff_satisfied_cloudy :
    clearSky.matchesPixel 0b1110#64 (some [("cloud", cloudFlag)]) = .ok false ∧
      FlagsSatisfied [("cloud", .text "cloudy")] false [("cloud", cloudFlag)] 0b1110#64 := by
  have answer : clearSky.matchesPixel 0b1110#64 (some [("cloud", cloudFlag)]) = .ok false := by
    rfl
  have clear : ∀ flag ∈ [("cloud", Tree.text "cloudy")], ∀ definition,
      Table.find? [("cloud", cloudFlag)] flag.1 = some definition →
        Flag.Clear definition flag.2 := by
    intro flag hm definition found
    cases List.mem_singleton.mp hm
    cases found
    exact clear_cloudFlag
  exact ⟨answer, (matchesPixel_iff_satisfied rfl clear answer).mp (by decide)⟩

/-- A flag with two states of one label. -/
def qualityFlag : Tree := .mapping [
  ("bits", .list [.number (.whole 0), .number (.whole 1)]),
  ("values", .mapping [("1", .text "low"), ("2", .text "low")])]

def lowQuality : MaskRule where
  life := Lifecycle.start .null []
  band := "fmask"
  condition := .flags [("quality", .text "low")] false
  invert := false

/-- The second state is not found by its label. -/
theorem not_every_answer_satisfied : ¬ ∀ (r : MaskRule) (expected : Mapping) (any : Bool)
    (definitions : FlagsDefinition) (pixel : Pixel) (answer : Bool),
    r.condition = .flags expected any → r.matchesPixel pixel (some definitions) = .ok answer →
      (answer ≠ r.invert ↔ FlagsSatisfied expected any definitions pixel) := by
  intro agree
  have answer : lowQuality.matchesPixel 2#64 (some [("quality", qualityFlag)]) = .ok false := by
    rfl
  have field : Flag.IsField (Flag.listed qualityFlag) 2#64 2 :=
    Flag.isField_fieldAt (by decide : (Flag.listed qualityFlag).min? = some 0)
  have labels : Flag.Labels qualityFlag (.text "low") "2" :=
    ⟨_, rfl, .text "low", by simp, rfl⟩
  have satisfied : FlagsSatisfied [("quality", .text "low")] false [("quality", qualityFlag)]
      2#64 := by
    intro flag hm
    cases List.mem_singleton.mp hm
    exact ⟨qualityFlag, 2, rfl, field, labels⟩
  exact (agree lowQuality _ _ _ _ _ rfl answer).mpr satisfied rfl

end MaskRule

end MapConfig
