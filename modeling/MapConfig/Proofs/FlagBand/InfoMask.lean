import MapConfig.Proofs.FlagBand
import MapConfig.Proofs.Tree

/-! The information mask of a flag band, bit by bit. Each ignored flag with a single
position clears the bit at that position, taken as an unsigned number of 32 bits. The
mask is the one asked for unless a position beyond that range is so taken for that of
another bit. -/
namespace MapConfig.FlagBand

variable {flags : FlagsDefinition} {ignored : List String} {definition : Tree} {i : Nat}

/-- An ignored flag has the position as its only one. -/
def Ignores (flags : FlagsDefinition) (ignored : List String) (position : Nat) : Prop :=
  ∃ name ∈ ignored, ∃ definition, Table.find? flags name = some definition ∧
    definition.get? "bits" = some (.number (.whole position))

/-- A position that is taken for one within the mask is ignored there too. -/
def NoneWraps (flags : FlagsDefinition) (ignored : List String) : Prop :=
  ∀ position, Ignores flags ignored position → position % Nat.pow 2 32 < 64 →
    Ignores flags ignored (position % Nat.pow 2 32)

theorem noneWraps_of_small
    (small : ∀ position, Ignores flags ignored position → position < Nat.pow 2 32) :
    NoneWraps flags ignored := by
  intro position hposition _
  rwa [Nat.mod_eq_of_lt (small position hposition)]

/-! ## One flag

The only place where a position is narrowed. -/

theorem getLsbD_singleBit_iff : (singleBit definition).getLsbD i = true ↔ i < 64 ∧
    ∃ position : Nat, definition.get? "bits" = some (.number (.whole position)) ∧
      position % Nat.pow 2 32 = i := by
  unfold singleBit Flag.position?
  generalize Nat.pow 2 32 = range
  cases definition.get? "bits" with
  | none => simp
  | some given =>
    simp only [Option.bind_some, Option.some.injEq, ← Tree.word64?_eq_some_iff]
    cases given.word64? with
    | none => simp
    | some position =>
      simp only [Option.map_some, Flag.getLsbD_bit, decide_eq_true_eq, Option.some.injEq,
        exists_eq_left']
      rw [and_comm, eq_comm]

/-! ## All ignored flags

A bit that has been cleared stays cleared, so a bit of the mask is clear exactly if one
of the flags clears it, in whatever order they come. -/

/-- The bit that the flag of the name clears, if it has a definition. -/
def ignoredBit (flags : FlagsDefinition) (name : String) : Pixel :=
  (Table.find? flags name).elim 0#64 singleBit

theorem infoMaskOf_ok {layer : String} {mask : Pixel}
    (h : infoMaskOf flags ignored layer = .ok mask) :
    mask = (ignored.map (ignoredBit flags)).foldl (fun mask bit => mask &&& ~~~ bit)
      (BitVec.allOnes 64) := by
  unfold infoMaskOf at h
  generalize BitVec.allOnes 64 = start at h ⊢
  induction ignored generalizing start with
  | nil =>
    cases h
    rfl
  | cons name rest ih =>
    rw [List.foldlM_cons] at h
    obtain ⟨next, stepped, h⟩ := bind_ok_iff.mp h
    rw [ih next h, List.map_cons, List.foldl_cons, ignoredBit]
    split at stepped
    · next definition found =>
      cases stepped
      rw [found]
      rfl
    · cases stepped

/-- Bits are only ever cleared. -/
theorem getLsbD_foldl_clear (bits : List Pixel) (start : Pixel) (inside : i < 64) :
    (bits.foldl (fun mask bit => mask &&& ~~~ bit) start).getLsbD i =
      (start.getLsbD i && !bits.any (·.getLsbD i)) := by
  induction bits generalizing start with
  | nil => simp
  | cons bit rest ih =>
    rw [List.foldl_cons, ih, BitVec.getLsbD_and, BitVec.getLsbD_not, List.any_cons, Bool.not_or,
      decide_eq_true inside, Bool.true_and, Bool.and_assoc]

theorem getLsbD_ignoredBit_iff {name : String} :
    (ignoredBit flags name).getLsbD i = true ↔ i < 64 ∧ ∃ definition, ∃ position : Nat,
      Table.find? flags name = some definition ∧
        definition.get? "bits" = some (.number (.whole position)) ∧
          position % Nat.pow 2 32 = i := by
  unfold ignoredBit
  cases Table.find? flags name with
  | none => simp
  | some definition =>
    rw [Option.elim_some, getLsbD_singleBit_iff]
    simp

/-- A bit is cleared by the flags whose position is taken for it. -/
theorem getLsbD_infoMaskOf_iff {layer : String} {mask : Pixel}
    (h : infoMaskOf flags ignored layer = .ok mask) (inside : i < 64) :
    mask.getLsbD i = false ↔
      ∃ position, Ignores flags ignored position ∧ position % Nat.pow 2 32 = i := by
  rw [infoMaskOf_ok h, getLsbD_foldl_clear _ _ inside, BitVec.getLsbD_allOnes,
    decide_eq_true inside, Bool.true_and, Bool.not_eq_false', List.any_map, List.any_eq_true]
  constructor
  · rintro ⟨name, hm, cleared⟩
    obtain ⟨-, definition, position, found, bits, same⟩ := getLsbD_ignoredBit_iff.mp cleared
    exact ⟨position, ⟨name, hm, definition, found, bits⟩, same⟩
  · rintro ⟨position, ⟨name, hm, definition, found, bits⟩, same⟩
    exact ⟨name, hm, getLsbD_ignoredBit_iff.mpr ⟨inside, definition, position, found, bits, same⟩⟩

/-! ## The mask after the second phase

The mask that is filled in was built from the flags that were filled in with it. -/

variable {f : FlagBand} {dc : Datacube}

theorem exists_find_of_makeReady (ready : (f.makeReady dc).failure? = none) :
    ∃ found, f.find dc = .ok found ∧ (f.makeReady dc).entry.flags.get = .ok found.flags ∧
      (f.makeReady dc).entry.infoMask.get = .ok found.infoMask := by
  unfold makeReady at ready ⊢
  split at ready
  · cases ready
  · next found hfind =>
    obtain ⟨life, -, entry⟩ := Lifecycle.exists_ready_of_finish ready
    refine ⟨found, hfind, ?_⟩
    dsimp only
    rw [entry]
    exact ⟨rfl, rfl⟩

/-- Once a flag band is ready, the bits cleared in its mask are those of the ignored
flags with a single position, exactly when no position is taken for another one. -/
theorem info_mask_exact_iff (ready : (f.makeReady dc).failure? = none) :
    ∃ flags mask, (f.makeReady dc).entry.flags.get = .ok flags ∧
      (f.makeReady dc).entry.infoMask.get = .ok mask ∧
      ((∀ i < 64, mask.getLsbD i = false ↔ Ignores flags f.ignoredFlags i) ↔
        NoneWraps flags f.ignoredFlags) := by
  obtain ⟨found, hfind, hflags, hmask⟩ := exists_find_of_makeReady ready
  have cleared : ∀ i < 64, found.infoMask.getLsbD i = false ↔ _ := fun i inside =>
    getLsbD_infoMaskOf_iff (find_ok_iff.mp hfind).2.2.2 inside
  refine ⟨found.flags, found.infoMask, hflags, hmask, ?_⟩
  constructor
  · intro exact position ignored inside
    exact (exact _ inside).mp ((cleared _ inside).mpr ⟨position, ignored, rfl⟩)
  · intro none_wraps i inside
    rw [cleared i inside]
    constructor
    · rintro ⟨position, ignored, rfl⟩
      exact none_wraps position ignored inside
    · intro ignored
      exact ⟨i, ignored, Nat.mod_eq_of_lt (Nat.lt_trans inside (by decide))⟩

/-! ### Bands that ignore flags

One mask is as asked for; the other one clears a bit that nobody named. -/

/-- A flag band that ignores the flags named, and looks at the product `p`. -/
def bandIgnoring (ignoredFlags : List String) : FlagBand where
  life := Lifecycle.start .null []
  layer := "l"
  band := "fmask"
  canonical := "fmask"
  products := ["p"]
  lowResProducts := []
  ownProducts := true
  fuse := none
  ignoreTime := false
  ignoredFlags
  manualMerge := false
  foundProducts := Cell.empty "pq_products"
  foundLowResProducts := Cell.empty "pq_low_res_products"
  flags := Cell.empty "flags_def"
  infoMask := Cell.empty "info_mask"

def cubeOf (flags : FlagsDefinition) : Datacube := [("p", ⟨"p", [("fmask", ⟨[], some flags⟩)]⟩)]

/-- Flags of one bit, of two, and beyond the mask. -/
def severalFlags : FlagsDefinition := [
  ("far", .mapping [("bits", .number (.whole 70))]),
  ("nodata", .mapping [("bits", .number (.whole 5))]),
  ("quality", .mapping [("bits", .list [.number (.whole 2), .number (.whole 3)])])]

/-- The flag of one bit is named twice. -/
def severalIgnored : FlagBand := bandIgnoring ["nodata", "far", "quality", "nodata"]

theorem ignores_severalFlags {position : Nat} :
    Ignores severalFlags severalIgnored.ignoredFlags position ↔ position = 5 ∨ position = 70 := by
  simp [Ignores, severalFlags, severalIgnored, bandIgnoring, Table.find?]
  omega

theorem info_mask_exact_iff_several : ∃ mask,
    (severalIgnored.makeReady (cubeOf severalFlags)).failure? = none ∧
      (severalIgnored.makeReady (cubeOf severalFlags)).entry.infoMask.get = .ok mask ∧
      ∀ i < 64, mask.getLsbD i = false ↔ i = 5 := by
  have ready : (severalIgnored.makeReady (cubeOf severalFlags)).failure? = none := by rfl
  obtain ⟨flags, mask, hflags, hmask, exact_iff⟩ := info_mask_exact_iff ready
  obtain rfl : severalFlags = flags := by
    cases hflags
    rfl
  have small : NoneWraps severalFlags severalIgnored.ignoredFlags :=
    noneWraps_of_small fun position h => by
      rcases ignores_severalFlags.mp h with rfl | rfl <;> decide
  refine ⟨mask, ready, hmask, fun i inside => ?_⟩
  rw [exact_iff.mpr small i inside, ignores_severalFlags]
  omega

/-- The first position beyond 32 bits is taken for that of the first bit. -/
theorem not_every_mask_exact : ¬ ∀ (f : FlagBand) (dc : Datacube) (flags : FlagsDefinition)
    (mask : Pixel), (f.makeReady dc).failure? = none →
      (f.makeReady dc).entry.flags.get = .ok flags →
      (f.makeReady dc).entry.infoMask.get = .ok mask →
      ∀ i < 64, mask.getLsbD i = false ↔ Ignores flags f.ignoredFlags i := by
  intro every
  have ignored := (every (bandIgnoring ["far"])
    (cubeOf [("far", .mapping [("bits", .number (.whole (Nat.pow 2 32)))])]) _ _ rfl rfl rfl 0
    (by decide)).mp rfl
  simp [Ignores, bandIgnoring, Table.find?] at ignored

end MapConfig.FlagBand
