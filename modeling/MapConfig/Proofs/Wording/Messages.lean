import MapConfig.Proofs.Tree
import MapConfig.Proofs.Wording.Registering

/-! The texts that entries define are exported for the catalogue of messages that is
put over them. The export itself, taken as the catalogue, changes no text that is
read; and a message changed in it is read under its key, and nowhere else. -/
namespace MapConfig.Wording
variable {w : Wording} {label field shown text : String}

/-! ## Filling a wording

Registrations and changes of the translator, in any order and of any number, but no
messages yet. -/

/-- A change to a wording over which no messages lie. -/
inductive Change where
  | register (r : Registration)
  | internationalise (enabled : Bool)
  | translate (translator : Option (String → String))

def change (w : Wording) : Change → Wording
  | .register r => w.register r
  | .internationalise enabled => { w with internationalised := enabled }
  | .translate translator => { w with translator }

/-- What a run of changes makes of the empty wording. -/
def filled (changes : List Change) : Wording := changes.foldl change empty

/-- No change puts messages over the texts. -/
theorem messages_change (w : Wording) (c : Change) : (w.change c).messages = w.messages := by
  cases c with
  | register r => rfl
  | internationalise enabled => rfl
  | translate translator => rfl

theorem messages_foldl_change (w : Wording) (changes : List Change) :
    (changes.foldl change w).messages = w.messages := by
  induction changes generalizing w with
  | nil => rfl
  | cons c rest ih => rw [List.foldl_cons, ih, messages_change]

theorem read_of_no_messages (h : w.messages = none) :
    w.read label field = (w.translated? (key label field)).or (w.default? label field) := by
  simp [read, message?, h]

/-! ## Messages over the texts

With messages the text that is read is the translation, the message or the default, in
this order. -/

/-- A list of messages by key, put over the texts; a key given twice has its last
message. -/
def withMessages (w : Wording) (messages : List (String × String)) : Wording :=
  { w with messages := some (Table.find? (Table.ofList messages)) }

/-- The list with another text under one key. -/
def reworded (messages : List (String × String)) (key text : String) : List (String × String) :=
  messages.map fun entry => if entry.1 = key then (key, text) else entry

theorem read_withMessages {messages : Table String} (sorted : messages.Sorted) :
    (w.withMessages messages).read label field =
      (w.translated? (key label field)).or
        (((messages.find? (key label field)).filter fun text => text ≠ "").or
          (w.default? label field)) := by
  rw [← Table.find?_ofList sorted, ← Option.or_assoc]
  rfl

theorem find?_reworded (messages : Table String) (other : String) :
    Table.find? (reworded messages shown text) other =
      if other = shown then (messages.find? other).map fun _ => text
      else messages.find? other := by
  induction messages with
  | nil => simp [reworded]
  | cons entry rest ih =>
    obtain ⟨k, old⟩ := entry
    simp only [reworded, List.map_cons] at ih ⊢
    by_cases hk : k = shown <;> by_cases ho : k = other <;> simp_all [Table.find?]

theorem sorted_reworded {messages : Table String} (sorted : messages.Sorted) :
    Table.Sorted (reworded messages shown text) := by
  have same : (reworded messages shown text).map Prod.fst = messages.map Prod.fst := by
    simp only [reworded, List.map_map, List.map_inj_left, Function.comp]
    intro entry _
    split <;> simp_all
  rw [Table.Sorted, Table.keys, same]
  exact sorted

/-! ## The export as messages

A text in the export is the default of its own key, so that putting it over this default
changes nothing. -/

theorem sorted_exported (w : Wording) : w.exported.Sorted :=
  Table.sorted_mapValues (Table.sorted_filter w.records.sorted _) _

/-- Exported are the texts that are not inherited. -/
theorem find?_exported (w : Wording) (shown : String) : w.exported.find? shown =
    ((w.records.find? shown).filter fun record => !record.inherited).map WordingRecord.value := by
  rw [exported, Table.find?_mapValues, Table.find?_filter w.records.sorted]
  rfl

/-- An exported text is the default itself, so it may stand over it, also where it is
empty and counts as no message. -/
theorem exported_or_default (w : Wording) :
    ((w.exported.find? (key label field)).filter fun text => text ≠ "").or
      (w.default? label field) = w.default? label field := by
  rw [find?_exported, default?]
  cases w.records.find? (key label field) with
  | none => rfl
  | some record =>
    by_cases inherited : record.inherited <;> by_cases blank : record.value = "" <;>
      simp [inherited, blank, Option.filter_some]

/-- The export and the messages fit together, after any run of changes: the export as it
is changes nothing, and a text changed in it is read under its key, unless it is
translated there. -/
theorem exported_messages_fit (changes : List Change) (label field : String) :
    ((filled changes).withMessages (filled changes).exported).read label field =
        (filled changes).read label field ∧
      ∀ shown ∈ (filled changes).exported.keys, ∀ text, text ≠ "" →
        ((filled changes).withMessages
            (reworded (filled changes).exported shown text)).read label field =
          if key label field = shown then some (((filled changes).translated? shown).getD text)
          else (filled changes).read label field := by
  have unlaid : (filled changes).messages = none := messages_foldl_change empty changes
  generalize filled changes = w at unlaid
  have sorted := sorted_exported w
  have unchanged : (w.withMessages w.exported).read label field = w.read label field := by
    rw [read_withMessages sorted, read_of_no_messages unlaid, exported_or_default]
  refine ⟨unchanged, fun shown hshown text given => ?_⟩
  rw [read_withMessages (sorted_reworded sorted), find?_reworded]
  split
  · next same =>
    obtain ⟨old, hold⟩ := Option.isSome_iff_exists.mp ((Table.mem_keys_iff _ _).mp hshown)
    rw [same, hold]
    cases w.translated? shown <;> simp [given, Option.filter_some]
  · rw [← read_withMessages sorted, unchanged]

/-! ### A title reworded -/

/-- Two registrations share a key, one text is empty and one inherited. -/
def titles : List Change := [
  .register ⟨"global", "title", "Service", false⟩,
  .register ⟨"l", "s.title", "Style", false⟩,
  .register ⟨"l.s", "title", "Red", false⟩,
  .register ⟨"l", "title", "", false⟩,
  .register ⟨"l", "fees", "none", true⟩,
  .translate (some fun key => if key = "global.title" then "Dienst" else key),
  .internationalise true]

theorem exported_messages_fit_titles :
    "l.s.title" ∈ (filled titles).exported.keys ∧ "global.title" ∈ (filled titles).exported.keys ∧
      ((filled titles).withMessages (filled titles).exported).read "l" "title" = some "" ∧
      ((filled titles).withMessages (reworded (filled titles).exported "l.s.title" "Rouge")).read
        "l" "s.title" = some "Rouge" ∧
      ((filled titles).withMessages (reworded (filled titles).exported "l.s.title" "Rouge")).read
        "l" "fees" = some "none" ∧
      ((filled titles).withMessages (reworded (filled titles).exported "global.title" "X")).read
        "global" "title" = some "Dienst" := by
  have style : "l.s.title" ∈ (filled titles).exported.keys := by decide +kernel
  have service : "global.title" ∈ (filled titles).exported.keys := by decide +kernel
  refine ⟨style, service, ?_, ?_, ?_, ?_⟩
  · rw [(exported_messages_fit titles "l" "title").1]
    decide +kernel
  · rw [(exported_messages_fit titles "l" "s.title").2 _ style "Rouge" (by decide)]
    decide +kernel
  · rw [(exported_messages_fit titles "l" "fees").2 _ style "Rouge" (by decide)]
    decide +kernel
  · rw [(exported_messages_fit titles "global" "title").2 _ service "X" (by decide)]
    decide +kernel

end MapConfig.Wording
