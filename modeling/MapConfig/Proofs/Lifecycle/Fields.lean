import MapConfig.Proofs.Lifecycle
import Mathlib.Logic.Function.Basic

/-! Deferred fields over whole runs. A lifecycle knows which names are pending; the
values stand in cells that the entry keeps apart from it, and only the operations on
the two keep them in step. Whatever is declared, filled, read and made ready, in any
order, the pending names are those whose cell is unset, and a ready entry has none. -/
namespace MapConfig

/-! ## Fields and steps

An entry with any fields, as the operations on lifecycles and cells make them up. A run
is any list of operations, failing ones included. -/

/-- A lifecycle with the cell that was declared last under each name. The values of
each field have a type of their own. -/
structure DeferredFields (Value : String → Type) where
  life : Lifecycle
  cell? : (name : String) → Option (Cell (Value name))

inductive FieldStep (Value : String → Type) where
  | declare (name : String)
  | fill (name : String) (value : Value name)
  | check (name : String)
  | get (name : String)
  | ready

namespace DeferredFields
variable {Value : String → Type}

/-- The fields of a new entry: nothing is declared yet. -/
def start (raw : Tree) : DeferredFields Value := ⟨Lifecycle.start raw [], fun _ => none⟩

def put (s : DeferredFields Value) (life : Lifecycle) (name : String) (cell : Cell (Value name)) :
    DeferredFields Value :=
  ⟨life, Function.update s.cell? name (some cell)⟩

@[simp] theorem life_put (s : DeferredFields Value) (life : Lifecycle) (name : String)
    (cell : Cell (Value name)) : (s.put life name cell).life = life := rfl

@[simp] theorem cell?_put_self (s : DeferredFields Value) (life : Lifecycle) (name : String)
    (cell : Cell (Value name)) : (s.put life name cell).cell? name = some cell :=
  Function.update_self ..

theorem cell?_put_ne (s : DeferredFields Value) (life : Lifecycle) {name other : String}
    (cell : Cell (Value name)) (h : other ≠ name) :
    (s.put life name cell).cell? other = s.cell? other :=
  Function.update_of_ne h ..

/-- Reading leaves the fields as they are. -/
def reading {α : Type} (s : DeferredFields Value) (result : Except ConfigError α) :
    Attempt (DeferredFields Value) :=
  match result with
  | .ok _ => .done s
  | .error error => .failed s error

/-- Declaring a name again drops the cell that it had. Under a name that is not
declared there is no cell to fill or to read. -/
def take (s : DeferredFields Value) : FieldStep Value → Attempt (DeferredFields Value)
  | .declare name =>
    match s.life.declare name with
    | .ok life => .done (s.put life name (.empty name))
    | .error error => .failed s error
  | .fill name value =>
    match s.cell? name with
    | some cell => .done (s.put (s.life.fill cell value).1 name (s.life.fill cell value).2)
    | none => .done s
  | .check name => s.reading (s.life.checkReadable name)
  | .get name =>
    match s.cell? name with
    | some cell => s.reading cell.get
    | none => .done s
  | .ready => s.life.finish s fun life => { s with life }

/-- The fields after all steps, those that fail included. -/
def run (s : DeferredFields Value) (steps : List (FieldStep Value)) : DeferredFields Value :=
  steps.foldl (fun s step => (s.take step).entry) s

/-- The cell declared last under the name has not been filled. -/
def Unset (s : DeferredFields Value) (name : String) : Prop :=
  ∃ cell, s.cell? name = some cell ∧ cell.isSet = false

/-! ## One step

The invariant relates the pending names with the cells that an entry holds. It has to be
preserved by every operation, also by those that fail. -/

/-- The pending names and the cells are in step. -/
structure InStep (s : DeferredFields Value) : Prop where
  named : ∀ name cell, s.cell? name = some cell → cell.name = name
  pending : ∀ name, name ∈ s.life.pending ↔ s.Unset name

theorem entry_reading {α : Type} (s : DeferredFields Value) (result : Except ConfigError α) :
    (s.reading result).entry = s := by
  cases result <;> rfl

theorem inStep_start (raw : Tree) : (start raw : DeferredFields Value).InStep where
  named := by
    intro name cell h
    cases h
  pending := by
    intro name
    constructor
    · intro h
      cases h
    · rintro ⟨cell, h, -⟩
      cases h

/-- Putting a cell keeps the two in step if the name of the cell, and no other, is
pending or not as the cell says. -/
theorem InStep.put {s : DeferredFields Value} (h : s.InStep) {life : Lifecycle} {name : String}
    {cell : Cell (Value name)} (named : cell.name = name)
    (own : name ∈ life.pending ↔ cell.isSet = false)
    (others : ∀ other, other ≠ name → (other ∈ life.pending ↔ other ∈ s.life.pending)) :
    (s.put life name cell).InStep where
  named := by
    intro other found hf
    by_cases same : other = name
    · subst same
      rw [cell?_put_self] at hf
      cases hf
      exact named
    · rw [cell?_put_ne s life cell same] at hf
      exact h.named other found hf
  pending := by
    intro other
    by_cases same : other = name
    · subst same
      simpa [Unset] using own
    · rw [Unset, cell?_put_ne s life cell same]
      exact (others other same).trans (h.pending other)

theorem InStep.take {s : DeferredFields Value} (h : s.InStep) (step : FieldStep Value) :
    (s.take step).entry.InStep := by
  cases step with
  | declare name =>
    rw [DeferredFields.take]
    split
    -- Declared anew a cell is empty, whatever it held, and its name is pending again.
    · next life declared =>
      refine h.put rfl ?_ ?_
      · simp [Lifecycle.mem_pending_declare declared, Cell.isSet, Cell.empty]
      · intro other hne
        simp [Lifecycle.mem_pending_declare declared, hne]
    · exact h
  | fill name value =>
    rw [DeferredFields.take]
    split
    · next cell hf =>
      have named := h.named name cell hf
      refine h.put named ?_ ?_
      · simp [Lifecycle.fill, Lifecycle.mem_pending_markSet, named, Cell.isSet]
      · intro other hne
        simp [Lifecycle.fill, Lifecycle.mem_pending_markSet, named, hne]
    · exact h
  | check name =>
    rw [DeferredFields.take, entry_reading]
    exact h
  | get name =>
    rw [DeferredFields.take]
    split
    · rw [entry_reading]
      exact h
    · exact h
  | ready =>
    refine Lifecycle.finish_entry h fun life marked => ⟨h.named, fun name => ?_⟩
    -- The phase ends only where nothing was pending, so no cell is unset.
    have before := Lifecycle.markReady_ok_iff.mp ⟨life, marked⟩
    rw [Lifecycle.pending_of_markReady marked, ← before]
    exact h.pending name

/-! ## Whole runs

Induction on the operations of a run, each of them one step. -/

theorem InStep.run {s : DeferredFields Value} (h : s.InStep) (steps : List (FieldStep Value)) :
    (s.run steps).InStep := by
  induction steps generalizing s with
  | nil => exact h
  | cons step rest ih => exact ih (h.take step)

/-- Nothing is pending any more, so no step changes the lifecycle. -/
theorem life_take {s : DeferredFields Value} (ready : s.life.isReady = true)
    (step : FieldStep Value) : (s.take step).entry.life = s.life := by
  cases step with
  | declare name =>
    rw [take, Lifecycle.declare_of_isReady ready name]
    rfl
  | fill name value =>
    rw [take]
    split
    · exact Lifecycle.markSet_of_isReady ready _
    · rfl
  | check name => rw [take, entry_reading]
  | get name =>
    rw [take]
    split
    · rw [entry_reading]
    · rfl
  | ready =>
    rw [take, Lifecycle.finish, Lifecycle.markReady_of_isReady ready]
    rfl

theorem life_run {s : DeferredFields Value} (ready : s.life.isReady = true)
    (steps : List (FieldStep Value)) : (s.run steps).life = s.life := by
  induction steps generalizing s with
  | nil => rfl
  | cons step rest ih =>
    have same := life_take ready step
    rw [run, List.foldl_cons, ← same]
    exact ih (by rwa [same])

/-- A field can be read exactly when it is not pending. -/
theorem InStep.readable {s : DeferredFields Value} (h : s.InStep) {name : String}
    {cell : Cell (Value name)} (hf : s.cell? name = some cell) :
    (name ∈ s.life.pending → cell.get = .error (.notReady {name}) ∧
      s.life.checkReadable name = .error (.notReady s.life.pending)) ∧
    (name ∉ s.life.pending → (∃ value, cell.get = .ok value) ∧
      s.life.checkReadable name = .ok ()) := by
  refine ⟨fun hm => ⟨?_, if_pos hm⟩, fun hm => ⟨?_, if_neg hm⟩⟩
  · obtain ⟨found, hfound, unset⟩ := (h.pending name).mp hm
    cases hf.symm.trans hfound
    have empty : cell.value? = none := by simpa [Cell.isSet] using unset
    rw [Cell.get, empty, h.named name cell hf]
  · cases hvalue : cell.value? with
    | some value => exact ⟨value, by rw [Cell.get, hvalue]⟩
    | none => exact absurd ((h.pending name).mpr ⟨cell, hf, by rw [Cell.isSet, hvalue]; rfl⟩) hm

/-- Once ready, an entry stays so, with every field readable and none to be declared. -/
theorem InStep.run_of_isReady {s : DeferredFields Value} (h : s.InStep)
    (ready : s.life.isReady = true) (more : List (FieldStep Value)) :
    (s.run more).life.isReady = true ∧ (s.run more).life.pending = ∅ ∧
      (∀ name cell, (s.run more).cell? name = some cell → (∃ value, cell.get = .ok value) ∧
        (s.run more).life.checkReadable name = .ok ()) ∧
      ∀ name, (s.run more).take (.declare name) =
        .failed (s.run more) (.invalid (.declaredTooLate name)) := by
  have still : (s.run more).life.isReady = true := by rw [life_run ready more, ready]
  have none_pending := Lifecycle.pending_of_isReady still
  refine ⟨still, none_pending, fun name cell hf => ?_, fun name => ?_⟩
  · refine ((h.run more).readable hf).2 ?_
    rw [none_pending]
    exact List.not_mem_nil
  · rw [DeferredFields.take, Lifecycle.declare_of_isReady still]

/-- At every point of a run: the pending names of an unready entry are those whose
cell is unset; a field cannot be read exactly while it is pending; the phase can be
ended exactly when nothing is pending, and a vain attempt changes nothing. Once
ready, the entry stays so whatever follows, with every field readable and none to be
declared any more. -/
theorem deferred_fields_in_step (raw : Tree) (steps : List (FieldStep Value)) :
    let s := (start raw).run steps
    (s.life.isReady = false → ∀ name, name ∈ s.life.pending ↔ s.Unset name) ∧
    (∀ name cell, s.cell? name = some cell →
      (name ∈ s.life.pending → cell.get = .error (.notReady {name}) ∧
        s.life.checkReadable name = .error (.notReady s.life.pending)) ∧
      (name ∉ s.life.pending → (∃ value, cell.get = .ok value) ∧
        s.life.checkReadable name = .ok ())) ∧
    ((s.take .ready).failure? = none ↔ s.life.isReady = true ∨ s.life.pending = ∅) ∧
    ((s.take .ready).failure? = none → (s.take .ready).entry.life.isReady = true) ∧
    ((s.take .ready).failure? ≠ none → (s.take .ready).entry = s) ∧
    (s.life.isReady = true → ∀ more,
      let later := s.run more
      later.life.isReady = true ∧ later.life.pending = ∅ ∧
      (∀ name cell, later.cell? name = some cell → (∃ value, cell.get = .ok value) ∧
        later.life.checkReadable name = .ok ()) ∧
      ∀ name, later.take (.declare name) =
        .failed later (.invalid (.declaredTooLate name))) := by
  have inStep : ((start raw : DeferredFields Value).run steps).InStep :=
    (inStep_start raw).run steps
  intro s
  refine ⟨fun _ => inStep.pending, fun name cell hf => inStep.readable hf, ?_, ?_, ?_, ?_⟩
  · rw [take, Lifecycle.failure?_finish_iff]
    exact ⟨.inr, fun h => h.elim Lifecycle.pending_of_isReady id⟩
  · intro ends
    obtain ⟨ready, marked, entry⟩ := Lifecycle.exists_ready_of_finish ends
    rw [take, entry]
    exact Lifecycle.isReady_of_markReady marked
  · exact Lifecycle.entry_of_finish
  · exact fun ready more => inStep.run_of_isReady ready more

/-- A field that is declared again waits for a value again. -/
example : ((start .null : DeferredFields fun _ => Nat).run
    [.declare "a", .fill "a" 1, .declare "a", .ready]).life.pending = {"a"} := by decide

end DeferredFields

end MapConfig
