import MapConfig.Error

/-! The two phases in the life of an entry. An entry is built from its raw tree
alone; fields that depend on the datacube are declared then and filled in the
second phase. Reading a field too early is an error, and an entry is ready only
when none is pending. A `Lifecycle` is the `EntryCore` of an entry, a `Cell` one of its
`Deferred` fields; the two are kept in step by `fill`, and `Attempt` is the outcome of
the second phase (`make_ready`) together with the entry that it leaves. -/
namespace MapConfig

/-- The names of the fields still to be filled, until the entry is ready for good. -/
inductive Readiness where
  | unready (pending : NameSet)
  | ready
deriving DecidableEq

/-- What every entry has: its raw tree and where it stands. -/
structure Lifecycle where
  raw : Tree
  readiness : Readiness

/-- A field filled in the second phase. -/
structure Cell (α : Type) where
  name : String
  value? : Option α

/-- A field as it is declared. -/
def Cell.empty {α : Type} (name : String) : Cell α := ⟨name, none⟩

def Cell.isSet {α : Type} (cell : Cell α) : Bool := cell.value?.isSome

/-- The value, or the error that names the field. -/
def Cell.get {α : Type} (cell : Cell α) : Except ConfigError α :=
  match cell.value? with
  | some value => .ok value
  | none => .error (.notReady {cell.name})

namespace Lifecycle

/-- A new entry with the given fields declared. -/
def start (raw : Tree) (fields : List String) : Lifecycle :=
  ⟨raw, .unready (NameSet.ofList fields)⟩

def isReady (l : Lifecycle) : Bool :=
  match l.readiness with
  | .unready _ => false
  | .ready => true

/-- The names of the fields that are declared and not filled. -/
def pending (l : Lifecycle) : NameSet :=
  match l.readiness with
  | .unready fields => fields
  | .ready => ∅

/-- Declares a field, which only an entry that is not ready may. -/
def declare (l : Lifecycle) (name : String) : Except ConfigError Lifecycle :=
  match l.readiness with
  | .unready fields => .ok { l with readiness := .unready (fields.insert name) }
  | .ready => .error (.invalid (.declaredTooLate name))

/-- Strikes a field off those pending. -/
def markSet (l : Lifecycle) (name : String) : Lifecycle :=
  match l.readiness with
  | .unready fields => { l with readiness := .unready (fields.erase name) }
  | .ready => l

/-- Fills a field: its value is there and its name is struck off. -/
def fill {α : Type} (l : Lifecycle) (cell : Cell α) (value : α) : Lifecycle × Cell α :=
  (l.markSet cell.name, { cell with value? := some value })

/-- A pending field cannot be read; the error names all that are pending. -/
def checkReadable (l : Lifecycle) (name : String) : Except ConfigError Unit :=
  if name ∈ l.pending then .error (.notReady l.pending) else .ok ()

/-- Ends the second phase, which takes that nothing is pending. -/
def markReady (l : Lifecycle) : Except ConfigError Lifecycle :=
  if l.pending.isEmpty then .ok { l with readiness := .ready }
  else .error (.notReady l.pending)

theorem pending_markSet (l : Lifecycle) (name : String) :
    (l.markSet name).pending = l.pending.erase name := by
  cases h : l.readiness <;> simp [markSet, pending, h]

theorem isReady_of_markReady {l ready : Lifecycle} (h : l.markReady = .ok ready) :
    ready.isReady = true := by
  rw [markReady] at h
  split at h
  · cases h
    rfl
  · cases h

end Lifecycle

/-- A second-phase step: the entry as the step left it, and what made it fail.
A step that fails part of the way leaves behind what it had done. -/
structure Attempt (α : Type) where
  entry : α
  failure? : Option ConfigError

namespace Attempt
variable {α : Type}

/-- A step that has gone through. -/
def done (entry : α) : Attempt α := ⟨entry, none⟩

/-- A step that has stopped, with the entry it has come to. -/
def failed (entry : α) (error : ConfigError) : Attempt α := ⟨entry, some error⟩

/-- Goes on only after success. -/
def andThen (first : Attempt α) (next : α → Attempt α) : Attempt α :=
  match first.failure? with
  | some _ => first
  | none => next first.entry

/-- Takes the step on one part of a larger entry. -/
def within {β : Type} (part : Attempt β) (put : β → α) : Attempt α :=
  ⟨put part.entry, part.failure?⟩

/-- Takes the step on one entry after the other, up to the first failure. -/
def each (step : α → Attempt α) : List α → Attempt (List α)
  | [] => done []
  | entry :: rest =>
    let first := step entry
    match first.failure? with
    | some error => failed (first.entry :: rest) error
    | none => (each step rest).within (first.entry :: ·)

def result (attempt : Attempt α) : Except ConfigError Unit :=
  match attempt.failure? with
  | some error => .error error
  | none => .ok ()

end Attempt

/-- Ends the second phase of an entry whose lifecycle is `l`. -/
def Lifecycle.finish {α : Type} (l : Lifecycle) (entry : α) (put : Lifecycle → α) : Attempt α :=
  match l.markReady with
  | .ok ready => .done (put ready)
  | .error error => .failed entry error

end MapConfig
