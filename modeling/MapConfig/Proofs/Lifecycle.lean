import MapConfig.Lifecycle
import MapConfig.Proofs.Results

/-! The second phase. What every step of an attempt keeps, the attempt keeps,
whether it fails or not; and an entry ends the phase when all that is pending
has been filled. The outcome of an attempt forgets what a failure leaves behind,
so that a chain of attempts has the outcome of a chain of steps that may fail. -/
namespace MapConfig

namespace Attempt
variable {α : Type}

/-! ## What an attempt keeps

A property that each step keeps in the entry it leaves is kept by steps in a row and by
one step taken on each of a list, whether they fail or not. -/

theorem andThen_entry {motive : α → Prop} {first : Attempt α} {next : α → Attempt α}
    (h : motive first.entry) (keeps : ∀ a, motive a → motive (next a).entry) :
    motive (first.andThen next).entry := by
  unfold andThen
  split
  · exact h
  · exact keeps _ h

/-- What the step does not change in any entry is as it was in all of them. -/
theorem map_each_entry {β : Type} {step : α → Attempt α} {view : α → β}
    (h : ∀ entry, view (step entry).entry = view entry) (entries : List α) :
    (each step entries).entry.map view = entries.map view := by
  induction entries with
  | nil => rfl
  | cons first rest ih =>
    rw [each]
    split
    · rw [failed, List.map_cons, List.map_cons, h]
    · rw [within, List.map_cons, List.map_cons, h, ih]

theorem mapM_each_entry {β : Type} {step : α → Attempt α} {view : α → Except ConfigError β}
    (h : ∀ entry, view (step entry).entry = view entry) (entries : List α) :
    (each step entries).entry.mapM view = entries.mapM view := by
  have views := congrArg (List.mapM id) (map_each_entry h entries)
  rwa [List.mapM_map, List.mapM_map] at views

/-- Every entry is as it was or as the step has left it. -/
theorem mem_each_entry {step : α → Attempt α} {entries : List α} :
    ∀ after ∈ (each step entries).entry,
      ∃ before ∈ entries, after = before ∨ after = (step before).entry := by
  induction entries with
  | nil =>
    intro after hm
    cases hm
  | cons first rest ih =>
    intro after hm
    rw [each] at hm
    split at hm
    · rcases List.mem_cons.mp hm with rfl | hm
      · exact ⟨first, List.mem_cons_self, .inr rfl⟩
      · exact ⟨after, List.mem_cons_of_mem first hm, .inl rfl⟩
    · rcases List.mem_cons.mp hm with rfl | hm
      · exact ⟨first, List.mem_cons_self, .inr rfl⟩
      · obtain ⟨before, hb, h⟩ := ih after hm
        exact ⟨before, List.mem_cons_of_mem first hb, h⟩

/-- What the step keeps in an entry, all entries keep. -/
theorem forall_each_entry {motive : α → Prop} {step : α → Attempt α} {entries : List α}
    (start : ∀ entry ∈ entries, motive entry)
    (keeps : ∀ entry, motive entry → motive (step entry).entry) :
    ∀ after ∈ (each step entries).entry, motive after := by
  intro after hm
  obtain ⟨before, hb, rfl | rfl⟩ := mem_each_entry after hm
  · exact start after hb
  · exact keeps before (start before hb)

/-! ## Outcomes

The outcome of an attempt is a step that may fail, without what a failure leaves behind.
Chains of attempts become binds, and attempts on a list a `mapM`. -/

/-- The entry that the step has completed, or the error that it failed with. -/
def outcome (attempt : Attempt α) : Except ConfigError α :=
  match attempt.failure? with
  | some error => .error error
  | none => .ok attempt.entry

theorem outcome_done (entry : α) : (done entry).outcome = .ok entry := rfl

theorem outcome_ok_iff {attempt : Attempt α} {entry : α} :
    attempt.outcome = .ok entry ↔ attempt.failure? = none ∧ attempt.entry = entry := by
  unfold outcome
  cases attempt.failure? <;> simp

/-- Equal outcomes are the same error or the same entry. -/
theorem outcome_eq_iff {first second : Attempt α} : first.outcome = second.outcome ↔
    first.failure? = second.failure? ∧ (second.failure? = none → first.entry = second.entry) := by
  unfold outcome
  cases first.failure? <;> cases second.failure? <;> simp

theorem outcome_andThen (first : Attempt α) (next : α → Attempt α) :
    (first.andThen next).outcome = first.outcome >>= fun entry => (next entry).outcome := by
  unfold andThen outcome
  cases h : first.failure? with
  | none => rfl
  | some error => simp [h, bind, Except.bind]

theorem outcome_within {β : Type} (part : Attempt β) (put : β → α) :
    (part.within put).outcome = put <$> part.outcome := by
  unfold within outcome
  cases part.failure? <;> rfl

theorem outcome_each (step : α → Attempt α) (entries : List α) :
    (each step entries).outcome = entries.mapM fun entry => (step entry).outcome := by
  induction entries with
  | nil => rfl
  | cons first rest ih =>
    rw [each, List.mapM_cons, ← ih]
    cases h : (step first).failure? with
    | some error => simp [outcome, h, failed, bind, Except.bind]
    | none =>
      simp only [outcome_within]
      simp only [outcome, h]
      rfl

end Attempt

namespace Lifecycle
variable {α : Type} {l : Lifecycle}

/-- The lifecycle when the second phase has ended. -/
def ended (l : Lifecycle) : Lifecycle := { l with readiness := .ready }

theorem checkReadable_ended {name : String} : l.ended.checkReadable name = .ok () := rfl

theorem ended_markSet (name : String) : (l.markSet name).ended = l.ended := by
  unfold markSet
  split <;> rfl

/-- A later state of the same lifecycle, in which nothing new is pending. -/
structure Advances (l l' : Lifecycle) : Prop where
  ended : l'.ended = l.ended
  pending : ∀ name ∈ l'.pending, name ∈ l.pending

theorem Advances.refl (l : Lifecycle) : l.Advances l := ⟨rfl, fun _ hm => hm⟩

theorem Advances.trans {l' l'' : Lifecycle} (h : l.Advances l') (h' : l'.Advances l'') :
    l.Advances l'' :=
  ⟨h'.ended.trans h.ended, fun name hm => h.pending name (h'.pending name hm)⟩

theorem eq_ended_of_markReady {ready : Lifecycle} (h : l.markReady = .ok ready) :
    ready = l.ended := by
  unfold markReady at h
  split at h
  · cases h
    rfl
  · cases h

theorem mem_pending_markSet {name other : String} :
    other ∈ (l.markSet name).pending ↔ other ∈ l.pending ∧ other ≠ name := by
  rw [pending_markSet, NameSet.mem_erase]

theorem mem_pending_declare {declared : Lifecycle} {name other : String}
    (h : l.declare name = .ok declared) :
    other ∈ declared.pending ↔ other = name ∨ other ∈ l.pending := by
  unfold declare at h
  split at h
  · next fields hr =>
    cases h
    rw [pending, pending, hr]
    exact NameSet.mem_insert fields name other
  · cases h

theorem advances_markSet (l : Lifecycle) (name : String) : l.Advances (l.markSet name) :=
  ⟨ended_markSet name, fun _ hm => (mem_pending_markSet.mp hm).1⟩

theorem advances_markReady {ready : Lifecycle} (h : l.markReady = .ok ready) :
    l.Advances ready := by
  rw [eq_ended_of_markReady h]
  exact ⟨rfl, fun name hm => by cases hm⟩

/-- Nothing is pending, so the phase ends. -/
theorem finish_eq_done {entry : α} {put : Lifecycle → α} (h : ∀ name, name ∉ l.pending) :
    l.finish entry put = .done (put { l with readiness := .ready }) := by
  have empty : l.pending.isEmpty := by
    rw [NameSet.isEmpty_iff]
    exact NameSet.eq_empty_iff.mpr h
  simp [finish, markReady, empty]

theorem exists_ready_of_finish {entry : α} {put : Lifecycle → α}
    (h : (l.finish entry put).failure? = none) :
    ∃ ready, l.markReady = .ok ready ∧ (l.finish entry put).entry = put ready := by
  unfold finish at h ⊢
  split at h
  · next ready hready => exact ⟨ready, hready, rfl⟩
  · cases h

theorem finish_entry {motive : α → Prop} {entry : α} {put : Lifecycle → α} (h : motive entry)
    (ends : ∀ ready, l.markReady = .ok ready → motive (put ready)) :
    motive (l.finish entry put).entry := by
  unfold finish
  split
  · next ready hready => exact ends ready hready
  · exact h

theorem pending_of_markReady {ready : Lifecycle} (h : l.markReady = .ok ready) :
    ready.pending = ∅ := by
  rw [eq_ended_of_markReady h]
  rfl

theorem markReady_ok_iff : (∃ ready, l.markReady = .ok ready) ↔ l.pending = ∅ := by
  unfold markReady
  split
  · next empty => simpa using NameSet.isEmpty_iff.mp empty
  · next some_pending => simpa using NameSet.isEmpty_iff.not.mp some_pending

theorem failure?_finish_iff {entry : α} {put : Lifecycle → α} :
    (l.finish entry put).failure? = none ↔ l.pending = ∅ := by
  rw [← markReady_ok_iff, finish]
  cases l.markReady <;> simp [Attempt.done, Attempt.failed]

/-- A phase that cannot end leaves the entry as it was. -/
theorem entry_of_finish {entry : α} {put : Lifecycle → α}
    (h : (l.finish entry put).failure? ≠ none) : (l.finish entry put).entry = entry := by
  unfold finish at h ⊢
  split at h
  · exact absurd rfl h
  · rfl

/-! ### A lifecycle that has ended

Readiness is final, and nothing is pending then. -/

theorem readiness_of_isReady (h : l.isReady = true) : l.readiness = .ready := by
  unfold isReady at h
  split at h
  · cases h
  · next ready => exact ready

theorem pending_of_isReady (h : l.isReady = true) : l.pending = ∅ := by
  rw [pending, readiness_of_isReady h]

theorem ended_of_isReady (h : l.isReady = true) : l.ended = l := by
  rw [ended, ← readiness_of_isReady h]

theorem declare_of_isReady (h : l.isReady = true) (name : String) :
    l.declare name = .error (.invalid (.declaredTooLate name)) := by
  rw [declare, readiness_of_isReady h]

theorem markSet_of_isReady (h : l.isReady = true) (name : String) : l.markSet name = l := by
  rw [markSet, readiness_of_isReady h]

theorem markReady_of_isReady (h : l.isReady = true) : l.markReady = .ok l := by
  obtain ⟨ready, hready⟩ := markReady_ok_iff.mpr (pending_of_isReady h)
  rw [hready, eq_ended_of_markReady hready, ended_of_isReady h]

end Lifecycle

end MapConfig
