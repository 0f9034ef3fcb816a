import MapConfig.Proofs.Layer.SecondPhase
import MapConfig.Proofs.Loading

/-! The second phase of a service. It can be tried again after any failures: an
attempt has the outcome that it would have had on the service as loaded, and a
success makes the same service of it. -/
namespace MapConfig.Service

variable {s : Service} {dc : Datacube}

/-! ## As one step that may fail

The layers are made ready in turn and then the service itself, whose own phase has
nothing to fill. -/

/-- Whatever can be pending in the service is filled by the second phase. -/
structure Fillable (s : Service) : Prop where
  own : s.life.pending = ∅
  layers : ∀ l ∈ s.layers, l.Fillable

/-- What the second phase makes of a service. -/
def readied (s : Service) (dc : Datacube) : Except ConfigError Service := do
  let layers ← s.layers.mapM fun l => l.readied dc
  return { s with life := s.life.ended, layers }

theorem outcome_makeReady (fillable : s.Fillable) : (s.makeReady dc).outcome = s.readied dc := by
  unfold makeReady readied
  rw [Attempt.outcome_andThen, Attempt.outcome_within, Attempt.outcome_each,
    mapM_congr fun l hm => Layer.outcome_makeReady (fillable.layers l hm), map_eq_pure_bind,
    bind_assoc]
  refine bind_congr fun layers => ?_
  rw [pure_bind, Lifecycle.finish_eq_done (by simp [fillable.own]), Attempt.outcome_done]
  rfl

/-! ## Attempts one after the other

One attempt keeps what `readied` makes of the service and keeps it fillable, so any
number of attempts does. -/

theorem makeReady_entry {motive : Service → Prop}
    (layers : motive { s with layers := (Attempt.each (Layer.makeReady · dc) s.layers).entry })
    (ends : ∀ s life, s.life.Advances life → motive s → motive { s with life }) :
    motive (s.makeReady dc).entry := by
  refine Attempt.andThen_entry layers fun s hs => Lifecycle.finish_entry hs fun ready hready => ?_
  exact ends s ready (Lifecycle.advances_markReady hready) hs

theorem Fillable.makeReady (fillable : s.Fillable) (dc : Datacube) :
    (s.makeReady dc).entry.Fillable := by
  refine makeReady_entry ⟨fillable.own, ?_⟩ fun s life hlife h => ⟨?_, h.layers⟩
  · exact Attempt.forall_each_entry fillable.layers fun l filled => filled.makeReady dc
  · refine NameSet.eq_empty_iff.mpr fun name hm => ?_
    have hm := hlife.pending name hm
    rw [h.own] at hm
    exact NameSet.not_mem_empty name hm

theorem readied_makeReady (s : Service) (dc dc' : Datacube) :
    (s.makeReady dc').entry.readied dc = s.readied dc := by
  refine makeReady_entry (motive := fun s' => s'.readied dc = s.readied dc) ?_ ?_
  · have layers : (Attempt.each (Layer.makeReady · dc') s.layers).entry.mapM (·.readied dc) =
        s.layers.mapM (·.readied dc) :=
      Attempt.mapM_each_entry (fun l => Layer.readied_makeReady l dc dc') s.layers
    unfold readied
    rw [← layers]
  · intro s' life hlife h
    rw [← h]
    unfold readied
    rw [← hlife.ended]

/-- The service after attempts with these datacubes, failed or successful. -/
def attempted (s : Service) (attempts : List Datacube) : Service :=
  attempts.foldl (fun s dc => (s.makeReady dc).entry) s

theorem Fillable.attempted (fillable : s.Fillable) (attempts : List Datacube) :
    (s.attempted attempts).Fillable := by
  unfold Service.attempted
  induction attempts generalizing s with
  | nil => exact fillable
  | cons dc attempts ih => exact ih (fillable.makeReady dc)

theorem readied_attempted (s : Service) (attempts : List Datacube) :
    (s.attempted attempts).readied dc = s.readied dc := by
  unfold attempted
  induction attempts generalizing s with
  | nil => rfl
  | cons dc' attempts ih => rw [List.foldl_cons, ih, readied_makeReady]

theorem outcome_attempted (fillable : s.Fillable) (attempts : List Datacube) :
    ((s.attempted attempts).makeReady dc).outcome = s.readied dc := by
  rw [outcome_makeReady (fillable.attempted attempts), readied_attempted]

/-- A success, layer by layer. -/
theorem readied_ok_iff {after : Service} : s.readied dc = .ok after ↔
    ∃ layers, List.Forall₂ (fun l l' => l.readied dc = .ok l') s.layers layers ∧
      after = { s with life := s.life.ended, layers } := by
  simp only [readied, bind_ok_iff, mapM_ok_iff]
  constructor
  · rintro ⟨layers, hlayers, h⟩
    exact ⟨layers, hlayers, (Except.ok.inj h).symm⟩
  · rintro ⟨layers, hlayers, rfl⟩
    exact ⟨layers, hlayers, rfl⟩

section
variable {raw : Tree} {functions : Objects HostFunction}

theorem fillable_of_ofTree (h : ofTree raw functions = .ok s) : s.Fillable := by
  constructor
  · obtain ⟨root, _, loads⟩ := loads_of_ofTree h
    cases loads
    rfl
  · intro l hm
    obtain ⟨_, _, _, _, loads⟩ := exists_loads_of_mem h hm
    exact loads.fillable

/-- After any attempts the second phase fails exactly as it would have failed on
the service as loaded, or makes the same service of it. -/
theorem makeReady_after_attempts (h : ofTree raw functions = .ok s) (attempts : List Datacube)
    (dc : Datacube) :
    ((s.attempted attempts).makeReady dc).failure? = (s.makeReady dc).failure? ∧
      ((s.makeReady dc).failure? = none →
        ((s.attempted attempts).makeReady dc).entry = (s.makeReady dc).entry) := by
  have fillable := fillable_of_ofTree h
  apply Attempt.outcome_eq_iff.mp
  rw [outcome_attempted fillable, outcome_makeReady fillable]

/-- A service with one layer, whose flag band stands under an alias. -/
def flaggedTree : Tree := .mapping [
  ("global", .mapping [("title", .text "Service")]),
  ("layers", .list [Layer.aliasedFlagTree])]

/-- The first attempt fails at the flag band, after the products and the bands
have been filled from another product. -/
theorem makeReady_after_attempts_flagged : ∃ s, ofTree flaggedTree Objects.empty = .ok s ∧
    (s.makeReady (Layer.oneMeasurement "fmask" [])).failure? ≠ none ∧
    (s.makeReady (Layer.oneMeasurement "pq" ["quality"])).failure? = none ∧
    ((s.attempted [Layer.oneMeasurement "fmask" []]).makeReady
      (Layer.oneMeasurement "pq" ["quality"])).failure? = none ∧
    ((s.attempted [Layer.oneMeasurement "fmask" []]).makeReady
      (Layer.oneMeasurement "pq" ["quality"])).entry =
        (s.makeReady (Layer.oneMeasurement "pq" ["quality"])).entry := by
  have tested : (ofTree flaggedTree Objects.empty).toOption.any (fun s =>
      (s.makeReady (Layer.oneMeasurement "fmask" [])).failure?.isSome &&
        (s.makeReady (Layer.oneMeasurement "pq" ["quality"])).failure?.isNone) = true := by
    decide +kernel
  obtain ⟨s, hs, hp⟩ := exists_ok_of_any tested
  obtain ⟨fails, succeeds⟩ := Bool.and_eq_true_iff.mp hp
  have succeeds := Option.isNone_iff_eq_none.mp succeeds
  obtain ⟨same, equal⟩ := makeReady_after_attempts hs [Layer.oneMeasurement "fmask" []]
    (Layer.oneMeasurement "pq" ["quality"])
  exact ⟨s, hs, Option.isSome_iff_ne_none.mp fails, succeeds, same.trans succeeds, equal succeeds⟩

end

end MapConfig.Service
