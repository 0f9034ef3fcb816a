import MapConfig.Proofs.Layer.FlagBands

/-! The second phase of a layer, its bands, flag bands and styles included, as one
step that may fail. What the step makes of a layer follows from the layer's
settings and the datacube alone: nothing that an attempt leaves behind, however
far it got, has an influence on a later one. -/
namespace MapConfig

namespace Style
variable {s : Style}

/-- The style when the second phase has ended. Its rules stay as they are. -/
def settled (s : Style) : Style := { s with life := s.life.ended }

theorem outcome_makeReady (nothing : s.life.pending = ∅) :
    s.makeReady.outcome = .ok s.settled := by
  unfold makeReady
  rw [Lifecycle.finish_eq_done (by simp [nothing]), Attempt.outcome_done]
  rfl

theorem settled_makeReady (s : Style) : s.makeReady.entry.settled = s.settled := by
  unfold makeReady
  refine Lifecycle.finish_entry (motive := fun s' : Style => s'.settled = s.settled) ?_ ?_
  · rfl
  · intro ready hready
    cases Lifecycle.eq_ended_of_markReady hready
    rfl

theorem pending_makeReady (nothing : s.life.pending = ∅) :
    s.makeReady.entry.life.pending = ∅ := by
  unfold makeReady
  rw [Lifecycle.finish_eq_done (by simp [nothing])]
  rfl

end Style

namespace Layer
variable {l : Layer} {dc : Datacube}

/-! ## As one step that may fail

`readied` is written without attempts: a chain of look-ups that ends at the first
failure. It is the outcome of an attempt, step by step and then as a whole. -/

/-- Whatever can be pending in the layer is filled by the second phase. -/
structure Fillable (l : Layer) : Prop where
  coherent : l.Coherent
  own : ∀ name ∈ l.life.pending, name = l.products.name ∨ name = l.lowResProducts.name
  bands : l.bands.Fillable
  styles : ∀ s ∈ l.styles, s.life.pending = ∅

section
variable {above : Heritage} {functions : Objects HostFunction} {raw : Tree} {r r' : Registries}

theorem Loads.styles_fit (h : Loads above functions raw r l r') :
    ∀ s ∈ l.styles, s.Fits l.scope := by
  intro s hm
  obtain ⟨_, _, parts⟩ := h.exists_ofMapping s hm
  exact Style.fits_of_ofMapping parts

theorem Loads.fillable (h : Loads above functions raw r l r') : l.Fillable := by
  refine ⟨h.coherent, ?_, ?_, fun s hm => (h.styles_fit s hm).pending⟩
  · cases h
    intro name hm
    simpa [Cell.empty] using (NameSet.mem_ofList _ name).mp hm
  · cases h with
    | intro _ _ _ _ _ banded =>
      have reads := BandTable.reads_of_parse banded
      intro name hm
      rw [reads.life_eq] at hm
      rw [reads.native_eq]
      simpa [Cell.empty] using (NameSet.mem_ofList _ name).mp hm

end

/-- What the second phase makes of a layer. -/
def readied (l : Layer) (dc : Datacube) : Except ConfigError Layer := do
  let products ← findProducts dc l.scope.products "" l.name
  let lowResProducts ← findProducts dc l.scope.lowResProducts "low_res " l.name
  let bands ← l.bands.readied dc
  let flagBands ← l.flagBands.mapM fun f => f.readied dc l.scope
  let flagGroups ← FlagGroup.build flagBands
  return { l with
    life := l.life.ended
    products := ⟨l.products.name, some products⟩
    lowResProducts := ⟨l.lowResProducts.name, some lowResProducts⟩
    bands, flagBands, flagGroups
    styles := l.styles.map Style.settled }

/-- A success, with all that it has found. -/
inductive Readies (l : Layer) (dc : Datacube) : Layer → Prop where
  | intro {products lowResProducts : List Product} {bands : BandTable} {flagBands : List FlagBand}
      {flagGroups : List FlagGroup}
      (found : findProducts dc l.scope.products "" l.name = .ok products)
      (foundLowRes : findProducts dc l.scope.lowResProducts "low_res " l.name = .ok lowResProducts)
      (measured : l.bands.readied dc = .ok bands)
      (flagged : List.Forall₂ (fun f f' => f.readied dc l.scope = .ok f') l.flagBands flagBands)
      (grouped : FlagGroup.build flagBands = .ok flagGroups) :
      Readies l dc { l with
        life := l.life.ended
        products := ⟨l.products.name, some products⟩
        lowResProducts := ⟨l.lowResProducts.name, some lowResProducts⟩
        bands, flagBands, flagGroups
        styles := l.styles.map Style.settled }

theorem readies_of_readied {l' : Layer} (h : l.readied dc = .ok l') : l.Readies dc l' := by
  obtain ⟨products, hproducts, h⟩ := bind_ok_iff.mp h
  obtain ⟨lowRes, hlowRes, h⟩ := bind_ok_iff.mp h
  obtain ⟨bands, hbands, h⟩ := bind_ok_iff.mp h
  obtain ⟨flagBands, hflagBands, h⟩ := bind_ok_iff.mp h
  obtain ⟨flagGroups, hgroups, h⟩ := bind_ok_iff.mp h
  cases h
  exact .intro hproducts hlowRes hbands (mapM_ok_iff.mp hflagBands) hgroups

theorem outcome_readyProducts : (l.readyProducts dc).outcome = do
    let products ← findProducts dc l.scope.products "" l.name
    let lowResProducts ← findProducts dc l.scope.lowResProducts "low_res " l.name
    return { l with
      life := (l.life.markSet l.products.name).markSet l.lowResProducts.name
      products := ⟨l.products.name, some products⟩
      lowResProducts := ⟨l.lowResProducts.name, some lowResProducts⟩ } := by
  unfold readyProducts
  cases findProducts dc l.scope.products "" l.name with
  | error error => rfl
  | ok products => cases findProducts dc l.scope.lowResProducts "low_res " l.name <;> rfl

theorem outcome_readyBands (fillable : l.bands.Fillable) :
    (l.readyBands dc).outcome = (fun bands => { l with bands }) <$> l.bands.readied dc := by
  rw [readyBands, Attempt.outcome_within, BandTable.outcome_makeReady fillable]

theorem outcome_readyFlagBands (belong : ∀ f ∈ l.flagBands, f.Belongs l.scope) :
    (l.readyFlagBands dc).outcome = (fun flagBands => { l with flagBands }) <$>
      l.flagBands.mapM fun f => f.readied dc l.scope := by
  rw [readyFlagBands, Attempt.outcome_within, Attempt.outcome_each,
    mapM_congr fun f hm => FlagBand.outcome_makeReadyIn (belong f hm)]

theorem outcome_regroup :
    l.regroup.outcome =
      (fun flagGroups => { l with flagGroups }) <$> FlagGroup.build l.flagBands := by
  unfold regroup
  cases FlagGroup.build l.flagBands <;> rfl

theorem outcome_readyStyles (nothing : ∀ s ∈ l.styles, s.life.pending = ∅) :
    l.readyStyles.outcome = .ok { l with styles := l.styles.map Style.settled } := by
  rw [readyStyles, Attempt.outcome_within, Attempt.outcome_each,
    mapM_congr fun s hm => Style.outcome_makeReady (nothing s hm)]
  show _ <$> l.styles.mapM (fun s => pure s.settled) = _
  rw [List.mapM_pure]
  rfl

theorem outcome_makeReady (fillable : l.Fillable) : (l.makeReady dc).outcome = l.readied dc := by
  have filled : ((l.life.markSet l.products.name).markSet l.lowResProducts.name).pending = ∅ := by
    refine NameSet.eq_empty_iff.mpr fun name hm => ?_
    simp only [Lifecycle.mem_pending_markSet] at hm
    obtain ⟨⟨hm, h₁⟩, h₂⟩ := hm
    exact (fillable.own name hm).elim h₁ h₂
  have ended : ((l.life.markSet l.products.name).markSet l.lowResProducts.name).ended =
      l.life.ended := by rw [Lifecycle.ended_markSet, Lifecycle.ended_markSet]
  unfold makeReady readied
  -- Step by step: both sides do the same look-up and go on with what it has found.
  simp only [Attempt.outcome_andThen, outcome_readyProducts, bind_assoc, pure_bind]
  refine bind_congr fun products => bind_congr fun lowResProducts => ?_
  rw [outcome_readyBands (by exact fillable.bands), map_eq_pure_bind, bind_assoc]
  refine bind_congr fun bands => ?_
  rw [pure_bind, outcome_readyFlagBands (by exact fillable.coherent.flagBands),
    map_eq_pure_bind, bind_assoc]
  refine bind_congr fun flagBands => ?_
  rw [pure_bind, outcome_regroup, map_eq_pure_bind, bind_assoc]
  refine bind_congr fun flagGroups => ?_
  rw [pure_bind, outcome_readyStyles (by exact fillable.styles)]
  show (Lifecycle.finish _ _ _).outcome = _
  rw [Lifecycle.finish_eq_done (by simp [filled]), Attempt.outcome_done, ← ended]
  rfl

/-! ## What an attempt leaves behind

Every part of the layer is as it was or as its own step has left it, up to the step that
failed. `readied` makes the same of all of these, and they are `Fillable` still, so the
next attempt has the outcome of the first one. -/

theorem Fillable.makeReady (fillable : l.Fillable) (dc : Datacube) :
    (l.makeReady dc).entry.Fillable := by
  -- The steps in turn: products, bands, flag bands, groups, styles, and the end.
  refine makeReady_entry fillable ?_ ?_ ?_ ?_ ?_ ?_
  · intro l h
    unfold readyProducts
    dsimp only
    split
    · exact h
    · refine ⟨h.coherent.congr rfl ⟨rfl, rfl, rfl, rfl⟩ h.coherent.flagBands, ?_, h.bands, h.styles⟩
      intro name hm
      have life := (Lifecycle.advances_markSet l.life l.products.name).trans
        (Lifecycle.advances_markSet _ l.lowResProducts.name)
      exact h.own name (life.pending name hm)
  · intro l h
    exact ⟨h.coherent.readyBands dc, h.own, (l.bands.leftover_makeReady dc).fillable h.bands,
      h.styles⟩
  · intro l h
    exact ⟨h.coherent.readyFlagBands dc, h.own, h.bands, h.styles⟩
  · intro l h
    unfold regroup
    split
    · exact ⟨h.coherent.congr rfl ⟨rfl, rfl, rfl, rfl⟩ h.coherent.flagBands, h.own, h.bands,
        h.styles⟩
    · exact h
  · intro l h
    refine ⟨h.coherent.congr rfl ⟨rfl, rfl, rfl, rfl⟩ h.coherent.flagBands, h.own, h.bands, ?_⟩
    exact Attempt.forall_each_entry h.styles fun s nothing => Style.pending_makeReady nothing
  · intro l life hlife h
    exact ⟨h.coherent.congr rfl ⟨rfl, rfl, rfl, rfl⟩ h.coherent.flagBands,
      fun name hm => h.own name (hlife.pending name hm), h.bands, h.styles⟩

/-- What an attempt leaves behind has no influence on a later one. -/
theorem readied_makeReady (l : Layer) (dc dc' : Datacube) :
    (l.makeReady dc').entry.readied dc = l.readied dc := by
  -- Each step changes only what `readied` computes anew or does not look at.
  refine makeReady_entry (motive := fun l' => l'.readied dc = l.readied dc) rfl ?_ ?_ ?_ ?_ ?_ ?_
  · intro l' h
    rw [← h]
    unfold readyProducts
    dsimp only
    split
    · rfl
    · have ended : ((l'.life.markSet l'.products.name).markSet l'.lowResProducts.name).ended =
          l'.life.ended := by rw [Lifecycle.ended_markSet, Lifecycle.ended_markSet]
      unfold readied
      rw [← ended]
      rfl
  · intro l' h
    rw [← h]
    unfold readied
    rw [← (l'.bands.leftover_makeReady dc').readied dc]
    rfl
  · intro l' h
    rw [← h]
    have flagBands : (l'.readyFlagBands dc').entry.flagBands.mapM (fun f => f.readied dc l'.scope) =
        l'.flagBands.mapM fun f => f.readied dc l'.scope :=
      Attempt.mapM_each_entry
        (fun f => (f.leftover_makeReadyIn dc' l'.scope).readied dc) l'.flagBands
    unfold readied
    rw [← flagBands]
    rfl
  · intro l' h
    rw [← h]
    unfold regroup
    split <;> rfl
  · intro l' h
    rw [← h]
    have styles : l'.readyStyles.entry.styles.map Style.settled = l'.styles.map Style.settled :=
      Attempt.map_each_entry Style.settled_makeReady l'.styles
    unfold readied
    rw [← styles]
    rfl
  · intro l' life hlife h
    rw [← h]
    unfold readied
    rw [← hlife.ended]
    rfl

end Layer

end MapConfig
