import Mathlib.Data.List.Forall2

/-! Steps that may fail. What the success or the failure of a chain of steps,
and of one step taken over a list, says of the single steps.

A chain of steps is unfolded with `bind_ok_iff` where it succeeds and with
`bind_error_iff` where it fails. Steps over a list become relations between the list and
its results, `mapM_ok_iff`, in which the order and the number of the elements are kept. -/
namespace MapConfig

universe u v w
variable {ε : Type u} {α : Type v} {β : Type w}

theorem bind_ok_iff {α β : Type v} {x : Except ε α} {f : α → Except ε β} {b : β} :
    x >>= f = .ok b ↔ ∃ a, x = .ok a ∧ f a = .ok b := by
  cases x <;> simp [Bind.bind, Except.bind]

theorem bind_error_iff {α β : Type v} {x : Except ε α} {f : α → Except ε β} {e : ε} :
    x >>= f = .error e ↔ x = .error e ∨ ∃ a, x = .ok a ∧ f a = .error e := by
  cases x <;> simp [Bind.bind, Except.bind]

/-- What follows a step matters only where the step succeeds. -/
theorem bind_congr_ok {α β : Type v} {x : Except ε α} {f g : α → Except ε β}
    (h : ∀ a, x = .ok a → f a = g a) : x >>= f = x >>= g := by
  cases x with
  | error => rfl
  | ok a => exact h a rfl

theorem map_ok_iff {α β : Type v} {x : Except ε α} {f : α → β} {b : β} :
    f <$> x = .ok b ↔ ∃ a, x = .ok a ∧ f a = b := by
  cases x <;> simp [Functor.map, Except.map]

theorem map_error_iff {α β : Type v} {x : Except ε α} {f : α → β} {e : ε} :
    f <$> x = .error e ↔ x = .error e := by
  cases x <;> simp [Functor.map, Except.map]

/-- A result with a property that can be tested. -/
theorem exists_ok_of_any {x : Except ε α} {p : α → Bool} (h : x.toOption.any p = true) :
    ∃ a, x = .ok a ∧ p a = true := by
  cases x with
  | error e => cases h
  | ok a => exact ⟨a, rfl, h⟩

theorem forall₂_iff_forall_zip {R : α → β → Prop} {as : List α} {bs : List β} :
    List.Forall₂ R as bs ↔ as.length = bs.length ∧ ∀ pair ∈ as.zip bs, R pair.1 pair.2 := by
  rw [List.forall₂_iff_zip, Prod.forall]

theorem exists_mem_zip {as : List α} {bs : List β} (same : as.length = bs.length) {a : α}
    (h : a ∈ as) : ∃ b, (a, b) ∈ as.zip bs := by
  obtain ⟨i, hi, rfl⟩ := List.mem_iff_getElem.mp h
  exact ⟨bs[i], List.mem_iff_getElem.mpr ⟨i, by simpa [same] using same ▸ hi, by simp⟩⟩

theorem exists_mem_zip_right {as : List α} {bs : List β} (same : as.length = bs.length) {b : β}
    (h : b ∈ bs) : ∃ a, (a, b) ∈ as.zip bs := by
  obtain ⟨i, hi, rfl⟩ := List.mem_iff_getElem.mp h
  exact ⟨as[i], List.mem_iff_getElem.mpr ⟨i, by simpa [same] using hi, by simp⟩⟩

theorem exists_mem_of_forall₂ {R : α → β → Prop} {as : List α} {bs : List β}
    (h : List.Forall₂ R as bs) {a : α} (hm : a ∈ as) : ∃ b ∈ bs, R a b := by
  obtain ⟨same, each⟩ := forall₂_iff_forall_zip.mp h
  obtain ⟨b, hpair⟩ := exists_mem_zip same hm
  exact ⟨b, (List.of_mem_zip hpair).2, each _ hpair⟩

theorem exists_mem_of_forall₂_right {R : α → β → Prop} {as : List α} {bs : List β}
    (h : List.Forall₂ R as bs) {b : β} (hm : b ∈ bs) : ∃ a ∈ as, R a b := by
  obtain ⟨same, each⟩ := forall₂_iff_forall_zip.mp h
  obtain ⟨a, hpair⟩ := exists_mem_zip_right same hm
  exact ⟨a, (List.of_mem_zip hpair).1, each _ hpair⟩

theorem forall₂_comp {γ : Type*} {R : α → β → Prop} {S : β → γ → Prop} {as : List α}
    {bs : List β} {cs : List γ} (h : List.Forall₂ R as bs) (h' : List.Forall₂ S bs cs) :
    List.Forall₂ (fun a c => ∃ b, R a b ∧ S b c) as cs := by
  induction h generalizing cs with
  | nil =>
    cases h'
    exact .nil
  | cons first _ ih =>
    cases h' with
    | cons first' rest' => exact .cons ⟨_, first, first'⟩ (ih rest')

/-- What a step does not change is the same in a list and in its results. -/
theorem map_eq_of_forall₂ {γ : Type*} {R : α → β → Prop} {f : α → γ} {g : β → γ}
    (same : ∀ a b, R a b → g b = f a) {as : List α} {bs : List β} (h : List.Forall₂ R as bs) :
    bs.map g = as.map f := by
  induction h with
  | nil => rfl
  | cons first _ ih => rw [List.map_cons, List.map_cons, same _ _ first, ih]

/-- A step over a list succeeds when it does on every element. -/
theorem mapM_ok_iff {f : α → Except ε β} {as : List α} {bs : List β} :
    as.mapM f = .ok bs ↔ List.Forall₂ (fun a b => f a = .ok b) as bs := by
  induction as generalizing bs with
  | nil =>
    rw [List.mapM_nil, List.forall₂_nil_left_iff]
    exact ⟨fun h => (Except.ok.inj h).symm, fun h => h ▸ rfl⟩
  | cons a as ih =>
    simp only [List.mapM_cons, bind_ok_iff, ih, List.forall₂_cons_left_iff]
    constructor
    · rintro ⟨b, hb, rest, hrest, h⟩
      exact ⟨b, rest, hb, hrest, (Except.ok.inj h).symm⟩
    · rintro ⟨b, rest, hb, hrest, rfl⟩
      exact ⟨b, hb, rest, hrest, rfl⟩

theorem exists_of_mem_mapM {f : α → Except ε β} {as : List α} {bs : List β}
    (h : as.mapM f = .ok bs) {b : β} (hm : b ∈ bs) : ∃ a ∈ as, f a = .ok b :=
  exists_mem_of_forall₂_right (mapM_ok_iff.mp h) hm

theorem mem_iff_of_mapM {f : α → Except ε β} {as : List α} {bs : List β}
    (h : as.mapM f = .ok bs) {b : β} : b ∈ bs ↔ ∃ a ∈ as, f a = .ok b := by
  refine ⟨exists_of_mem_mapM h, ?_⟩
  rintro ⟨a, hm, ha⟩
  obtain ⟨b', hm', ha'⟩ := exists_mem_of_forall₂ (mapM_ok_iff.mp h) hm
  cases ha.symm.trans ha'
  exact hm'

/-- What is told of each result by its element is told of all results in order. -/
theorem map_eq_map_of_mapM {γ : Type*} {f : α → Except ε β} {g : β → γ} {k : α → γ} {as : List α}
    {bs : List β} (h : as.mapM f = .ok bs) (same : ∀ a b, f a = .ok b → g b = k a) :
    bs.map g = as.map k := by
  induction mapM_ok_iff.mp h with
  | nil => rfl
  | cons first rest ih =>
    rw [List.map_cons, List.map_cons, same _ _ first, ih (mapM_ok_iff.mpr rest)]

/-- A step over a list fails with the failure of some element. -/
theorem exists_of_mapM_error {f : α → Except ε β} {as : List α} {e : ε}
    (h : as.mapM f = .error e) : ∃ a ∈ as, f a = .error e := by
  induction as with
  | nil => cases h
  | cons a as ih =>
    rw [List.mapM_cons, bind_error_iff] at h
    rcases h with h | ⟨b, _, h⟩
    · exact ⟨a, by simp, h⟩
    · rw [bind_error_iff] at h
      rcases h with h | ⟨_, _, h⟩
      · obtain ⟨a', hm, ha'⟩ := ih h
        exact ⟨a', by simp [hm], ha'⟩
      · cases h

/-- What every successful step keeps, a successful run keeps. -/
theorem foldlM_ok_induction {motive : β → Prop} {step : β → α → Except ε β} {as : List α}
    {start result : β} (h : as.foldlM step start = .ok result) (base : motive start)
    (keeps : ∀ b a b', motive b → step b a = .ok b' → motive b') : motive result := by
  induction as generalizing start with
  | nil =>
    cases h
    exact base
  | cons a as ih =>
    rw [List.foldlM_cons, bind_ok_iff] at h
    obtain ⟨next, hnext, h⟩ := h
    exact ih h (keeps start a next base hnext)

theorem mapM_congr {f g : α → Except ε β} {as : List α} (h : ∀ a ∈ as, f a = g a) :
    as.mapM f = as.mapM g := by
  induction as with
  | nil => rfl
  | cons a as ih =>
    rw [List.mapM_cons, List.mapM_cons, h a (by simp), ih fun a' hm => h a' (by simp [hm])]

theorem isSome_mapM_iff {α β : Type} {f : α → Option β} {as : List α} :
    (as.mapM f).isSome ↔ ∀ a ∈ as, (f a).isSome := by
  induction as with
  | nil => simp
  | cons a as ih =>
    rw [List.forall_mem_cons, ← ih, List.mapM_cons]
    cases f a <;> cases as.mapM f <;> simp

theorem mapM_eq_some_iff {α β : Type} {f : α → Option β} {as : List α} {bs : List β} :
    as.mapM f = some bs ↔ as.map f = bs.map some := by
  induction as generalizing bs with
  | nil => cases bs <;> simp
  | cons a as ih =>
    rw [List.mapM_cons, List.map_cons]
    cases bs with
    | nil => cases f a <;> cases as.mapM f <;> simp
    | cons b bs =>
      rw [List.map_cons, List.cons.injEq, ← ih]
      cases f a <;> cases as.mapM f <;> simp

end MapConfig
