import MapConfig.Json.Reader
import MapConfig.Proofs.Tree

/-! What the reader reads is canonical. All that it has read at any time is, the
entries of the mappings that are still open included: a key that is repeated
takes the place of the earlier one. -/
namespace MapConfig.Json

/-! ## Tokens

Containers are put together of several tokens. A single token carries a scalar or
nothing, so whatever it brings is canonical. -/

/-- The value of a token is a scalar. -/
def Token.Plain : Token → Prop
  | .scalar value => value.IsScalar
  | _ => True

theorem plain_of_numberToken? {text rest : List Char} {token : Token}
    (h : numberToken? text = some (token, rest)) : token.Plain := by
  simp only [numberToken?, Option.bind_eq_bind, Option.bind_eq_some_iff] at h
  obtain ⟨_, _, _, _, _, _, number, _, h⟩ := h
  cases h
  exact ⟨rfl, rfl⟩

theorem plain_of_token? {text rest : List Char} {token : Token}
    (h : token? text = some (token, rest)) : token.Plain := by
  unfold token? at h
  split at h
  case h_10 =>
    obtain ⟨_, _, h⟩ := Option.map_eq_some_iff.mp h
    cases h
    exact ⟨rfl, rfl⟩
  case h_11 => exact plain_of_numberToken? h
  all_goals
    cases h
    first | exact trivial | exact ⟨rfl, rfl⟩

theorem plain_of_tokensWithin? {bound : Nat} {text : List Char} {tokens : List Token}
    (h : tokensWithin? bound text = some tokens) : ∀ token ∈ tokens, token.Plain := by
  fun_induction tokensWithin? bound text generalizing tokens with
  | case1 =>
    cases h
    simp
  | case2 => cases h
  | case3 _ _ _ ih =>
    obtain ⟨⟨token, rest⟩, first, h⟩ := Option.bind_eq_some_iff.mp h
    obtain ⟨others, later, h⟩ := Option.bind_eq_some_iff.mp h
    cases h
    exact List.forall_mem_cons.mpr ⟨plain_of_token? first, ih rest later⟩

/-! ## Progress

The step lemma goes through the clauses of a step, and the run lemma is an induction on
the tokens. A key that is read again is inserted into entries that are in order already. -/

def Frame.Canonical : Frame → Prop
  | .items before => ∀ item ∈ before, item.Canonical
  | .entries before _ => (Tree.mapping before).Canonical

/-- The invariant of reading. -/
def Progress.Canonical : Progress → Prop
  | .value stack | .firstItem stack | .firstKey stack => ∀ frame ∈ stack, frame.Canonical
  | .afterItem before stack =>
    (∀ item ∈ before, item.Canonical) ∧ ∀ frame ∈ stack, frame.Canonical
  | .key before stack | .colon before _ stack | .afterEntry before stack =>
    (Tree.mapping before).Canonical ∧ ∀ frame ∈ stack, frame.Canonical
  | .done tree => tree.Canonical

theorem canonical_deliver {value : Tree} (h : value.Canonical) {stack : List Frame}
    (frames : ∀ frame ∈ stack, frame.Canonical) : (deliver value stack).Canonical := by
  cases stack with
  | nil => exact h
  | cons frame stack =>
    obtain ⟨first, others⟩ := List.forall_mem_cons.mp frames
    cases frame with
    | items before => exact ⟨List.forall_mem_cons.mpr ⟨h, first⟩, others⟩
    | entries before key => exact ⟨Tree.Canonical.insert first key h, others⟩

theorem canonical_startValue? {stack : List Frame} (frames : ∀ frame ∈ stack, frame.Canonical)
    {token : Token} (plain : token.Plain) {next : Progress}
    (h : startValue? stack token = some next) : next.Canonical := by
  unfold startValue? at h
  split at h
  · cases h
    exact canonical_deliver plain.canonical frames
  · split at h
    · cases h
      exact frames
    · cases h
  · split at h
    · cases h
      exact frames
    · cases h
  · cases h

theorem Progress.Canonical.step {progress next : Progress} (h : progress.Canonical)
    {token : Token} (plain : token.Plain) (hstep : progress.step? token = some next) :
    next.Canonical := by
  have empty : (Tree.mapping []).Canonical := Tree.canonical_mapping_iff.mpr ⟨.nil, by simp⟩
  unfold Progress.step? at hstep
  -- One case for each clause of the step, in their order; the last fits no token.
  split at hstep
  · exact canonical_startValue? h plain hstep
  · cases hstep
    exact canonical_deliver (Tree.canonical_list_iff.mpr (by simp)) h
  · refine canonical_startValue? (List.forall_mem_cons.mpr ⟨?_, h⟩) plain hstep
    exact fun item hm => by cases hm
  · cases hstep
    exact List.forall_mem_cons.mpr h
  · cases hstep
    exact canonical_deliver (Tree.canonical_list_iff.mpr (by simpa using h.1)) h.2
  · cases hstep
    exact canonical_deliver empty h
  · cases hstep
    exact ⟨empty, h⟩
  · cases hstep
    exact h
  · cases hstep
    exact List.forall_mem_cons.mpr h
  · cases hstep
    exact h
  · cases hstep
    exact canonical_deliver h.1 h.2
  · cases hstep

theorem canonical_of_foldlM {tokens : List Token} (plain : ∀ token ∈ tokens, token.Plain)
    {start last : Progress} (h : start.Canonical)
    (hlast : tokens.foldlM Progress.step? start = some last) : last.Canonical := by
  induction tokens generalizing start with
  | nil =>
    cases hlast
    exact h
  | cons token tokens ih =>
    obtain ⟨first, plain⟩ := List.forall_mem_cons.mp plain
    rw [List.foldlM_cons] at hlast
    obtain ⟨next, hnext, hlast⟩ := Option.bind_eq_some_iff.mp hlast
    exact ih plain (h.step first hnext) hlast

theorem canonical_of_parse? {text : String} {tree : Tree} (h : parse? text = some tree) :
    tree.Canonical := by
  obtain ⟨tokens, htokens, h⟩ := Option.bind_eq_some_iff.mp h
  obtain ⟨progress, hprogress, h⟩ := Option.bind_eq_some_iff.mp h
  have read := canonical_of_foldlM (plain_of_tokensWithin? htokens)
    (show (Progress.value []).Canonical from fun _ hm => by cases hm) hprogress
  cases progress with
  | done value =>
    cases h
    exact read
  | _ => cases h

theorem canonical_of_parseBytes? {bytes : ByteArray} {tree : Tree}
    (h : parseBytes? bytes = some tree) : tree.Canonical := by
  obtain ⟨text, _, h⟩ := Option.bind_eq_some_iff.mp h
  exact canonical_of_parse? h

end MapConfig.Json
