import MapConfig.Proofs.Inclusion.Recursion

/-! What cycle detection does to the expansion. Without it an expansion would be
the plain unfolding of a tree, `Unfolds`, which need not be finite. With it the
result is the same wherever there is one, and there is one exactly when no
string comes back on a nesting of inclusions. -/
namespace MapConfig.Inclusion

/-! ## The specification

`Unfolds` replaces every inclusion by what it leads to and knows nothing of chains;
`Nests` lists the strings of inclusions inside one another. Both are inductive relations
on trees, so that a result of the one is finite and so is a nesting of the other. -/

variable (w : World)

/-- The tree with everything that it includes put in its place, whatever stands
above it. A derivation is finite, and so is what it unfolds. -/
inductive Unfolds : Location → Tree → Tree → Prop where
  | scalar {location : Location} {tree : Tree} (h : tree.IsScalar) : Unfolds location tree tree
  | list {location : Location} {items results : List Tree} (same : items.length = results.length)
      (each : ∀ pair ∈ items.zip results, Unfolds location pair.1 pair.2) :
      Unfolds location (.list items) (.list results)
  | plain {location : Location} {entries results : Mapping}
      (plain : Table.find? entries "include" = none)
      (keys : Table.keys entries = Table.keys results)
      (each : ∀ pair ∈ entries.zip results, Unfolds location pair.1.2 pair.2.2) :
      Unfolds location (.mapping entries) (.mapping results)
  | included {location : Location} {entries : Mapping} {target : String} {kind : Source}
      {inner : Content} {result : Tree}
      (found : Table.find? entries "include" = some (.text target))
      (hkind : source entries = .ok kind) (hinner : content w kind target location = .ok inner)
      (h : Unfolds inner.location inner.tree result) : Unfolds location (.mapping entries) result

/-- The strings of inclusions that are nested in one another, from the outermost
to one that is written inside all others. -/
inductive Nests : Location → Tree → List String → Prop where
  | written {location : Location} {tree : Tree} {directive : Mapping} {target : String}
      (h : tree.Includes directive (.text target)) : Nests location tree [target]
  | inside {location : Location} {tree : Tree} {directive : Mapping} {target : String}
      {kind : Source} {inner : Content} {nested : List String}
      (h : tree.Includes directive (.text target)) (hkind : source directive = .ok kind)
      (hinner : content w kind target location = .ok inner)
      (hn : Nests inner.location inner.tree nested) : Nests location tree (target :: nested)

variable {w} {location : Location} {chain : List String}

theorem Nests.of_part {part tree : Tree} {nested : List String}
    (sub : ∀ directive target, part.Includes directive target → tree.Includes directive target)
    (h : Nests w location part nested) : Nests w location tree nested := by
  cases h with
  | written h => exact .written (sub _ _ h)
  | inside h hkind hinner hn => exact .inside (sub _ _ h) hkind hinner hn

/-! ## Unfolding

One direction is an induction on the calls of the expansion, the other one on the
derivation of the unfolding: the contents of an inclusion are no part of the tree that
includes them, so there is no induction on trees. -/

theorem eq_of_forall_zip {α β : Type} {R : α → β → Prop} {as : List α} {bs bs' : List β}
    (same : as.length = bs.length) (same' : as.length = bs'.length)
    (unique : ∀ pair ∈ as.zip bs, ∀ b', R pair.1 b' → pair.2 = b')
    (each : ∀ pair ∈ as.zip bs', R pair.1 pair.2) : bs = bs' := by
  induction as generalizing bs bs' with
  | nil => rw [List.length_eq_zero_iff.mp same.symm, List.length_eq_zero_iff.mp same'.symm]
  | cons a as ih =>
    obtain ⟨b, bs, rfl⟩ := List.exists_cons_of_length_eq_add_one same.symm
    obtain ⟨b', bs', rfl⟩ := List.exists_cons_of_length_eq_add_one same'.symm
    simp only [List.zip_cons_cons, List.forall_mem_cons] at unique each
    rw [unique.1 b' each.1, ih (by simpa using same) (by simpa using same') unique.2 each.2]

/-- An unfolding has one result. -/
theorem Unfolds.unique {tree result result' : Tree} (h : Unfolds w location tree result)
    (h' : Unfolds w location tree result') : result = result' := by
  induction h generalizing result' with
  | scalar hs =>
    cases h' with
    | scalar => rfl
    | list => cases hs.1
    | plain => cases hs.2
    | included => cases hs.2
  | list same each ih =>
    cases h' with
    | scalar hs => cases hs.1
    | list same' each' =>
      congr 1
      exact eq_of_forall_zip same same' (fun pair hm b' => ih pair hm) each'
  | plain plain keys each ih =>
    cases h' with
    | scalar hs => cases hs.2
    | plain _ keys' each' =>
      -- Both unfoldings have the keys of the mapping, in its order.
      have named := forall₂_iff_forall_zip.mp
        (forall₂_entries_iff (R := Unfolds w _) |>.mpr ⟨keys, each⟩)
      have named' := forall₂_iff_forall_zip.mp
        (forall₂_entries_iff (R := Unfolds w _) |>.mpr ⟨keys', each'⟩)
      congr 1
      refine eq_of_forall_zip (R := fun a b => a.1 = b.1 ∧ Unfolds w _ a.2 b.2) named.1 named'.1
        (fun pair hm b' hb => ?_) named'.2
      exact Prod.ext ((named.2 pair hm).1.symm.trans hb.1) (ih pair hm hb.2)
    | included found => rw [plain] at found; cases found
  | included found hkind hinner _ ih =>
    cases h' with
    | scalar hs => cases hs.2
    | plain plain => rw [found] at plain; cases plain
    | included found' hkind' hinner' h' =>
      rw [found] at found'
      cases found'
      rw [hkind] at hkind'
      cases hkind'
      rw [hinner] at hinner'
      cases hinner'
      exact ih h'

/-- Where the expansion has a result it is that of the unfolding. -/
theorem unfolds_of_expand {tree result : Tree}
    (h : expand w tree location chain = .ok result) : Unfolds w location tree result := by
  -- What an inclusion brings in is no part of the tree: the induction is on calls.
  suffices ∀ call : Call, ∀ result, expand w call.tree call.location call.chain = .ok result →
      Unfolds w call.location call.tree result from this ⟨tree, location, chain⟩ result h
  intro call
  induction call using (calledBy_wellFounded w).induction with
  | h call ih =>
    intro result h
    obtain ⟨tree, location, chain⟩ := call
    cases tree with
    | list items =>
      obtain ⟨results, same, each, rfl⟩ := expand_list_ok_iff.mp h
      exact .list same fun pair hm => ih _ (.item (List.of_mem_zip hm).1) _ (each pair hm)
    | mapping entries =>
      cases hf : Table.find? entries "include" with
      | none =>
        obtain ⟨results, keys, each, rfl⟩ := (expand_plain_ok_iff hf).mp h
        exact .plain hf keys fun pair hm =>
          ih _ (.entry hf (List.of_mem_zip hm).1) _ (each pair hm)
      | some target =>
        obtain ⟨name, kind, inner, rfl, fresh, hkind, hinner, h⟩ :=
          (expand_include_ok_iff hf).mp h
        exact .included hf hkind hinner (ih _ (.content hf fresh hkind hinner) _ h)
    | null | bool | number | text =>
      rw [expand_scalar ⟨rfl, rfl⟩] at h
      cases h
      exact .scalar ⟨rfl, rfl⟩

/-- In an unfolding without repetition nothing is refused. -/
theorem expand_of_unfolds {tree result : Tree} (h : Unfolds w location tree result)
    (fresh : ∀ nested, Nests w location tree nested →
      nested.Nodup ∧ ∀ name ∈ nested, name ∉ chain) :
    expand w tree location chain = .ok result := by
  induction h generalizing chain with
  | scalar hs => exact expand_scalar hs
  | list same each ih =>
    refine expand_list_ok_iff.mpr ⟨_, same, fun pair hm => ?_, rfl⟩
    have hitem := (List.of_mem_zip hm).1
    exact ih pair hm fun nested hn => fresh nested (hn.of_part fun _ _ hi => .item hitem hi)
  | plain plain keys each ih =>
    refine (expand_plain_ok_iff plain).mpr ⟨_, keys, fun pair hm => ?_, rfl⟩
    have hentry := (List.of_mem_zip hm).1
    exact ih pair hm fun nested hn =>
      fresh nested (hn.of_part fun _ _ hi => .entry plain hentry hi)
  | @included location entries target kind inner result found hkind hinner h ih =>
    have here : (Tree.mapping entries).Includes entries (.text target) := .here found
    refine (expand_include_ok_iff found).mpr ⟨target, kind, inner, rfl, ?_, hkind, hinner, ?_⟩
    · exact (fresh [target] (.written here)).2 target (by simp)
    · -- A nesting below the inclusion is one of the node itself with `target` before it.
      refine ih fun nested hn => ?_
      obtain ⟨nodup, above⟩ := fresh (target :: nested) (.inside here hkind hinner hn)
      obtain ⟨notIn, nodup⟩ := List.nodup_cons.mp nodup
      refine ⟨nodup, fun name hname => ?_⟩
      simp only [List.mem_append, List.mem_singleton, not_or]
      exact ⟨above name (by simp [hname]), fun heq => notIn (heq ▸ hname)⟩

/-! ## Repetition

A string that comes back stands on the chain of a call below, which is refused and has
no result. -/

/-- Where there is a result, everything included below was expanded. -/
theorem expand_of_includes {tree result : Tree} {directive : Mapping} {target : Tree}
    (h : expand w tree location chain = .ok result) (hi : tree.Includes directive target) :
    ∃ name kind inner result', target = .text name ∧ name ∉ chain ∧
      source directive = .ok kind ∧ content w kind name location = .ok inner ∧
      expand w inner.tree inner.location (chain ++ [name]) = .ok result' := by
  induction hi generalizing result with
  | here found =>
    obtain ⟨name, kind, inner, ht, fresh, hkind, hinner, h⟩ := (expand_include_ok_iff found).mp h
    exact ⟨name, kind, inner, result, ht, fresh, hkind, hinner, h⟩
  | item hm _ ih =>
    obtain ⟨results, same, each, -⟩ := expand_list_ok_iff.mp h
    obtain ⟨result', hm⟩ := exists_mem_zip same hm
    exact ih (each _ hm)
  | @entry entries entry directive target plain hm _ ih =>
    obtain ⟨results, keys, each, -⟩ := (expand_plain_ok_iff plain).mp h
    have same : entries.length = results.length := by
      simpa [Table.keys] using congrArg List.length keys
    obtain ⟨result', hm⟩ := exists_mem_zip same hm
    exact ih (each _ hm)

/-- Where there is a result, no string came back. -/
theorem fresh_of_expand {tree result : Tree} {nested : List String}
    (h : expand w tree location chain = .ok result) (hn : Nests w location tree nested) :
    nested.Nodup ∧ ∀ name ∈ nested, name ∉ chain := by
  induction hn generalizing chain result with
  | written hi =>
    obtain ⟨name, kind, inner, result', ht, fresh, -⟩ := expand_of_includes h hi
    cases ht
    simpa using fresh
  | inside hi hkind hinner _ ih =>
    obtain ⟨name, kind', inner', result', ht, fresh, hkind', hinner', h⟩ := expand_of_includes h hi
    cases ht
    cases hkind.symm.trans hkind'
    cases hinner.symm.trans hinner'
    -- The inner call has the string on its chain, so it is not nested in itself.
    obtain ⟨nodup, above⟩ := ih h
    simp only [List.mem_append, List.mem_singleton, not_or] at above
    refine ⟨List.nodup_cons.mpr ⟨fun hm => (above _ hm).2 rfl, nodup⟩, ?_⟩
    intro other hm
    rcases List.mem_cons.mp hm with rfl | hm
    · exact fresh
    · exact (above other hm).1

/-! ## Refusal

No other failure is taken for this one. Reading an inclusion gives errors of its own,
and the refusal of a string names the string. -/

theorem source_ne_cyclic (directive : Mapping) (name : String) :
    source directive ≠ .error (.cyclicInclusion name) := by
  intro h
  rw [source] at h
  split at h <;> cases h

theorem content_ne_cyclic (kind : Source) (target : String) (location : Location)
    (name : String) : content w kind target location ≠ .error (.cyclicInclusion name) := by
  have located_ne {α : Type} (x : Except DocumentError α) :
      located x ≠ .error (.cyclicInclusion name) := by
    cases x <;> simp [located]
  intro h
  cases kind with
  | object =>
    rcases bind_error_iff.mp h with h | ⟨_, _, h⟩
    · rw [Objects.resolve] at h
      split at h <;> cases h
    · cases h
  | document =>
    rcases bind_error_iff.mp h with h | ⟨⟨doc, tree⟩, _, h⟩
    · rcases bind_error_iff.mp h with h | ⟨direct, _, h⟩
      · exact located_ne _ h
      · split at h
        · cases h
        · rcases bind_error_iff.mp h with h | ⟨relative, _, h⟩
          · exact located_ne _ h
          · split at h <;> cases h
    · simp only at h
      split at h <;> cases h

/-- A string is refused only where it stands on the chain above. -/
theorem exists_nests_of_cyclic {tree : Tree} {name : String}
    (h : expand w tree location chain = .error (.cyclicInclusion name)) :
    ∃ above, Nests w location tree (above ++ [name]) ∧ name ∈ chain ++ above := by
  suffices ∀ call : Call, expand w call.tree call.location call.chain =
      .error (.cyclicInclusion name) → ∃ above, Nests w call.location call.tree (above ++ [name]) ∧
        name ∈ call.chain ++ above from this ⟨tree, location, chain⟩ h
  intro call
  -- No structural induction: what is included is no part of the tree that includes it.
  induction call using (calledBy_wellFounded w).induction with
  | h call ih =>
    intro h
    obtain ⟨tree, location, chain⟩ := call
    cases tree with
    | list items =>
      rw [expand_list, map_error_iff] at h
      obtain ⟨item, hm, h⟩ := exists_of_mapM_error h
      obtain ⟨above, hn, hname⟩ := ih _ (.item hm) h
      exact ⟨above, hn.of_part fun _ _ hi => .item hm hi, hname⟩
    | mapping entries =>
      cases hf : Table.find? entries "include" with
      | none =>
        rw [expand_plain hf, map_error_iff] at h
        obtain ⟨entry, hm, h⟩ := exists_of_mapM_error h
        rcases bind_error_iff.mp h with h | ⟨_, _, h⟩
        · obtain ⟨above, hn, hname⟩ := ih _ (.entry hf hm) h
          exact ⟨above, hn.of_part fun _ _ hi => .entry hf hm hi, hname⟩
        · cases h
      | some target =>
        rw [expand_include hf] at h
        cases target with
        | text target =>
          have here : (Tree.mapping entries).Includes entries (.text target) := .here hf
          rw [expandTarget] at h
          split at h
          · next hm =>
            cases h
            -- Refused here, so nothing stands between the string and the chain.
            exact ⟨[], .written here, by simpa using hm⟩
          · next fresh =>
            rcases bind_error_iff.mp h with h | ⟨kind, hkind, h⟩
            -- Neither the kind nor the reading gives this failure, so it is the included tree's.
            · exact absurd h (source_ne_cyclic entries name)
            · rcases bind_error_iff.mp h with h | ⟨inner, hinner, h⟩
              · exact absurd h (content_ne_cyclic kind target location name)
              · obtain ⟨above, hn, hname⟩ := ih _ (.content hf fresh hkind hinner) h
                refine ⟨target :: above, .inside here hkind hinner hn, ?_⟩
                simpa [List.append_assoc] using hname
        | null | bool | number | list | mapping => cases h
    | null | bool | number | text =>
      rw [expand_scalar ⟨rfl, rfl⟩] at h
      cases h

/-- Cycle detection changes no result: an expansion succeeds with a tree exactly
when that tree is the finite unfolding and no string stands twice on a nesting
of inclusions or both there and on the chain above. Chains therefore decide
whether there is a result and never which, and only a string that stands on the
chain above it is refused. -/
theorem expand_refines_unfolding (w : World) (tree : Tree) (location : Location)
    (chain : List String) :
    (∀ result, expand w tree location chain = .ok result ↔
      Unfolds w location tree result ∧
        ∀ nested, Nests w location tree nested →
          nested.Nodup ∧ ∀ name ∈ nested, name ∉ chain) ∧
    (∀ chain' result result', expand w tree location chain = .ok result →
      expand w tree location chain' = .ok result' → result = result') ∧
    ∀ name, expand w tree location chain = .error (.cyclicInclusion name) →
      ∃ above, Nests w location tree (above ++ [name]) ∧ name ∈ chain ++ above := by
  refine ⟨fun result => ⟨fun h => ?_, fun h => expand_of_unfolds h.1 h.2⟩, ?_, ?_⟩
  · exact ⟨unfolds_of_expand h, fun nested hn => fresh_of_expand h hn⟩
  · intro chain' result result' h h'
    exact (unfolds_of_expand h).unique (unfolds_of_expand h')
  · intro name h
    exact exists_nests_of_cyclic h

end MapConfig.Inclusion
