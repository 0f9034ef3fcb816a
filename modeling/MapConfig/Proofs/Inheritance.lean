import MapConfig.Inheritance
import MapConfig.Proofs.Results
import MapConfig.Proofs.Tree.Merge

/-! What an entry holds once its directive is applied. A directive stands for the tree
of the entry that it names, or for itself, and the entry is merged over that tree and
marked. This happens once: what is expanded stays as it is, wherever it is expanded
again, and a parent that is named and the same parent written in place give the
same entry.

At a path that does not start with a key of inheritance itself, the entry holds what
merging it over its parent gives; and the parent of a layer that names another one
is the tree that the catalogue has for that name. -/
namespace MapConfig.Inheritance
variable {raw result parent value : Tree} {child directive : Mapping} {key : String}
  {path : List String} {kind : EntryKind} {catalogue : Catalogue}
  {substitutes : Option KeyValues} {defaults keys : KeyValues}

/-! ## What a directive stands for

The specification of the look-up: a directive names an entry if it and the defaults
together have a text for every key of the kind. `parent_ok_iff` is all that the proofs
below use of it. -/

/-- The text for a key: that of the directive, else that of the defaults. -/
def named? (directive : Mapping) (defaults : KeyValues) (key : String) : Option String :=
  ((Table.find? directive key).bind Tree.keyText?).or (defaults.find? key)

/-- The directive and the defaults together name an entry of the kind. -/
def Keyed (directive : Mapping) (kind : EntryKind) (defaults : KeyValues) : Prop :=
  kind.keys ≠ [] ∧ ∀ key ∈ kind.keys, (named? directive defaults key).isSome

instance (directive : Mapping) (kind : EntryKind) (defaults : KeyValues) :
    Decidable (Keyed directive kind defaults) := inferInstanceAs (Decidable (_ ∧ _))

/-- The key values are the texts for the keys of the kind, and no others. -/
def KeysOf (directive : Mapping) (kind : EntryKind) (defaults keys : KeyValues) : Prop :=
  ∀ key, keys.find? key = if key ∈ kind.keys then named? directive defaults key else none

def namedPair? (directive : Mapping) (defaults : KeyValues) (key : String) :
    Option (String × String) := (named? directive defaults key).map fun value => (key, value)

theorem parentKeys?_eq (directive : Mapping) (kind : EntryKind) (defaults : KeyValues) :
    parentKeys? directive kind defaults =
      (kind.keys.mapM (namedPair? directive defaults)).bind fun values =>
        if values.isEmpty then none else some (.ofList values) := by
  have same : (fun key => do
      let value ← ((Table.find? directive key).bind Tree.keyText?).or (defaults.find? key)
      some (key, value)) = namedPair? directive defaults := by
    funext key
    unfold namedPair? named?
    cases ((Table.find? directive key).bind Tree.keyText?).or (defaults.find? key) <;> rfl
  rw [parentKeys?, same]
  rfl

theorem find?_override_namedPairs {wanted : List String} {values : List (String × String)}
    (base : Table String) (h : wanted.mapM (namedPair? directive defaults) = some values)
    (key : String) : (Table.override base values).find? key =
      if key ∈ wanted then named? directive defaults key else base.find? key := by
  induction wanted generalizing base values with
  | nil =>
    cases h
    rfl
  | cons first rest ih =>
    simp only [List.mapM_cons, Option.bind_eq_bind, Option.bind_eq_some_iff, namedPair?,
      Option.map_eq_some_iff] at h
    obtain ⟨_, ⟨value, hvalue, rfl⟩, others, hothers, h⟩ := h
    cases h
    show (Table.override (base.insert first value) others).find? key = _
    rw [ih (base.insert first value) hothers, Table.find?_insert]
    by_cases hfirst : first = key
    · subst hfirst
      simp [hvalue]
    · simp [hfirst, Ne.symm hfirst]

theorem mapM_namedPair?_isSome_iff {wanted : List String} :
    (wanted.mapM (namedPair? directive defaults)).isSome ↔
      ∀ key ∈ wanted, (named? directive defaults key).isSome := by
  induction wanted with
  | nil => simp
  | cons first rest ih =>
    rw [List.forall_mem_cons, ← ih, List.mapM_cons, namedPair?]
    cases named? directive defaults first <;>
      cases rest.mapM (namedPair? directive defaults) <;> simp

theorem isEmpty_namedPairs {wanted : List String} {values : List (String × String)}
    (h : wanted.mapM (namedPair? directive defaults) = some values) :
    values.isEmpty = wanted.isEmpty := by
  cases wanted with
  | nil =>
    cases h
    rfl
  | cons first rest =>
    simp only [List.mapM_cons, Option.bind_eq_bind, Option.bind_eq_some_iff] at h
    obtain ⟨_, _, _, _, h⟩ := h
    cases h
    rfl

/-- A directive that is keyed gives the values of exactly the keys of the kind. -/
theorem exists_keysOf_of_keyed (keyed : Keyed directive kind defaults) :
    ∃ keys, parentKeys? directive kind defaults = some keys ∧
      KeysOf directive kind defaults keys := by
  obtain ⟨some_key, each⟩ := keyed
  obtain ⟨values, hvalues⟩ := Option.isSome_iff_exists.mp (mapM_namedPair?_isSome_iff.mpr each)
  refine ⟨.ofList values, ?_, fun key => ?_⟩
  · rw [parentKeys?_eq, hvalues, Option.bind_some, isEmpty_namedPairs hvalues]
    simpa using some_key
  · exact find?_override_namedPairs [] hvalues key

theorem parentKeys?_of_not_keyed (unkeyed : ¬ Keyed directive kind defaults) :
    parentKeys? directive kind defaults = none := by
  rw [parentKeys?_eq]
  cases hvalues : kind.keys.mapM (namedPair? directive defaults) with
  | none => rfl
  | some values =>
    have each := mapM_namedPair?_isSome_iff.mp (Option.isSome_iff_exists.mpr ⟨values, hvalues⟩)
    have no_key : kind.keys = [] := by
      by_contra some_key
      exact unkeyed ⟨some_key, each⟩
    rw [Option.bind_some, isEmpty_namedPairs hvalues, no_key]
    rfl

theorem KeysOf.unique {keys' : KeyValues} (h : KeysOf directive kind defaults keys)
    (h' : KeysOf directive kind defaults keys') : keys = keys' :=
  OrderedTable.eq_of_find?_eq fun key => (h key).trans (h' key).symm

/-- The tree that a directive stands for: the one that the catalogue has for the
entry it names, or the directive itself where it names none. -/
inductive StandsFor (directive : Mapping) (kind : EntryKind) (catalogue : Catalogue)
    (substitutes : Option KeyValues) (defaults : KeyValues) : Tree → Prop where
  | entry {keys : KeyValues} {record : Record} (keyed : Keyed directive kind defaults)
      (named : KeysOf directive kind defaults keys)
      (found : catalogue.lookup kind keys substitutes = .ok record) :
      StandsFor directive kind catalogue substitutes defaults record.raw
  | itself (unkeyed : ¬ Keyed directive kind defaults) :
      StandsFor directive kind catalogue substitutes defaults (.mapping directive)

theorem parent_ok_iff :
    Inheritance.parent directive kind catalogue substitutes defaults = .ok parent ↔
      StandsFor directive kind catalogue substitutes defaults parent := by
  unfold Inheritance.parent
  by_cases keyed : Keyed directive kind defaults
  · obtain ⟨keys, hkeys, named⟩ := exists_keysOf_of_keyed keyed
    rw [hkeys]
    dsimp only
    constructor
    · intro h
      obtain ⟨record, hrecord, rfl⟩ := map_ok_iff.mp h
      exact .entry keyed named hrecord
    · intro h
      cases h with
      | entry _ named' found =>
        rw [named.unique named', found]
        rfl
      | itself unkeyed => exact absurd keyed unkeyed
  · rw [parentKeys?_of_not_keyed keyed]
    constructor
    · intro h
      cases h
      exact .itself keyed
    · intro h
      cases h with
      | entry keyed' => exact absurd keyed' keyed
      | itself => rfl

/-! ## Expanding

A tree is settled, or it has a directive that is applied; there is no third case in
which an expansion succeeds. -/

/-- Nothing is left to apply: the tree has no directive, or is marked. -/
def Settled (raw : Tree) : Prop := isExpanded raw = true ∨ raw.get? directiveKey = none

theorem Settled.expand (settled : Settled raw) (kind : EntryKind) (catalogue : Catalogue)
    (substitutes : Option KeyValues) (defaults : KeyValues) :
    Inheritance.expand raw kind catalogue substitutes defaults = .ok raw := by
  cases raw with
  | mapping child =>
    unfold Inheritance.expand
    rcases settled with marked | absent
    · simp [marked]
    · rw [Tree.get?_mapping] at absent
      simp [absent]
  | _ => rfl

theorem expand_directive_ok_iff (unmarked : isExpanded (.mapping child) = false)
    (given : Table.find? child directiveKey = some (.mapping directive)) :
    expand (.mapping child) kind catalogue substitutes defaults = .ok result ↔
      ∃ parent, StandsFor directive kind catalogue substitutes defaults parent ∧
        result = join parent child := by
  have step : expand (.mapping child) kind catalogue substitutes defaults =
      (fun parent => join parent child) <$>
        Inheritance.parent directive kind catalogue substitutes defaults := by
    unfold expand
    dsimp only
    rw [unmarked, if_neg Bool.false_ne_true, given]
    rfl
  simp only [step, map_ok_iff, parent_ok_iff, @eq_comm _ result]

/-- What an expansion does to a tree that it does not refuse. -/
theorem expand_ok (h : expand raw kind catalogue substitutes defaults = .ok result) :
    Settled raw ∧ result = raw ∨
      ∃ child directive parent, raw = .mapping child ∧ isExpanded raw = false ∧
        Table.find? child directiveKey = some (.mapping directive) ∧
        StandsFor directive kind catalogue substitutes defaults parent ∧
        result = join parent child := by
  by_cases settled : Settled raw
  · rw [settled.expand] at h
    cases h
    exact .inl ⟨settled, rfl⟩
  · cases raw with
    | mapping child =>
      simp only [Settled, Bool.not_eq_true, not_or, Tree.get?_mapping] at settled
      obtain ⟨unmarked, given⟩ := settled
      obtain ⟨value, hvalue⟩ := Option.ne_none_iff_exists'.mp given
      cases value with
      | mapping directive =>
        obtain ⟨parent, stands, rfl⟩ := (expand_directive_ok_iff unmarked hvalue).mp h
        exact .inr ⟨child, directive, parent, rfl, unmarked, hvalue, stands, rfl⟩
      | _ => simp [expand, unmarked, hvalue] at h
    | _ => exact absurd (.inr rfl) settled

/-! ## What joining gives

Joining touches the keys of inheritance and is a merge for all others. Paths that start
with another key can therefore be read off the laws of merging. -/

theorem exists_join_eq (parent : Tree) (child : Mapping) : ∃ merged,
    Tree.merge parent (.mapping (Table.erase child directiveKey)) = .mapping merged ∧
      join parent child =
        .mapping (Table.insert (Table.erase merged directiveKey) markKey (.bool true)) := by
  obtain ⟨merged, hmerged⟩ : ∃ merged,
      Tree.merge parent (.mapping (Table.erase child directiveKey)) = .mapping merged := by
    cases parent <;> exact ⟨_, rfl⟩
  exact ⟨merged, hmerged, by rw [join, hmerged]⟩

theorem get?_join_directive (parent : Tree) (child : Mapping) :
    (join parent child).get? directiveKey = none := by
  obtain ⟨merged, _, hjoin⟩ := exists_join_eq parent child
  rw [hjoin, Tree.get?_mapping, Table.find?_insert_ne _ _ (by decide), Table.find?_erase,
    if_pos rfl]

theorem get?_join_mark (parent : Tree) (child : Mapping) :
    (join parent child).get? markKey = some (.bool true) := by
  obtain ⟨merged, _, hjoin⟩ := exists_join_eq parent child
  rw [hjoin, Tree.get?_mapping, Table.find?_insert_self]

theorem get?_join (parent : Tree) (child : Mapping) (h : key ∉ [directiveKey, markKey]) :
    (join parent child).get? key =
      (Tree.merge parent (.mapping (Table.erase child directiveKey))).get? key := by
  have directive : directiveKey ≠ key := fun same => h (by simp [same])
  have mark : markKey ≠ key := fun same => h (by simp [same])
  obtain ⟨merged, hmerged, hjoin⟩ := exists_join_eq parent child
  rw [hjoin, hmerged, Tree.get?_mapping, Tree.get?_mapping, Table.find?_insert_ne _ _ mark,
    Table.find?_erase, if_neg directive]

theorem at?_erase (h : key ∉ [directiveKey, markKey]) :
    (Tree.mapping (Table.erase child directiveKey)).at? (key :: path) =
      (Tree.mapping child).at? (key :: path) := by
  have other : directiveKey ≠ key := fun same => h (by simp [same])
  rw [Tree.at?_cons, Tree.at?_cons, Tree.get?_mapping, Tree.get?_mapping, Table.find?_erase,
    if_neg other]

theorem leavesOpen_erase (h : key ∉ [directiveKey, markKey]) :
    (Tree.mapping (Table.erase child directiveKey)).LeavesOpen (key :: path) ↔
      (Tree.mapping child).LeavesOpen (key :: path) := by
  have other : directiveKey ≠ key := fun same => h (by simp [same])
  rw [Tree.leavesOpen_mapping_cons, Tree.leavesOpen_mapping_cons, Table.find?_erase, if_neg other]

theorem at?_join (parent : Tree) (child : Mapping) (h : key ∉ [directiveKey, markKey]) :
    (join parent child).at? (key :: path) =
      (Tree.merge parent (.mapping (Table.erase child directiveKey))).at? (key :: path) := by
  rw [Tree.at?_cons, Tree.at?_cons, get?_join parent child h]

/-- One step of a line of inheritance. -/
theorem at?_join_iff (canonical : (Tree.mapping child).Canonical) (leaf : value.mapping? = none)
    (h : key ∉ [directiveKey, markKey]) : (join parent child).at? (key :: path) = some value ↔
      (Tree.mapping child).at? (key :: path) = some value ∨
        (Tree.mapping child).LeavesOpen (key :: path) ∧ parent.at? (key :: path) = some value := by
  rw [at?_join parent child h, Tree.at?_merge_iff (canonical.erase directiveKey) leaf,
    at?_erase h, leavesOpen_erase h]

/-! ## Canonical trees

Joining keeps the keys in order, which the laws of merging ask for. -/

/-- The tree of every entry of the catalogue is canonical. -/
def CanonicalRecords (catalogue : Catalogue) : Prop :=
  ∀ record ∈ catalogue.records, record.raw.Canonical

theorem mem_of_find? {record : Record} (h : catalogue.find? kind keys = some record) :
    record ∈ catalogue.records := by
  obtain ⟨identity, _, h⟩ := Option.bind_eq_some_iff.mp h
  exact List.mem_of_find?_eq_some h

theorem mem_of_lookup {record : Record} (h : catalogue.lookup kind keys substitutes = .ok record) :
    record ∈ catalogue.records := by
  unfold Catalogue.lookup at h
  dsimp only at h
  split at h
  · next found =>
    cases h
    rcases Option.or_eq_some_iff.mp found with substituted | ⟨_, found⟩
    · split at substituted
      · split at substituted
        · cases substituted
        · exact mem_of_find? substituted
      · cases substituted
    · exact mem_of_find? found
  · cases h

theorem canonical_join (hparent : parent.Canonical) (hchild : (Tree.mapping child).Canonical) :
    (join parent child).Canonical := by
  obtain ⟨merged, hmerged, hjoin⟩ := exists_join_eq parent child
  have canonical := hparent.merge (hchild.erase directiveKey)
  rw [hmerged] at canonical
  rw [hjoin]
  exact (canonical.erase directiveKey).insert markKey trivial

/-- What canonical trees inherit from canonical trees is canonical. -/
theorem canonical_of_expand (canonical : raw.Canonical) (records : CanonicalRecords catalogue)
    (h : expand raw kind catalogue substitutes defaults = .ok result) : result.Canonical := by
  rcases expand_ok h with ⟨_, rfl⟩ | ⟨child, directive, parent, rfl, _, given, stands, rfl⟩
  · exact canonical
  · refine canonical_join ?_ canonical
    cases stands with
    | entry _ _ found => exact records _ (mem_of_lookup found)
    | itself _ => exact canonical.value given

/-! ## Inheritance is final

The mark is set in every result, so a result is settled whatever it is expanded with. -/

theorem settled_join (parent : Tree) (child : Mapping) : Settled (join parent child) :=
  .inr (get?_join_directive parent child)

theorem settled_of_expand (h : expand raw kind catalogue substitutes defaults = .ok result) :
    Settled result := by
  rcases expand_ok h with ⟨settled, rfl⟩ | ⟨child, _, parent, _, _, _, _, rfl⟩
  · exact settled
  · exact settled_join parent child

/-- A child in which the directive is replaced joins a parent in the same way. -/
theorem join_insert_directive (parent value : Tree) (child : Mapping) :
    join parent (Table.insert child directiveKey value) = join parent child := by
  rw [join, join, Table.erase_insert_self]

theorem isExpanded_insert_directive (child : Mapping) (value : Tree) :
    isExpanded (.mapping (Table.insert child directiveKey value)) =
      isExpanded (.mapping child) := by
  rw [isExpanded, isExpanded, Tree.get?_mapping, Tree.get?_mapping,
    Table.find?_insert_ne _ _ (by decide)]

/-- Inheritance is final: what an expansion gives stays as it is, whatever it is
expanded with. Where a directive was applied the result is the entry merged over what
the directive stands for, marked and without a directive. An entry that names its
parent, and one that has the parent's tree in place of the name, where that tree does
not name an entry itself, give the same result. -/
theorem inheritance_is_final :
    (∀ raw kind catalogue substitutes defaults result,
      expand raw kind catalogue substitutes defaults = .ok result →
        (∀ kind' catalogue' substitutes' defaults',
          expand result kind' catalogue' substitutes' defaults' = .ok result) ∧
        ∀ child value, raw = .mapping child → isExpanded raw = false →
          Table.find? child directiveKey = some value →
            ∃ directive parent merged, value = .mapping directive ∧
              StandsFor directive kind catalogue substitutes defaults parent ∧
              Tree.merge parent (.mapping (Table.erase child directiveKey)) = .mapping merged ∧
              result =
                .mapping (Table.insert (Table.erase merged directiveKey) markKey (.bool true)) ∧
              result.get? directiveKey = none ∧ result.get? markKey = some (.bool true) ∧
              ∀ key ∉ [directiveKey, markKey], result.get? key = Table.find? merged key) ∧
    ∀ child directive kind catalogue substitutes defaults keys record inherited,
      isExpanded (.mapping child) = false →
      Table.find? child directiveKey = some (.mapping directive) →
      Keyed directive kind defaults → KeysOf directive kind defaults keys →
      Catalogue.lookup catalogue kind keys substitutes = .ok record →
      record.raw = .mapping inherited →
        ∃ result, expand (.mapping child) kind catalogue substitutes defaults = .ok result ∧
          ∀ kind' catalogue' substitutes' defaults', ¬ Keyed inherited kind' defaults' →
            expand (.mapping (Table.insert child directiveKey (.mapping inherited)))
              kind' catalogue' substitutes' defaults' = .ok result := by
  constructor
  · intro raw kind catalogue substitutes defaults result h
    refine ⟨(settled_of_expand h).expand, ?_⟩
    rintro child value rfl unmarked given
    obtain ⟨settled, _⟩ | ⟨_, directive, parent, same, _, given', stands, rfl⟩ := expand_ok h
    -- An unmarked entry with a directive is not passed on as it is.
    · simp [Settled, unmarked, given] at settled
    · cases same
      obtain rfl := Option.some.inj (given.symm.trans given')
      obtain ⟨merged, hmerged, hjoin⟩ := exists_join_eq parent child
      exact ⟨directive, parent, merged, rfl, stands, hmerged, hjoin,
        get?_join_directive parent child, get?_join_mark parent child,
        fun key other => by rw [get?_join parent child other, hmerged, Tree.get?_mapping]⟩
  · intro child directive kind catalogue substitutes defaults keys record inherited
      unmarked given keyed named found written
    refine ⟨join record.raw child, ?_, fun kind' catalogue' substitutes' defaults' unkeyed => ?_⟩
    · exact (expand_directive_ok_iff unmarked given).mpr ⟨_, .entry keyed named found, rfl⟩
    -- The embedded tree names no entry, so it is the parent itself.
    · have unmarked' := (isExpanded_insert_directive child (.mapping inherited)).trans unmarked
      have given' := Table.find?_insert_self child directiveKey (.mapping inherited)
      refine (expand_directive_ok_iff unmarked' given').mpr ⟨_, .itself unkeyed, ?_⟩
      rw [join_insert_directive, written]

/-! ### A style that names another one of its layer

The layer is left to the defaults. Without them the parent that is written in place
names no entry. -/

/-- The parent has a directive of its own, which is not applied again. -/
def namedStyle : Mapping := [
  ("inherits", .mapping [("style", .text "gray")]),
  ("name", .text "rgb"),
  ("needed_bands", .list [.text "red"])]

def namingStyle : Mapping := [
  ("inherits", .mapping [("style", .text "rgb")]),
  ("name", .text "bright")]

def joinedStyle : Mapping := [
  ("inheritance_expanded", .bool true),
  ("name", .text "bright"),
  ("needed_bands", .list [.text "red"])]

def namedStyles : Catalogue :=
  ⟨[⟨.style, styleKeys "l" "rgb", .mapping namedStyle⟩]⟩

/-- Without a layer, the parent in place of the name names no entry. -/
theorem inheritance_is_final_style :
    expand (.mapping namingStyle) .style namedStyles none (layerKeys "l") =
        .ok (.mapping joinedStyle) ∧
      expand (.mapping (Table.insert namingStyle directiveKey (.mapping namedStyle)))
        .style Catalogue.empty none ∅ = .ok (.mapping joinedStyle) ∧
      expand (.mapping joinedStyle) .layer Catalogue.empty (some (layerKeys "m")) ∅ =
        .ok (.mapping joinedStyle) ∧
      Table.find? joinedStyle directiveKey = none ∧
      Table.find? joinedStyle markKey = some (.bool true) := by
  have keyed : Keyed [("style", .text "rgb")] .style (layerKeys "l") := by decide +kernel
  obtain ⟨keys, hkeys, named⟩ := exists_keysOf_of_keyed keyed
  have found : parentKeys? [("style", .text "rgb")] .style (layerKeys "l") =
      some (styleKeys "l" "rgb") := by decide +kernel
  obtain rfl := Option.some.inj (hkeys.symm.trans found)
  have expanded : expand (.mapping namingStyle) .style namedStyles none (layerKeys "l") =
      .ok (.mapping joinedStyle) := rfl
  obtain ⟨result, byName, inPlace⟩ := inheritance_is_final.2 namingStyle _ .style namedStyles none
    _ _ _ namedStyle rfl rfl keyed named rfl rfl
  cases expanded.symm.trans byName
  obtain ⟨final, joined⟩ := inheritance_is_final.1 _ _ _ _ _ _ expanded
  obtain ⟨_, _, _, _, _, _, _, absent, marked, _⟩ := joined namingStyle _ rfl rfl rfl
  have unkeyed : ¬ Keyed namedStyle .style ∅ := by decide +kernel
  exact ⟨expanded, inPlace _ _ _ _ unkeyed, final _ _ _ _, absent, marked⟩

/-! ## Layers that name their parent

For a layer there is one key only, and the directive alone gives it. -/

/-- The entry of a layer has a directive that names another layer, and is not
marked as expanded. -/
structure Names (entry : Tree) (name : String) : Prop where
  unmarked : isExpanded entry = false
  named : ∃ directive, entry.get? directiveKey = some (.mapping directive) ∧
    (Table.find? directive "layer").bind Tree.keyText? = some name

theorem parentKeys?_layer {directive : Mapping} {name : String}
    (h : (Table.find? directive "layer").bind Tree.keyText? = some name) :
    parentKeys? directive .layer ∅ = some (layerKeys name) := by
  simp [parentKeys?, EntryKind.layer, h, layerKeys]

theorem exists_join_of_names {entry expanded : Tree} {name : String} {c : Catalogue}
    (names : Names entry name) (h : expand entry .layer c none ∅ = .ok expanded) :
    ∃ child record, entry = .mapping child ∧ c.find? .layer (layerKeys name) = some record ∧
      expanded = join record.raw child := by
  obtain ⟨directive, hdirective, hname⟩ := names.named
  cases entry with
  | mapping child =>
    rw [Tree.get?_mapping] at hdirective
    obtain ⟨parent, stands, rfl⟩ := (expand_directive_ok_iff names.unmarked hdirective).mp h
    have hparent := parent_ok_iff.mpr stands
    rw [Inheritance.parent, parentKeys?_layer hname] at hparent
    obtain ⟨record, hrecord, rfl⟩ := map_ok_iff.mp hparent
    refine ⟨child, record, rfl, ?_, rfl⟩
    -- Nothing is substituted: the key values are looked up as they are.
    unfold Catalogue.lookup at hrecord
    dsimp only at hrecord
    rw [Option.none_or] at hrecord
    split at hrecord
    · next hf =>
      cases hrecord
      exact hf
    · cases hrecord
  | _ => cases hdirective

end MapConfig.Inheritance
