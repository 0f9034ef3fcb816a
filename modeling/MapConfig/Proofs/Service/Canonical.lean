import MapConfig.Proofs.Inclusion.Canonical
import MapConfig.Proofs.Service.Inheritance
import MapConfig.Proofs.Style.Labels
import MapConfig.Proofs.Tree.Canonical

/-! The trees of a service that is loaded from its documents. Every document is read as
a canonical tree, and neither inclusion nor inheritance puts keys out of order. So all
that has been shown of canonical trees holds of a loaded service: its trees merge by
the laws of `CanonicalTree`, the nearest definition wins along its lines of layers, and
the rules of its styles stand under bands in order. -/
namespace MapConfig

/-- Entries that are loaded from sources of one sort have what each loading gives them,
as long as the states on the way keep what each loading needs. -/
theorem LoadsInTurn.forall_of_each {α β σ : Type} {Loads : α → σ → β → σ → Prop} {as : List α}
    {bs : List β} {s s' : σ} {Given : α → Prop} {P : σ → Prop} {Loaded : β → Prop}
    (step : ∀ a s b s', Loads a s b s' → Given a → P s → P s' ∧ Loaded b)
    (h : LoadsInTurn Loads as s bs s') (given : ∀ a ∈ as, Given a) (start : P s) :
    P s' ∧ ∀ b ∈ bs, Loaded b := by
  induction h with
  | nil => exact ⟨start, by simp⟩
  | cons first _ ih =>
    obtain ⟨here, others⟩ := List.forall_mem_cons.mp given
    obtain ⟨kept, loaded⟩ := step _ _ _ _ first here start
    obtain ⟨kept, rest⟩ := ih others kept
    exact ⟨kept, List.forall_mem_cons.mpr ⟨loaded, rest⟩⟩

theorem Inheritance.CanonicalRecords.register {c c' : Catalogue} {kind : EntryKind}
    {keys : KeyValues} {raw : Tree} (records : CanonicalRecords c) (canonical : raw.Canonical)
    (h : c.register kind keys raw = .ok c') : CanonicalRecords c' := by
  obtain ⟨_, _, rfl⟩ := Catalogue.register_ok h
  intro record hm
  rcases List.mem_append.mp hm with hm | hm
  · exact records record hm
  · cases List.mem_singleton.mp hm
    exact canonical

/-! ## Styles and layers

Two invariants go along the loading: the records of the catalogue are canonical, and so
are the trees of the entries built so far. A layer and its styles keep both. -/

namespace Style
variable {scope : LayerScope} {functions : Objects HostFunction} {raw : Tree}
  {r r' : Registries} {s : Style}

theorem Loads.canonical (h : Loads scope functions raw r s r') (canonical : raw.Canonical)
    (records : Inheritance.CanonicalRecords r.catalogue) :
    Inheritance.CanonicalRecords r'.catalogue ∧ s.valueMap.Sorted := by
  cases h with
  | intro expanded _ _ parts entered =>
    have settings := Inheritance.canonical_of_expand canonical records expanded
    have own := (ofMapping_ok parts).1
    refine ⟨records.register ?_ entered, sorted_of_ofMapping settings parts⟩
    rw [own]
    exact settings

end Style

namespace Layer
variable {above : Heritage} {functions : Objects HostFunction} {raw : Tree}
  {r r' : Registries} {l : Layer}

theorem canonical_of_stylingOf {cfg styling : Mapping} {subject : String} {trees : List Tree}
    (canonical : (Tree.mapping cfg).Canonical) (h : stylingOf cfg subject = .ok (styling, trees)) :
    ∀ tree ∈ trees, tree.Canonical := by
  unfold stylingOf at h
  split at h
  · cases h
  · next given found =>
    obtain ⟨entries, mapped, chosen⟩ := bind_ok_iff.mp h
    have section_canonical := canonical.value found
    rw [Tree.asMapping_ok_iff.mp mapped] at section_canonical
    split at chosen
    · cases chosen
    · next styles _ listed =>
      cases chosen
      exact Tree.canonical_list_iff.mp (section_canonical.value listed)
    · cases chosen

theorem Loads.canonical (h : Loads above functions raw r l r') (canonical : raw.Canonical)
    (records : Inheritance.CanonicalRecords r.catalogue) :
    Inheritance.CanonicalRecords r'.catalogue ∧ ∀ s ∈ l.styles, s.valueMap.Sorted := by
  cases h with
  | intro expanded _ _ _ _ _ _ _ _ entered styled rest =>
    have settings := Inheritance.canonical_of_expand canonical records expanded
    exact rest.forall_of_each (P := fun r => Inheritance.CanonicalRecords r.catalogue)
      (fun _ _ _ _ loads => loads.canonical) (canonical_of_stylingOf settings styled)
      (records.register settings entered)

end Layer

/-! ## The service

`InOrderThroughout` collects what holds of a service from a canonical tree. Its
consequences are stated for `loadService` without any hypothesis on the order of keys,
since host objects are given as canonical trees. -/

namespace Service
variable {raw : Tree} {functions : Objects HostFunction} {s : Service}

/-- The tree of the service, and those of its entries as the catalogue holds them. -/
def trees (s : Service) : List Tree := s.life.raw :: s.catalogue.records.map Record.raw

/-- The trees of a service and the value maps of its styles are in order. -/
structure InOrderThroughout (s : Service) : Prop where
  trees : ∀ tree ∈ s.trees, tree.Canonical
  valueMaps : ∀ l ∈ s.layers, ∀ style ∈ l.styles, style.valueMap.Sorted

theorem raw_of_ofTree (h : ofTree raw functions = .ok s) : s.life.raw = raw := by
  obtain ⟨root, rfl, loads⟩ := loads_of_ofTree h
  cases loads
  rfl

theorem inOrder_of_ofTree (h : ofTree raw functions = .ok s) (canonical : raw.Canonical) :
    s.InOrderThroughout := by
  obtain ⟨root, rfl, loads⟩ := loads_of_ofTree h
  have own := raw_of_ofTree h
  cases loads with
  | @intro _ _ _ _ _ layerTrees _ _ _ _ _ _ _ layered rest =>
    have written : ∀ entry ∈ layerTrees, entry.Canonical :=
      @canonical_of_entriesOf (.mapping root) canonical _ layered
    obtain ⟨records, valueMaps⟩ :=
      rest.forall_of_each (P := fun r => Inheritance.CanonicalRecords r.catalogue)
        (fun _ _ _ _ loads => loads.canonical) written (fun _ hm => by cases hm)
    refine ⟨List.forall_mem_cons.mpr ⟨canonical, fun tree hm => ?_⟩, valueMaps⟩
    obtain ⟨record, hrecord, rfl⟩ := List.mem_map.mp hm
    exact records record hrecord

section
variable {source : Option String} {settings : Settings} {files : FileTree}
  {store : Option (Table ByteArray)} {objects : Objects CanonicalTree}
  (h : loadService source settings files store objects.trees functions = .ok s)
include h

theorem inOrder_of_loadService :
    s.life.raw.Canonical ∧ ofTree s.life.raw functions = .ok s ∧ s.InOrderThroughout := by
  obtain ⟨raw, hread, built⟩ := bind_ok_iff.mp h
  have canonical := canonical_of_readConfig objects.canonical_trees hread
  rw [raw_of_ofTree built]
  exact ⟨canonical, built, inOrder_of_ofTree built canonical⟩

/-- Trees of a loaded service merge by the laws of canonical trees: again and again the
same, and grouped either way unless the middle one cuts the first one off. -/
theorem merge_of_loadService {first middle last : Tree} (hfirst : first ∈ s.trees)
    (hmiddle : middle ∈ s.trees) (hlast : last ∈ s.trees) :
    Tree.merge first first = first ∧
      Tree.merge (Tree.merge first middle) middle = Tree.merge first middle ∧
      ((∀ path, ¬ Tree.CutsOff first middle last path) →
        Tree.merge (Tree.merge first middle) last = Tree.merge first (Tree.merge middle last)) ∧
      ∀ path, (Tree.Overridden first middle path →
          (Tree.merge first middle).at? path = middle.at? path) ∧
        (¬ Tree.Overridden first middle path → (Tree.merge first middle).at? path =
          match middle.at? path, first.at? path with
          | none, inherited => inherited
          | some value, some inherited => some (Tree.merge inherited value)
          | some value, none => some value) := by
  obtain ⟨_, _, inOrder⟩ := inOrder_of_loadService h
  -- Every tree of the service carries its own order, so the laws hold of it as it is.
  have typed : ∀ tree ∈ s.trees, ∃ t : CanonicalTree, t.tree = tree :=
    fun tree hm => ⟨⟨tree, inOrder.trees tree hm⟩, rfl⟩
  obtain ⟨first, rfl⟩ := typed first hfirst
  obtain ⟨middle, rfl⟩ := typed middle hmiddle
  obtain ⟨last, rfl⟩ := typed last hlast
  exact ⟨congrArg CanonicalTree.tree first.merge_self,
    congrArg CanonicalTree.tree (first.merge_merge_self middle),
    fun uncut => congrArg CanonicalTree.tree (CanonicalTree.merge_assoc uncut),
    fun _ => ⟨CanonicalTree.at?_merge_of_overridden, CanonicalTree.at?_merge_of_not_overridden⟩⟩

/-- Along the lines of inheritance of a loaded service the nearest definition wins. -/
theorem at?_iff_of_loadService {said : List Tree} {l : Layer} (line : Line s.life.raw s said l)
    {key : String} (hkey : key ∉ [Inheritance.directiveKey, Inheritance.markKey])
    (path : List String) {value : Tree} (leaf : value.mapping? = none) :
    l.life.raw.at? (key :: path) = some value ↔ Tree.HeldLast said (key :: path) value := by
  obtain ⟨canonical, built, _⟩ := inOrder_of_loadService h
  exact line.at?_iff built (fun _ _ hm => canonical_of_written canonical built hm) hkey path leaf

/-- The rules of every style of a loaded service stand under bands that ascend. -/
theorem valueMaps_of_loadService {l : Layer} (hl : l ∈ s.layers) {style : Style}
    (hstyle : style ∈ l.styles) : style.valueMap.Sorted :=
  (inOrder_of_loadService h).2.2.valueMaps l hl style hstyle

end

end Service

end MapConfig
