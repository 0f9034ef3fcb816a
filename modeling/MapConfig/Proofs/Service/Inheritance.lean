import MapConfig.Proofs.Catalogue
import MapConfig.Proofs.Inheritance

/-! Lines of inheritance between the layers of a service. Where layers inherit
from each other by name, in a line of any length, the nearest definition wins:
at each path the last layer holds what the last entry of the line says that does
not leave the path open. -/
namespace MapConfig.Service

/-! ## The entries of the layers

The tree is canonical, so all entries collected from it are. Each layer is loaded from
its entry on a catalogue that has the layers before it. -/

mutual

/-- The entries collected from a canonical tree are canonical. -/
theorem canonical_of_collectLayers {tree : Tree} {entries : List Tree}
    (h : collectLayers tree = .ok entries) (canonical : tree.Canonical) :
    ∀ entry ∈ entries, entry.Canonical := by
  cases tree with
  | list items =>
    exact canonical_of_collectItems (by simpa [collectLayers] using h)
      (Tree.canonical_list_iff.mp canonical)
  | _ => simp [collectLayers] at h

theorem canonical_of_collectItems {items entries : List Tree}
    (h : collectItems items = .ok entries) (canonical : ∀ item ∈ items, item.Canonical) :
    ∀ entry ∈ entries, entry.Canonical := by
  match items with
  | [] =>
    cases h
    simp
  | .mapping settings :: rest =>
    rw [collectItems] at h
    obtain ⟨first, hfirst, h⟩ := bind_ok_iff.mp h
    obtain ⟨others, hothers, h⟩ := bind_ok_iff.mp h
    cases h
    have item := canonical (.mapping settings) List.mem_cons_self
    intro entry hm
    rcases List.mem_append.mp hm with hm | hm
    · exact canonical_of_collectEntry hfirst item (Tree.canonical_mapping_iff.mp item).2 entry hm
    · exact canonical_of_collectItems hothers
        (fun item hm => canonical item (List.mem_cons_of_mem _ hm)) entry hm
  | .null :: _ | .bool _ :: _ | .number _ :: _ | .text _ :: _ | .list _ :: _ => cases h

theorem canonical_of_collectEntry {item : Tree} {named : Bool} {settings : List (String × Tree)}
    {entries : List Tree} (h : collectEntry item named settings = .ok entries)
    (canonical : item.Canonical) (values : ∀ setting ∈ settings, setting.2.Canonical) :
    ∀ entry ∈ entries, entry.Canonical := by
  match settings with
  | [] =>
    cases h
    simpa using canonical
  | (key, value) :: rest =>
    rw [collectEntry] at h
    split at h
    · split at h
      · cases h
      · exact canonical_of_collectLayers h (values (key, value) List.mem_cons_self)
    · exact canonical_of_collectEntry h canonical
        fun setting hm => values setting (List.mem_cons_of_mem _ hm)

end

section
variable {raw : Tree} {functions : Objects HostFunction} {s : Service}

/-- The entries under the `layers` key, as written. -/
def entriesOf (raw : Tree) : Except ConfigError (List Tree) :=
  ((raw.get? "layers").map collectLayers).getD (.ok [])

/-- The layers of a service, each with its entry as written. -/
def written (raw : Tree) (s : Service) : List (Tree × Layer) :=
  ((entriesOf raw).toOption.getD []).zip s.layers

theorem canonical_of_entriesOf (canonical : raw.Canonical) {entries : List Tree}
    (h : entriesOf raw = .ok entries) : ∀ entry ∈ entries, entry.Canonical := by
  unfold entriesOf at h
  cases hlayers : raw.get? "layers" with
  | none =>
    rw [hlayers] at h
    cases h
    simp
  | some layers =>
    rw [hlayers] at h
    exact canonical_of_collectLayers h (canonical.get? hlayers)

/-- The layers are loaded from their entries in turn. -/
theorem exists_turn_of_ofTree (h : ofTree raw functions = .ok s) : ∃ entries above r r',
    entriesOf raw = .ok entries ∧ written raw s = entries.zip s.layers ∧
      LoadsInTurn (Layer.Loads above functions) entries r s.layers r' ∧
      s.catalogue = r'.catalogue := by
  obtain ⟨root, rfl, loads⟩ := loads_of_ofTree h
  cases loads with
  | @intro _ _ _ _ _ entries _ _ _ _ _ _ _ layered rest =>
    have collected : entriesOf (.mapping root) = .ok entries := layered
    exact ⟨entries, _, _, _, collected, by rw [written, collected]; rfl, rest, rfl⟩

/-- Each layer is loaded from its entry, and its records stay in the catalogue. -/
theorem exists_loads_of_written (h : ofTree raw functions = .ok s) {entry : Tree} {l : Layer}
    (hm : (entry, l) ∈ written raw s) : ∃ above r r',
      Layer.Loads above functions entry r l r' ∧ r'.catalogue.Grows s.catalogue := by
  obtain ⟨entries, above, _, _, _, hwritten, turn, hcatalogue⟩ := exists_turn_of_ofTree h
  rw [hwritten] at hm
  rw [hcatalogue]
  obtain ⟨r, r', loads, grows⟩ := turn.exists_of_mem_zip
    (R := fun r r' => r.catalogue.Grows r'.catalogue) (fun r => .refl r.catalogue)
    (fun _ _ _ h h' => h.trans h') (fun _ _ _ _ loads => loads.grows) hm
  exact ⟨above, r, r', loads, grows⟩

theorem canonical_of_written (canonical : raw.Canonical) (h : ofTree raw functions = .ok s)
    {entry : Tree} {l : Layer} (hm : (entry, l) ∈ written raw s) : entry.Canonical := by
  obtain ⟨entries, _, _, _, hentries, hwritten, _, _⟩ := exists_turn_of_ofTree h
  rw [hwritten] at hm
  exact canonical_of_entriesOf canonical hentries entry (List.of_mem_zip hm).1

/-- A layer is found under its name, with its tree. -/
theorem find?_of_mem_layers (h : ofTree raw functions = .ok s) {l : Layer} (hm : l ∈ s.layers) :
    s.catalogue.find? .layer (layerKeys l.name) =
      some ⟨.layer, layerKeys l.name, l.life.raw⟩ := by
  obtain ⟨entries, _, _, _, _, hwritten, turn, _⟩ := exists_turn_of_ofTree h
  obtain ⟨entry, hentry⟩ := exists_mem_zip_right turn.length_eq hm
  rw [← hwritten] at hentry
  obtain ⟨_, _, _, loads, grows⟩ := exists_loads_of_written h hentry
  exact grows.find? loads.find?

/-! ## Lines of inheritance

Induction on the line: a further layer joins its entry to the tree of the one before,
which is one step of `HeldLast`. -/

/-- A line of layers down to one of them, each but the first with an entry that
names the one before. What is said along the line are the tree of the first
layer and the entries of the others. -/
inductive Line (raw : Tree) (s : Service) : List Tree → Layer → Prop where
  | first {l : Layer} (hm : l ∈ s.layers) : Line raw s [l.life.raw] l
  | next {said : List Tree} {parent l : Layer} {entry : Tree} (line : Line raw s said parent)
      (hm : (entry, l) ∈ written raw s) (names : Inheritance.Names entry parent.name) :
      Line raw s (said ++ [entry]) l

theorem Line.mem {said : List Tree} {l : Layer} (line : Line raw s said l) : l ∈ s.layers := by
  cases line with
  | first hm => exact hm
  | next _ hm _ => exact (List.of_mem_zip hm).2

/-- An entry that names a layer is joined to the tree of that layer. -/
theorem exists_join_of_written (h : ofTree raw functions = .ok s) {entry : Tree}
    {l parent : Layer} (hm : (entry, l) ∈ written raw s) (hparent : parent ∈ s.layers)
    (names : Inheritance.Names entry parent.name) :
    ∃ child, entry = .mapping child ∧ l.life.raw = Inheritance.join parent.life.raw child := by
  obtain ⟨above, r, r', loads, grows⟩ := exists_loads_of_written h hm
  have grows := loads.grows.trans grows
  cases loads with
  | intro expanded =>
    obtain ⟨child, record, rfl, hrecord, hjoin⟩ := Inheritance.exists_join_of_names names expanded
    -- No record takes the place of an earlier one: what was found then is still found.
    have same := (grows.find? hrecord).symm.trans (find?_of_mem_layers h hparent)
    cases same
    exact ⟨child, rfl, hjoin⟩

/-- What the last layer of a line holds at a path is what is held last along the line:
each step is a merge, in which the entry wins where it does not leave the path open. -/
theorem Line.at?_iff {said : List Tree} {l : Layer} (line : Line raw s said l)
    (h : ofTree raw functions = .ok s)
    (canonical : ∀ entry l, (entry, l) ∈ written raw s → entry.Canonical) {key : String}
    (hkey : key ∉ [Inheritance.directiveKey, Inheritance.markKey]) (path : List String)
    {value : Tree} (leaf : value.mapping? = none) :
    l.life.raw.at? (key :: path) = some value ↔ Tree.HeldLast said (key :: path) value := by
  induction line with
  | first _ => rw [Tree.heldLast_singleton]
  | next line hm names ih =>
    obtain ⟨child, rfl, hjoin⟩ := exists_join_of_written h hm line.mem names
    rw [hjoin, Inheritance.at?_join_iff (canonical _ _ hm) leaf hkey, ih, Tree.heldLast_concat]

/-- The nearest definition wins: the last layer of a line holds a value other than
a mapping at a path, the keys of inheritance itself apart, exactly when one of the
trees said along the line holds it there and those after it leave the path open.
Every tree that is read is canonical, see `canonical_of_readConfig`. -/
theorem nearest_definition_wins (h : ofTree raw functions = .ok s) (canonical : raw.Canonical)
    {said : List Tree} {l : Layer} (line : Line raw s said l) {key : String}
    (hkey : key ∉ [Inheritance.directiveKey, Inheritance.markKey]) (path : List String)
    {value : Tree} (leaf : value.mapping? = none) :
    l.life.raw.at? (key :: path) = some value ↔ Tree.HeldLast said (key :: path) value :=
  line.at?_iff h (fun _ _ hm => canonical_of_written canonical h hm) hkey path leaf

end

/-! ### A line of three layers

Each of the layers says something else about the default style. -/

/-- The first layer has two styles. -/
def baseEntry : Tree := .mapping [
  ("abstract", .text "One layer"),
  ("bands", .mapping [("b", .list [])]),
  ("name", .text "base"),
  ("product_name", .text "p"),
  ("styling", .mapping [
    ("default_style", .text "s"),
    ("styles", .list [
      .mapping [("abstract", .text "One style"), ("name", .text "s"), ("title", .text "Style")],
      .mapping [("abstract", .text "A style"), ("name", .text "t"), ("title", .text "Style")]])]),
  ("title", .text "Base")]

/-- The second layer chooses another default style. -/
def middleEntry : Tree := .mapping [
  ("inherits", .mapping [("layer", .text "base")]),
  ("name", .text "middle"),
  ("styling", .mapping [("default_style", .text "t")])]

/-- The third layer has only a name of its own, and styling that says nothing. -/
def lastEntry : Tree := .mapping [
  ("inherits", .mapping [("layer", .text "middle")]),
  ("name", .text "last"),
  ("styling", .mapping [])]

/-- The last two layers stand in a folder. -/
def lineTree : Tree := .mapping [
  ("global", .mapping [("title", .text "Service")]),
  ("layers", .list [baseEntry, .mapping [("layers", .list [middleEntry, lastEntry])]])]

theorem canonical_lineTree : lineTree.Canonical := by decide +kernel

theorem nearest_definition_wins_line : ∃ s said l, ofTree lineTree Objects.empty = .ok s ∧
    Line lineTree s said l ∧ said.length = 3 ∧
    l.life.raw.at? ["styling", "default_style"] = some (.text "t") := by
  have tested : (ofTree lineTree Objects.empty).toOption.any (fun s =>
      decide (s.layers.map Layer.name = ["base", "middle", "last"])) = true := by
    decide +kernel
  obtain ⟨s, hs, names⟩ := exists_ok_of_any tested
  have names := of_decide_eq_true names
  obtain ⟨base, others, hlayers, hbase, names⟩ := List.map_eq_cons_iff.mp names
  obtain ⟨middle, others, rfl, hmiddle, names⟩ := List.map_eq_cons_iff.mp names
  obtain ⟨last, others, rfl, _, _⟩ := List.map_eq_cons_iff.mp names
  have hwritten : written lineTree s =
      (baseEntry, base) :: (middleEntry, middle) :: (lastEntry, last) :: [] := by
    rw [written, hlayers]
    rfl
  have line : Line lineTree s [base.life.raw, middleEntry, lastEntry] last := by
    have first : Line lineTree s [base.life.raw] base := .first (by simp [hlayers])
    have second : Line lineTree s [base.life.raw, middleEntry] middle := by
      refine .next first (by simp [hwritten]) ⟨rfl, _, rfl, ?_⟩
      rw [hbase]
      rfl
    refine .next second (by simp [hwritten]) ⟨rfl, _, rfl, ?_⟩
    rw [hmiddle]
    rfl
  have leaves : lastEntry.LeavesOpen ["styling", "default_style"] := by
    refine Tree.leavesOpen_mapping_cons.mpr fun styling hf => ?_
    cases hf
    exact Tree.leavesOpen_mapping_cons.mpr fun value hf => by cases hf
  have held : Tree.HeldLast [base.life.raw, middleEntry, lastEntry]
      ["styling", "default_style"] (.text "t") :=
    ⟨[base.life.raw], middleEntry, [lastEntry], rfl, rfl, by simpa using leaves⟩
  refine ⟨s, _, last, hs, line, rfl, ?_⟩
  exact (nearest_definition_wins hs canonical_lineTree line (by decide) _ rfl).mpr held

end MapConfig.Service
