import MapConfig.Proofs.Service.LayerTree
import Mathlib.Data.List.Nodup

/-! The layers of a service and how they are found. There is one layer for each
entry of the tree of layers that is no folder, and the names of layers, and of
the styles of a layer, are all different: not because the names are compared, but
because each entry is entered into the catalogue, which takes no identity twice. -/
namespace MapConfig

/-! ## Names and positions

Entries are found by an index from names to positions, in which a later entry of one
name would hide an earlier one. The catalogue makes names different, and then nothing is
hidden. -/

theorem OrderedTable.positions_concat (names : List String) (last : String) :
    positions (names ++ [last]) = (positions names).insert last names.length := by
  simp [positions, ofList, insert, Table.ofList, Table.override, List.zipIdx_append]

/-- A name leads to the last position at which it stands. -/
theorem OrderedTable.find?_positions_iff {names : List String} {name : String} {position : Nat} :
    (positions names).find? name = some position ↔
      names[position]? = some name ∧ ∀ later > position, names[later]? ≠ some name := by
  induction names using List.reverseRecOn generalizing position with
  | nil => simp [positions, ofList, Table.ofList, Table.override, find?]
  | append_singleton names last ih =>
    rw [positions_concat, find?_insert]
    by_cases same : last = name
    · subst same
      rw [if_pos rfl, Option.some.injEq]
      constructor
      -- The last position wins: nothing stands behind it.
      · rintro rfl
        refine ⟨by simp, fun later hlater => ?_⟩
        rw [List.getElem?_eq_none (by simpa using Nat.succ_le_of_lt hlater)]
        simp
      · rintro ⟨stands, none_later⟩
        obtain ⟨hlt, -⟩ := List.getElem?_eq_some_iff.mp stands
        rw [List.length_append, List.length_singleton] at hlt
        by_contra different
        exact none_later names.length (by omega) (by simp)
    -- A name other than the last one stands where it stood before.
    · rw [if_neg same, ih]
      have inner : ∀ i : Nat, (names ++ [last])[i]? = some name ↔ names[i]? = some name := by
        intro i
        rw [List.getElem?_append]
        split
        · exact Iff.rfl
        · next beyond =>
          rw [List.getElem?_eq_none (Nat.le_of_not_lt beyond), List.getElem?_singleton]
          split <;> simp [same]
      simp only [inner, ne_eq]

/-- Where names are all different, the index leads from a name to exactly what has it. -/
theorem getElem?_positions_iff {α : Type} {name : α → String} {as : List α}
    (distinct : (as.map name).Nodup) {key : String} {a : α} :
    (((OrderedTable.positions (as.map name)).find? key).bind fun position => as[position]?) =
      some a ↔ a ∈ as ∧ name a = key := by
  simp only [Option.bind_eq_some_iff, OrderedTable.find?_positions_iff, List.getElem?_map]
  constructor
  · rintro ⟨position, ⟨named, -⟩, found⟩
    rw [found, Option.map_some, Option.some.injEq] at named
    exact ⟨List.mem_of_getElem? found, named⟩
  · rintro ⟨hm, rfl⟩
    obtain ⟨position, found⟩ := List.mem_iff_getElem?.mp hm
    refine ⟨position, ⟨by rw [found]; rfl, fun later hlater again => ?_⟩, found⟩
    -- The name stands once only, so no later position has it.
    have hlt : position < (as.map name).length := by
      simpa using (List.getElem?_eq_some_iff.mp found).1
    refine absurd ((List.getElem?_inj hlt distinct).mp ?_) (Nat.ne_of_lt hlater)
    rw [List.getElem?_map, List.getElem?_map, again, found, Option.map_some]

namespace Layer

/-- The names of a layer's styles are different, each finds its style, and one of the
styles is the default. -/
structure Indexed (l : Layer) : Prop where
  distinct : (l.styles.map Style.name).Nodup
  style?_iff : ∀ name s, l.style? name = some s ↔ s ∈ l.styles ∧ s.name = name
  default : ∃ s ∈ l.styles, l.defaultStyle? = some s ∧ l.style? s.name = some s

/-- A layer has the tree of its entry, the directive of which was applied with the
records entered before, and it has the name that stands there. -/
structure BuiltFrom (entry : Tree) (c : Catalogue) (l : Layer) : Prop where
  expanded : ∃ earlier : Catalogue, earlier.Grows c ∧
    Inheritance.expand entry .layer earlier none ∅ = .ok l.life.raw
  named : l.life.raw.get? "name" = some (.text l.name)

section
variable {above : Heritage} {functions : Objects HostFunction} {entry : Tree}
  {r r' : Registries} {l : Layer}

theorem Loads.builtFrom (h : Loads above functions entry r l r') {c : Catalogue}
    (grows : r'.catalogue.Grows c) : l.BuiltFrom entry c := by
  have before := h.grows.trans grows
  cases h with
  | intro expanded named => exact ⟨⟨r.catalogue, before, expanded⟩, named⟩

/-- The default is within the list: the first style, or one that the index knows. -/
theorem lt_of_defaultPositionOf {styling : Mapping} {names : List String} {subject : String}
    {position : Nat} (hne : names ≠ [])
    (h : defaultPositionOf styling (.positions names) subject = .ok position) :
    position < names.length := by
  obtain ⟨given, _, h⟩ := bind_ok_iff.mp h
  cases given with
  | none =>
    cases h
    exact List.length_pos_iff.mpr hne
  | some given =>
    dsimp only at h
    split at h
    · next found =>
      cases h
      have stands := (OrderedTable.find?_positions_iff.mp found).1
      exact (List.getElem?_eq_some_iff.mp stands).1
    · cases h

theorem ne_nil_of_stylingOf {cfg styling : Mapping} {subject : String} {trees : List Tree}
    (h : stylingOf cfg subject = .ok (styling, trees)) : trees ≠ [] := by
  unfold stylingOf at h
  split at h
  · cases h
  · obtain ⟨entries, _, h⟩ := bind_ok_iff.mp h
    split at h
    · cases h
    · next hne _ =>
      cases h
      exact fun none => hne (by rw [none])
    · cases h

/-- A layer has a style, and its default style is one of them. -/
theorem Loads.exists_default (h : Loads above functions entry r l r') :
    ∃ s ∈ l.styles, l.defaultStyle? = some s := by
  cases h with
  | @intro _ _ _ position _ _ _ _ _ _ _ _ _ styles _ _ _ _ _ _ _ _ _ _ _ styled rest shown =>
    have some_style : styles.map Style.name ≠ [] := fun none => by
      refine ne_nil_of_stylingOf styled (List.length_eq_zero_iff.mp ?_)
      rw [rest.length_eq, List.map_eq_nil_iff.mp none, List.length_nil]
    have within : position < styles.length := by
      simpa using lt_of_defaultPositionOf some_style shown
    exact ⟨styles[position], List.getElem_mem within, List.getElem?_eq_getElem within⟩

theorem Loads.styleIndex_eq (h : Loads above functions entry r l r') :
    l.styleIndex = .positions (l.styles.map Style.name) := by
  cases h
  rfl

theorem Loads.indexed (h : Loads above functions entry r l r')
    (distinct : (l.styles.map Style.name).Nodup) : l.Indexed := by
  have style?_iff : ∀ name s, l.style? name = some s ↔ s ∈ l.styles ∧ s.name = name := by
    intro name s
    rw [style?, h.styleIndex_eq]
    exact getElem?_positions_iff distinct
  obtain ⟨s, hm, shown⟩ := h.exists_default
  exact ⟨distinct, style?_iff, s, hm, shown, (style?_iff s.name s).mpr ⟨hm, rfl⟩⟩

/-! ## Different names

The records of the catalogue are apart, and there is one for each layer and each style.
Names that were equal would make two of them one. -/

theorem nodup_styles_of_records (apart : l.records.Pairwise Record.Apart) :
    (l.styles.map Style.name).Nodup := by
  obtain ⟨-, styles⟩ := List.pairwise_cons.mp apart
  refine List.pairwise_map.mpr ((List.pairwise_map.mp styles).imp fun apart same => apart ?_)
  exact ⟨rfl, by rw [same]⟩

end

end Layer

namespace Service
variable {s : Service} {raw : Tree} {functions : Objects HostFunction}

theorem nodup_layers_of_records (apart : (s.layers.flatMap Layer.records).Pairwise Record.Apart) :
    (s.layers.map Layer.name).Nodup := by
  obtain ⟨-, layers⟩ := List.pairwise_flatMap.mp apart
  refine List.pairwise_map.mpr (layers.imp fun apart same => ?_)
  exact apart _ List.mem_cons_self _ List.mem_cons_self ⟨rfl, by rw [same]⟩

/-- The catalogue is empty at first, and each layer adds its own records. -/
theorem records_of_ofTree (h : ofTree raw functions = .ok s) :
    s.catalogue.records = s.layers.flatMap Layer.records ∧ s.catalogue.Distinct := by
  obtain ⟨root, rfl, loads⟩ := loads_of_ofTree h
  cases loads with
  | intro _ _ _ _ _ _ rest =>
    have records := rest.appends (fun r => r.catalogue.records)
      fun _ _ _ _ loads => Layer.Loads.records_eq loads
    have distinct := rest.keeps (P := fun r => r.catalogue.Distinct)
      (fun _ _ _ _ loads => loads.distinct) .nil
    exact ⟨records, distinct⟩

theorem layerIndex_of_ofTree (h : ofTree raw functions = .ok s) :
    s.layerIndex = .positions (s.layers.map Layer.name) := by
  obtain ⟨root, rfl, loads⟩ := loads_of_ofTree h
  cases loads
  rfl

/-- The layers of a service are those of its tree, and are found by their names;
and the catalogue holds a record of each layer and of each of its styles. -/
structure Indexed (raw : Tree) (s : Service) : Prop where
  /-- One layer for each position that holds no folder, in the order of a walk in depth. -/
  listed : ∃ positions : List (List Nat), positions.Pairwise (· < ·) ∧
    (∀ position, position ∈ positions ↔
      position ≠ [] ∧ ∃ entry, raw.LayerAt position entry) ∧
    List.Forall₂ (fun position l =>
      ∃ entry, raw.LayerAt position entry ∧ l.BuiltFrom entry s.catalogue) positions s.layers
  distinct : (s.layers.map Layer.name).Nodup
  layer?_iff : ∀ name l, s.layer? name = some l ↔ l ∈ s.layers ∧ l.name = name
  styles : ∀ l ∈ s.layers, l.Indexed
  records : s.catalogue.records = s.layers.flatMap Layer.records
  apart : s.catalogue.Distinct

theorem listed_of_ofTree (h : ofTree raw functions = .ok s) :
    ∃ positions : List (List Nat), positions.Pairwise (· < ·) ∧
      (∀ position, position ∈ positions ↔
        position ≠ [] ∧ ∃ entry, raw.LayerAt position entry) ∧
      List.Forall₂ (fun position l =>
        ∃ entry, raw.LayerAt position entry ∧ l.BuiltFrom entry s.catalogue)
        positions s.layers := by
  obtain ⟨entries, _, _, _, hentries, hwritten, turn, _⟩ := exists_turn_of_ofTree h
  obtain ⟨positions, ascending, all, corresponds⟩ := inOrder_of_entriesOf hentries
  refine ⟨positions, ascending, fun position => ⟨fun hm => ?_, ?_⟩, ?_⟩
  · obtain ⟨entry, _, below, ha⟩ := exists_mem_of_forall₂ corresponds hm
    exact ⟨below, entry, ha⟩
  · rintro ⟨below, entry, ha⟩
    exact all position entry ⟨below, ha⟩
  · have built : List.Forall₂ (fun entry l => l.BuiltFrom entry s.catalogue) entries s.layers := by
      refine forall₂_iff_forall_zip.mpr ⟨turn.length_eq, fun pair hm => ?_⟩
      rw [← hwritten] at hm
      obtain ⟨_, _, _, loads, grows⟩ := exists_loads_of_written h hm
      exact loads.builtFrom grows
    refine (forall₂_comp corresponds built).imp fun position l => ?_
    rintro ⟨entry, ⟨_, ha⟩, hl⟩
    exact ⟨entry, ha, hl⟩

/-- Loading lists exactly one layer for each entry of the tree of layers that is no
folder, in the order in which they are declared; finds layers and styles by names
that are all different; and enters them, and nothing else, into the catalogue. -/
theorem indexed_of_ofTree (h : ofTree raw functions = .ok s) : s.Indexed raw := by
  obtain ⟨records, different⟩ := records_of_ofTree h
  have apart : (s.layers.flatMap Layer.records).Pairwise Record.Apart := records ▸ different
  have distinct := nodup_layers_of_records apart
  refine {
    listed := listed_of_ofTree h
    distinct
    layer?_iff := fun name l => ?_
    styles := fun l hm => ?_
    records
    apart := different }
  · rw [layer?, layerIndex_of_ofTree h]
    exact getElem?_positions_iff distinct
  · obtain ⟨_, _, _, _, loads⟩ := exists_loads_of_mem h hm
    have apart := (List.pairwise_flatMap.mp apart).1 l hm
    exact loads.indexed (Layer.nodup_styles_of_records apart)

/-- Of three layers two stand in a folder, and the first has two styles. -/
theorem indexed_of_ofTree_line : ∃ s, ofTree lineTree Objects.empty = .ok s ∧
    s.layers.map Layer.name = ["base", "middle", "last"] ∧
    s.catalogue.size = 9 ∧ s.Indexed lineTree := by
  have tested : (ofTree lineTree Objects.empty).toOption.any (fun s =>
      decide (s.layers.map Layer.name = ["base", "middle", "last"] ∧ s.catalogue.size = 9)) =
        true := by
    decide +kernel
  obtain ⟨s, hs, seen⟩ := exists_ok_of_any tested
  obtain ⟨names, size⟩ := of_decide_eq_true seen
  exact ⟨s, hs, names, size, indexed_of_ofTree hs⟩

end Service

end MapConfig
