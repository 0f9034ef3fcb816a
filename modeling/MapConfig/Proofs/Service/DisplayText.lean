import MapConfig.Proofs.Bands
import MapConfig.Proofs.Loading
import MapConfig.Proofs.Wording.Metadata

/-! Whose title and abstract are displayed. The entries of a service and the
bands of its layers register their texts in one place, in the order in which
they are read, and a key is a label and a field in one string. So two of them may
claim one key, and the text on display is that of the last one that does. -/
namespace MapConfig

/-! ## Owners of texts

An owner claims a key if it registers a text under it, and gives a text if its settings
do. Keys are compared as strings, since that is how they are stored. -/

/-- What registers texts: an entry with its settings, or the bands of a layer. -/
inductive TextOwner where
  | entry (label : String) (raw : Tree)
  | bands (table : BandTable)

namespace TextOwner

/-- Registers a text under the key of this title or abstract. -/
def Claims : TextOwner → String → String → Prop
  | .entry other _, label, _ => other = label
  | .bands table, label, field =>
    ∃ band ∈ table.names, Wording.key table.label band = Wording.key label field

instance (owner : TextOwner) (label field : String) : Decidable (owner.Claims label field) :=
  match owner with
  | .entry other _ => inferInstanceAs (Decidable (other = label))
  | .bands table => inferInstanceAs (Decidable (∃ band ∈ table.names,
      Wording.key table.label band = Wording.key label field))

/-- The settings give the text, a band's first alias being its text. -/
def Gives : TextOwner → String → String → String → Prop
  | .entry other raw, label, field, text =>
    other = label ∧ (raw.get? field).bind Tree.text? = some text
  | .bands table, label, field, text => ∃ entry ∈ table.aliases.entries,
    Wording.key table.label entry.1 = Wording.key label field ∧ entry.2.headD entry.1 = text

instance (owner : TextOwner) (label field text : String) :
    Decidable (owner.Gives label field text) :=
  match owner with
  | .entry other raw =>
    inferInstanceAs (Decidable (other = label ∧ (raw.get? field).bind Tree.text? = some text))
  | .bands table => inferInstanceAs (Decidable (∃ entry ∈ table.aliases.entries,
      Wording.key table.label entry.1 = Wording.key label field ∧
        entry.2.headD entry.1 = text))

/-- Registers the texts when it is loaded. -/
def Registers : TextOwner → List Registration → Prop
  | .entry label raw, texts => ∃ cfg, raw = .mapping cfg ∧ EntryTexts label cfg texts ∧
    ∃ title, Table.find? cfg "title" = some (.text title)
  | .bands table, texts => texts = table.registrations

variable {owner : TextOwner} {texts : List Registration} {label field text : String}

theorem Registers.key_ne (h : owner.Registers texts) (hf : field ∈ displayFields)
    (unclaimed : ¬ owner.Claims label field) : ∀ r ∈ texts, r.key ≠ Wording.key label field := by
  intro r hr hkey
  apply unclaimed
  cases owner with
  | entry other raw =>
    obtain ⟨cfg, _, own, _⟩ := h
    exact (own.own r hr label field hf hkey).1.symm
  | bands table =>
    cases h
    obtain ⟨⟨band, aliases⟩, hm, rfl⟩ := List.mem_map.mp hr
    exact ⟨band, List.mem_map.mpr ⟨_, hm, rfl⟩, hkey⟩

theorem Registers.default? {w : Wording} (h : owner.Registers texts) (hf : field ∈ displayFields)
    (gives : owner.Gives label field text) :
    (w.registerAll texts).default? label field = some text := by
  cases owner with
  | entry other raw =>
    obtain ⟨cfg, rfl, own, _⟩ := h
    obtain ⟨rfl, found⟩ := gives
    rw [Tree.get?_mapping, Option.bind_eq_some_iff] at found
    obtain ⟨found, hfound, htext⟩ := found
    cases found <;> cases htext
    refine Wording.default?_registerAll_of_mem (own.registered field hf) fun r hr hkey => ?_
    exact (own.own r hr _ field hf hkey).2 text hfound
  | bands table =>
    cases h
    obtain ⟨⟨band, aliases⟩, hm, hkey, rfl⟩ := gives
    refine Wording.default?_registerAll_of_mem ⟨_, List.mem_map.mpr ⟨_, hm, rfl⟩, hkey⟩ ?_
    intro r hr hkey'
    obtain ⟨⟨other, others⟩, hm', rfl⟩ := List.mem_map.mp hr
    cases Wording.key_inj (hkey'.trans hkey.symm)
    have same := (OrderedTable.find?_of_mem hm').symm.trans (OrderedTable.find?_of_mem hm)
    rw [Option.some.inj same]

end TextOwner

/-! ## Owners one after the other

The registry after a run of owners. Under a key stands what the last claimant has put
there, by induction on the owners behind it. -/

/-- The texts before and after the owners have registered theirs, in order. -/
inductive Recorded : Wording → List TextOwner → Wording → Prop where
  | nil {w : Wording} : Recorded w [] w
  | cons {w w' : Wording} {owner : TextOwner} {owners : List TextOwner}
      {texts : List Registration} (registers : owner.Registers texts)
      (rest : Recorded (w.registerAll texts) owners w') : Recorded w (owner :: owners) w'

namespace Recorded
variable {w w₁ w' : Wording} {owners : List TextOwner} {label field text : String}

theorem append {more : List TextOwner} (h : Recorded w owners w₁) (h' : Recorded w₁ more w') :
    Recorded w (owners ++ more) w' := by
  induction h with
  | nil => exact h'
  | cons registers _ ih => exact .cons registers (ih h')

theorem bare (h : Recorded w owners w') (hw : w.Bare) : w'.Bare := by
  induction h with
  | nil => exact hw
  | cons _ _ ih => exact ih (hw.registerAll _)

theorem default?_of_unclaimed (h : Recorded w owners w') (hf : field ∈ displayFields)
    (unclaimed : ∀ owner ∈ owners, ¬ owner.Claims label field) :
    w'.default? label field = w.default? label field := by
  induction h with
  | nil => rfl
  | @cons w w' owner owners texts registers _ ih =>
    have first := registers.key_ne hf (unclaimed owner List.mem_cons_self)
    rw [ih fun later hm => unclaimed later (List.mem_cons_of_mem owner hm)]
    exact Wording.default?_registerAll_of_other first

/-- The last owner that claims a key has its text on record. -/
theorem default?_of_last {before after : List TextOwner} {owner : TextOwner}
    (h : Recorded w (before ++ owner :: after) w') (hf : field ∈ displayFields)
    (gives : owner.Gives label field text)
    (unclaimed : ∀ later ∈ after, ¬ later.Claims label field) :
    w'.default? label field = some text := by
  induction before generalizing w with
  | nil =>
    cases h with
    | cons registers rest =>
      -- Whatever stood there before, the owner overwrites it and no later one does.
      rw [rest.default?_of_unclaimed hf unclaimed]
      exact registers.default? hf gives
  | cons first before ih =>
    cases h with
    | cons _ rest => exact ih rest

theorem exists_title (h : Recorded w owners w') {label : String} {raw : Tree}
    (hm : .entry label raw ∈ owners) :
    ∃ title, (raw.get? "title").bind Tree.text? = some title := by
  induction h with
  | nil => cases hm
  | @cons w w' owner owners texts registers _ ih =>
    rcases List.mem_cons.mp hm with rfl | hm
    · obtain ⟨cfg, rfl, _, title, found⟩ := registers
      exact ⟨title, by rw [Tree.get?_mapping, found]; rfl⟩
    · exact ih hm

end Recorded

/-! ## Loading records the texts of every owner

The order of loading is that of the owners: the service, and for each layer the layer,
its bands and its styles. -/

namespace Style
variable {scope : LayerScope} {functions : Objects HostFunction} {r r' : Registries}

def textOwners (s : Style) : List TextOwner := [.entry s.label s.life.raw]

/-- Numbers end in digits, and the unit is another field, so the texts of rules
and legends are never in the way of a title or an abstract. -/
theorem isSide_of_mem_registrations (s : Style) : ∀ t ∈ s.registrations, t.IsSide := by
  intro t ht
  rcases List.mem_append.mp ht with ht | ht
  · obtain ⟨⟨index, title⟩, _, rfl⟩ := List.mem_map.mp ht
    apply Registration.isSide_of_endsInDigit
    show EndsInDigit ("rule_" ++ toString index).toList
    rw [String.toList_append]
    exact (EndsInDigit.of_nat index).append _
  · cases hl : s.legend with
    | none =>
      rw [hl] at ht
      cases ht
    | some legend =>
      rw [hl] at ht
      -- A legend registers its unit and the labels of its ticks.
      rcases List.mem_append.mp ht with ht | ht
      · obtain ⟨units, _, rfl⟩ := Option.map_eq_some_iff.mp (Option.mem_toList.mp ht)
        refine Registration.isSide_of_no_point ?_ ?_
        · show '.' ∉ "units".toList
          decide
        · show "units" ∉ displayFields
          decide
      · obtain ⟨⟨tick, text⟩, hm, rfl⟩ := List.mem_map.mp ht
        obtain ⟨hzip, _⟩ := List.mem_filter.mp hm
        obtain ⟨d, _, rfl⟩ := List.mem_map.mp (List.of_mem_zip hzip).1
        apply Registration.isSide_of_endsInDigit
        show EndsInDigit ("lbl_" ++ d.toText).toList
        rw [String.toList_append]
        exact (EndsInDigit.of_decimal d).append _

theorem Loads.recorded {raw : Tree} {s : Style} (h : Loads scope functions raw r s r') :
    Recorded r.wording s.textOwners r'.wording := by
  cases h with
  | @intro cfg name metadata s _ _ _ described parts _ =>
    obtain ⟨hlife, hname, hlayer⟩ := ofMapping_ok parts
    have own := Metadata.entryTexts_of_parse rfl rfl described
    have title := Metadata.exists_title_of_parse rfl rfl described
    have hlabel : s.label = (metadataContext scope.name name).label := by
      rw [label, hname, hlayer]
      rfl
    refine .cons ⟨cfg, by rw [hlife]; rfl, ?_, title⟩ .nil
    rw [hlabel]
    exact own.append s.isSide_of_mem_registrations

end Style

/-- Entries loaded in turn record their texts in turn. -/
theorem LoadsInTurn.recorded {α β : Type} {Loads : α → Registries → β → Registries → Prop}
    {owners : β → List TextOwner}
    (each : ∀ a r b r', Loads a r b r' → Recorded r.wording (owners b) r'.wording)
    {as : List α} {bs : List β} {r r' : Registries} (h : LoadsInTurn Loads as r bs r') :
    Recorded r.wording (bs.flatMap owners) r'.wording := by
  induction h with
  | nil => exact .nil
  | cons first _ ih => exact (each _ _ _ _ first).append ih

namespace Layer

/-- A layer, its bands and its styles. -/
def textOwners (l : Layer) : List TextOwner :=
  .entry l.name l.life.raw :: .bands l.bands :: l.styles.flatMap Style.textOwners

theorem Loads.recorded {above : Heritage} {functions : Objects HostFunction} {raw : Tree}
    {r r' : Registries} {l : Layer} (h : Loads above functions raw r l r') :
    Recorded r.wording l.textOwners r'.wording := by
  cases h with
  | @intro cfg _ _ _ _ _ _ _ _ _ _ _ _ _ _ _ _ described _ _ _ _ _ _ _ _ rest =>
    have own := Metadata.entryTexts_of_parse rfl rfl described
    have title := Metadata.exists_title_of_parse rfl rfl described
    have styles := rest.recorded fun _ _ _ _ h => Style.Loads.recorded h
    exact .cons ⟨cfg, rfl, own, title⟩ (.cons rfl styles)

end Layer

namespace Service

/-- The settings of the service itself. -/
def globalSettings (s : Service) : Tree := (s.life.raw.get? "global").getD .null

/-- The service, then its layers with all that is theirs. -/
def textOwners (s : Service) : List TextOwner :=
  .entry label s.globalSettings :: s.layers.flatMap Layer.textOwners

theorem Loads.recorded {functions : Objects HostFunction} {root : Mapping} {s : Service}
    (h : Loads functions root s) : ∃ w, w.Bare ∧ Recorded w s.textOwners s.wording := by
  cases h with
  | @intro globals metadata languages directory _ _ layers r global described _ _ _ _ rest =>
    have own := Metadata.entryTexts_of_parse rfl rfl described
    have title := Metadata.exists_title_of_parse rfl rfl described
    have settings : (Tree.get? (.mapping root) "global").getD .null = .mapping globals := by
      rw [Tree.get?_mapping, global]
      rfl
    have layers := rest.recorded fun _ _ _ _ h => Layer.Loads.recorded h
    exact ⟨blankWording languages directory, ⟨rfl, rfl⟩,
      .cons ⟨globals, settings, own, title⟩ layers⟩

variable {raw : Tree} {functions : Objects HostFunction} {s : Service}

/-- Every entry of a service has a title in its settings, and under each title
and abstract the text of the last owner is displayed. So an entry shows what its
own settings say unless a later owner claims the key. -/
theorem display_text_of_last_owner (h : ofTree raw functions = .ok s) :
    (∀ label cfg, .entry label cfg ∈ s.textOwners →
      ∃ title, (cfg.get? "title").bind Tree.text? = some title) ∧
    ∀ before owner after, s.textOwners = before ++ owner :: after →
      ∀ label, ∀ field ∈ displayFields, ∀ text, owner.Gives label field text →
        (∀ later ∈ after, ¬ later.Claims label field) → s.wording.read label field = some text := by
  obtain ⟨root, rfl, hloads⟩ := loads_of_ofTree h
  obtain ⟨w, hw, recorded⟩ := hloads.recorded
  refine ⟨fun label cfg hm => recorded.exists_title hm, ?_⟩
  intro before owner after howners label field hf text gives unclaimed
  rw [(recorded.bare hw).read_eq]
  rw [howners] at recorded
  exact recorded.default?_of_last hf gives unclaimed

/-! ### A layer under the label of the service

Names of layers are not checked against the label of the global texts. -/

/-- The only layer is called like the label of the global texts. -/
def shadowingTree : Tree := .mapping [
  ("global", .mapping [("title", .text "Service")]),
  ("layers", .list [.mapping [
    ("abstract", .text "One layer"),
    ("bands", .mapping [("b", .list [])]),
    ("name", .text "global"),
    ("product_name", .text "p"),
    ("styling", .mapping [("styles", .list [.mapping [
      ("abstract", .text "One style"), ("name", .text "s"), ("title", .text "Style")]])]),
    ("title", .text "Layer")]])]

/-- The layer's title is displayed, it being the last one under this label. -/
theorem display_text_of_last_owner_shadowing : ∃ s before owner after,
    ofTree shadowingTree Objects.empty = .ok s ∧ s.textOwners = before ++ owner :: after ∧
      owner.Gives "global" "title" "Layer" ∧
      (∀ later ∈ after, ¬ later.Claims "global" "title") ∧
      s.wording.read "global" "title" = some "Layer" := by
  have tested : (ofTree shadowingTree Objects.empty).toOption.any (fun s =>
      match s.layers.flatMap Layer.textOwners with
      | [] => false
      | owner :: after => decide (owner.Gives "global" "title" "Layer" ∧
          ∀ later ∈ after, ¬ later.Claims "global" "title")) = true := by
    decide +kernel
  obtain ⟨s, hs, hp⟩ := exists_ok_of_any tested
  split at hp
  · cases hp
  · next owner after howners =>
    obtain ⟨gives, unclaimed⟩ := of_decide_eq_true hp
    have split : s.textOwners = [.entry label s.globalSettings] ++ owner :: after := by
      rw [textOwners, howners]
      rfl
    exact ⟨s, _, owner, after, hs, split, gives, unclaimed,
      (display_text_of_last_owner hs).2 _ _ _ split _ _ List.mem_cons_self _ gives unclaimed⟩

/-- The service's own title is then not displayed. -/
theorem not_every_title_displayed : ¬ ∀ raw functions s, ofTree raw functions = .ok s →
    ∀ label cfg, .entry label cfg ∈ s.textOwners → ∀ field ∈ displayFields, ∀ text,
      (cfg.get? field).bind Tree.text? = some text → s.wording.read label field = some text := by
  intro every
  have tested : (ofTree shadowingTree Objects.empty).toOption.any (fun s =>
      decide ((s.globalSettings.get? "title").bind Tree.text? = some "Service" ∧
        s.wording.read "global" "title" ≠ some "Service")) = true := by
    decide +kernel
  obtain ⟨s, hs, hp⟩ := exists_ok_of_any tested
  obtain ⟨own, shown⟩ := of_decide_eq_true hp
  exact shown (every _ _ s hs label s.globalSettings List.mem_cons_self "title"
    List.mem_cons_self "Service" own)

end Service

end MapConfig
