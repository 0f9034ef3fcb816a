import MapConfig.Proofs.Bands
import MapConfig.Proofs.Results
import MapConfig.Proofs.Tree
import MapConfig.Service

/-! What a successful loading has done. `Loads` holds, for a style, a layer and
a service, the steps on the way from the tree to the entry, each with its
result; entries of one kind are loaded in turn, each on the registries that the
one before has left. -/
namespace MapConfig

universe u

/-- Entries loaded one after the other. -/
inductive LoadsInTurn {α β σ : Type u} (Loads : α → σ → β → σ → Prop) :
    List α → σ → List β → σ → Prop where
  | nil {s : σ} : LoadsInTurn Loads [] s [] s
  | cons {a : α} {as : List α} {b : β} {bs : List β} {s s₁ s' : σ} (first : Loads a s b s₁)
      (rest : LoadsInTurn Loads as s₁ bs s') : LoadsInTurn Loads (a :: as) s (b :: bs) s'

theorem LoadsInTurn.exists_of_mem {α β σ : Type u} {Loads : α → σ → β → σ → Prop} {as : List α}
    {bs : List β} {s s' : σ} (h : LoadsInTurn Loads as s bs s') {b : β} (hm : b ∈ bs) :
    ∃ a s₁ s₂, Loads a s₁ b s₂ := by
  induction h with
  | nil => cases hm
  | cons first _ ih =>
    rcases List.mem_cons.mp hm with rfl | hm
    · exact ⟨_, _, _, first⟩
    · exact ih hm

theorem LoadsInTurn.length_eq {α β σ : Type u} {Loads : α → σ → β → σ → Prop} {as : List α}
    {bs : List β} {s s' : σ} (h : LoadsInTurn Loads as s bs s') : as.length = bs.length := by
  induction h with
  | nil => rfl
  | cons _ _ ih => rw [List.length_cons, List.length_cons, ih]

section
variable {α β σ : Type u} {Loads : α → σ → β → σ → Prop} {as : List α} {bs : List β} {s s' : σ}
  {R : σ → σ → Prop} (refl : ∀ s, R s s) (trans : ∀ s s₁ s₂, R s s₁ → R s₁ s₂ → R s s₂)
  (step : ∀ a s b s', Loads a s b s' → R s s')

include refl trans step

theorem LoadsInTurn.relates (h : LoadsInTurn Loads as s bs s') : R s s' := by
  induction h with
  | nil => exact refl _
  | cons first _ ih => exact trans _ _ _ (step _ _ _ _ first) ih

/-- Each entry was loaded on the way to the last state. -/
theorem LoadsInTurn.exists_of_mem_zip (h : LoadsInTurn Loads as s bs s') {a : α} {b : β}
    (hm : (a, b) ∈ as.zip bs) : ∃ s₁ s₂, Loads a s₁ b s₂ ∧ R s₂ s' := by
  induction h with
  | nil => cases hm
  | cons first rest ih =>
    rcases List.mem_cons.mp hm with same | hm
    · cases same
      exact ⟨_, _, first, rest.relates refl trans step⟩
    · exact ih hm

end

/-- What the loading of each entry keeps is kept in the end. -/
theorem LoadsInTurn.keeps {α β σ : Type u} {Loads : α → σ → β → σ → Prop} {as : List α}
    {bs : List β} {s s' : σ} {P : σ → Prop} (step : ∀ a s b s', Loads a s b s' → P s → P s')
    (h : LoadsInTurn Loads as s bs s') (start : P s) : P s' := by
  induction h with
  | nil => exact start
  | cons first _ ih => exact ih (step _ _ _ _ first start)

/-- What each entry adds at the end of a list, all entries add in their order. -/
theorem LoadsInTurn.appends {α β σ γ : Type u} {Loads : α → σ → β → σ → Prop} {as : List α}
    {bs : List β} {s s' : σ} (held : σ → List γ) {added : β → List γ}
    (step : ∀ a s b s', Loads a s b s' → held s' = held s ++ added b)
    (h : LoadsInTurn Loads as s bs s') : held s' = held s ++ bs.flatMap added := by
  induction h with
  | nil => simp
  | cons first _ ih => rw [ih, step _ _ _ _ first, List.flatMap_cons, List.append_assoc]

/-! ## Styles

`Loads` names every intermediate result of loading a style once. Proofs about loaded
styles start from it and never unfold `load`. -/

namespace Style
variable {scope : LayerScope} {functions : Objects HostFunction}

/-- A style is loaded, and the registries hold it too. -/
inductive Loads (scope : LayerScope) (functions : Objects HostFunction) (raw : Tree)
    (r : Registries) : Style → Registries → Prop where
  | intro {cfg : Mapping} {name : String} {metadata : Metadata} {style : Style}
      {catalogue : Catalogue}
      (expanded : Inheritance.expand raw .style r.catalogue none (layerKeys scope.name) =
        .ok (.mapping cfg))
      (named : Table.find? cfg "name" = some (.text name))
      (described : (Metadata.parse r.wording {} cfg (metadataContext scope.name name)).2 =
        .ok metadata)
      (parts : ofMapping (.mapping cfg) cfg name scope functions = .ok style)
      (entered : r.catalogue.register .style style.keyValues style.life.raw = .ok catalogue) :
      Loads scope functions raw r style ⟨catalogue, r.wording.registerAll
        ((Metadata.parse r.wording {} cfg (metadataContext scope.name name)).1 ++
          style.registrations)⟩

theorem loads_of_load {raw : Tree} {r r' : Registries} {style : Style}
    (h : load raw scope functions r = .ok (style, r')) :
    Loads scope functions raw r style r' := by
  obtain ⟨expanded, hexpanded, h⟩ := bind_ok_iff.mp h
  obtain ⟨cfg, hcfg, h⟩ := bind_ok_iff.mp h
  obtain ⟨name, hname, h⟩ := bind_ok_iff.mp h
  obtain ⟨metadata, hmetadata, h⟩ := bind_ok_iff.mp h
  obtain ⟨loaded, hparts, h⟩ := bind_ok_iff.mp h
  obtain ⟨catalogue, hentered, h⟩ := bind_ok_iff.mp h
  cases h
  cases Tree.asMapping_ok_iff.mp hcfg
  exact .intro hexpanded (Mapping.text_ok_iff.mp hname) hmetadata hparts hentered

/-- What a style takes over from its settings and its layer. -/
theorem ofMapping_ok {raw : Tree} {cfg : Mapping} {name : String} {style : Style}
    (h : ofMapping raw cfg name scope functions = .ok style) :
    style.life = Lifecycle.start raw [] ∧ style.name = name ∧ style.layer = scope.name := by
  obtain ⟨_, _, h⟩ := bind_ok_iff.mp h
  obtain ⟨_, _, h⟩ := bind_ok_iff.mp h
  obtain ⟨_, _, h⟩ := bind_ok_iff.mp h
  obtain ⟨_, _, h⟩ := bind_ok_iff.mp h
  obtain ⟨_, _, h⟩ := bind_ok_iff.mp h
  obtain ⟨_, _, h⟩ := bind_ok_iff.mp h
  obtain ⟨_, _, h⟩ := bind_ok_iff.mp h
  cases h
  exact ⟨rfl, rfl, rfl⟩

theorem ruleOf_ok {band subject : String} {mapper : BandMapper} {cfg : Tree} {r : ColorRule}
    (h : ruleOf band subject mapper cfg = .ok r) :
    r.rule.life = Lifecycle.start cfg [] ∧ mapper band = .ok r.rule.band := by
  obtain ⟨rule, hrule, h⟩ := bind_ok_iff.mp h
  obtain ⟨_, _, h⟩ := bind_ok_iff.mp h
  obtain ⟨_, _, h⟩ := bind_ok_iff.mp h
  obtain ⟨_, _, h⟩ := bind_ok_iff.mp h
  cases h
  obtain ⟨_, _, hrule⟩ := bind_ok_iff.mp hrule
  obtain ⟨canonical, hcanonical, hrule⟩ := bind_ok_iff.mp hrule
  obtain ⟨_, _, hrule⟩ := bind_ok_iff.mp hrule
  cases hrule
  exact ⟨rfl, hcanonical⟩

/-- The bands are those of the settings, in their order, and the rules of each are read
from its list. -/
theorem valueMapOf_ok {cfg : Mapping} {subject : String} {mapper : BandMapper}
    {valueMap : Table (List ColorRule)} (h : valueMapOf cfg subject mapper = .ok valueMap) :
    List.Forall₂ (fun entry ruled => ruled.1 = entry.1 ∧ ∃ items, entry.2 = .list items ∧
        items.mapM (ruleOf entry.1 subject mapper) = .ok ruled.2)
      (((Table.find? cfg "value_map").bind Tree.mapping?).getD []) valueMap := by
  unfold valueMapOf at h
  split at h
  · next absent =>
    cases h
    simp [absent]
  · next null =>
    cases h
    simp [null, Tree.mapping?]
  · next given _ found =>
    obtain ⟨entries, mapped, h⟩ := bind_ok_iff.mp h
    cases Tree.asMapping_ok_iff.mp mapped
    rw [found]
    refine (mapM_ok_iff.mp h).imp ?_
    rintro ⟨band, tree⟩ ruled hrules
    dsimp only at hrules
    split at hrules
    · next items =>
      obtain ⟨parsed, hparsed, same⟩ := bind_ok_iff.mp hrules
      cases same
      exact ⟨rfl, items, rfl, hparsed⟩
    · cases hrules

theorem exists_ruleOf_of_mem {cfg : Mapping} {subject : String} {mapper : BandMapper}
    {valueMap : Table (List ColorRule)} (h : valueMapOf cfg subject mapper = .ok valueMap)
    {r : ColorRule} (hm : r ∈ rules valueMap) :
    ∃ band cfg, ruleOf band subject mapper cfg = .ok r := by
  obtain ⟨entry, hentry, hr⟩ := List.mem_flatMap.mp hm
  obtain ⟨⟨band, _⟩, _, _, items, _, parsed⟩ :=
    exists_mem_of_forall₂_right (valueMapOf_ok h) hentry
  obtain ⟨cfg, _, hcfg⟩ := exists_of_mem_mapM parsed hr
  exact ⟨band, cfg, hcfg⟩

/-- What a style has of its layer, and in which state its rules are. -/
structure Fits (scope : LayerScope) (s : Style) : Prop where
  pending : s.life.pending = ∅
  /-- The bands are canonical names of the layer. -/
  bands : ∀ band ∈ s.neededBands, ∃ name, scope.band name = .ok band
  rules : ∀ r ∈ rules s.valueMap, r.rule.life.isReady = false

theorem fits_of_ofMapping {raw : Tree} {cfg : Mapping} {name : String} {style : Style}
    (h : ofMapping raw cfg name scope functions = .ok style) : style.Fits scope := by
  obtain ⟨bandNames, _, h⟩ := bind_ok_iff.mp h
  obtain ⟨names, _, h⟩ := bind_ok_iff.mp h
  obtain ⟨listed, hlisted, h⟩ := bind_ok_iff.mp h
  obtain ⟨_, _, h⟩ := bind_ok_iff.mp h
  obtain ⟨valueMap, hvalueMap, h⟩ := bind_ok_iff.mp h
  obtain ⟨_, _, h⟩ := bind_ok_iff.mp h
  obtain ⟨_, _, h⟩ := bind_ok_iff.mp h
  cases h
  refine ⟨rfl, fun band hm => ?_, fun r hm => ?_⟩
  · rcases List.mem_append.mp ((NameSet.mem_ofList _ band).mp hm) with hm | hm
    · obtain ⟨name, _, hband⟩ := exists_of_mem_mapM hlisted hm
      exact ⟨_, hband⟩
    · obtain ⟨r, hr, rfl⟩ := List.mem_map.mp hm
      obtain ⟨name, cfg, hrule⟩ := exists_ruleOf_of_mem hvalueMap hr
      exact ⟨_, (ruleOf_ok hrule).2⟩
  · obtain ⟨name, cfg, hrule⟩ := exists_ruleOf_of_mem hvalueMap hm
    rw [(ruleOf_ok hrule).1]
    rfl

end Style

/-! ## Layers

The same for a layer, with its styles loaded in turn. What a layer has as a whole, its
positions of styles and the default among them, follows from the styles. -/

namespace Layer
variable {functions : Objects HostFunction}

theorem loadsInTurn_of_loadStyles {scope : LayerScope} {raws : List Tree} {r r' : Registries}
    {styles : List Style} (h : loadStyles scope functions raws r = .ok (styles, r')) :
    LoadsInTurn (Style.Loads scope functions) raws r styles r' := by
  induction raws generalizing r styles with
  | nil =>
    cases h
    exact .nil
  | cons raw raws ih =>
    obtain ⟨⟨style, r₁⟩, hfirst, h⟩ := bind_ok_iff.mp h
    obtain ⟨⟨rest, r₂⟩, hrest, h⟩ := bind_ok_iff.mp h
    cases h
    exact .cons (Style.loads_of_load hfirst) (ih hrest)

/-- A section of bands is read, and its texts come after those before it. -/
theorem bandsOf_ok_iff {cfg : Mapping} {name subject product : String} {w w' : Wording}
    {bands : BandTable} : bandsOf cfg name subject product w = .ok (bands, w') ↔
      ∃ given, Table.find? cfg "bands" = some given ∧
        BandTable.parse name product given = .ok bands ∧
          w' = w.registerAll bands.registrations := by
  unfold bandsOf
  cases Table.find? cfg "bands" with
  | none => simp
  | some given =>
    dsimp only
    rw [BandTable.run_load]
    cases read : BandTable.parse name product given with
    | error error => simp [Except.map, read]
    | ok table =>
      constructor
      · intro h
        cases h
        exact ⟨given, rfl, read, rfl⟩
      · rintro ⟨_, ⟨⟩, same, rfl⟩
        cases read.symm.trans same
        rfl

/-- A layer is loaded, and the registries hold it and its styles too. -/
inductive Loads (above : Heritage) (functions : Objects HostFunction) (raw : Tree)
    (r : Registries) : Layer → Registries → Prop where
  | intro {cfg styling : Mapping} {name : String} {defaultPosition : Nat} {metadata : Metadata}
      {products : Products} {given : Tree} {bands : BandTable} {flagBands : List FlagBand}
      {flagGroups : List FlagGroup} {fuse : Option BoundFunction} {catalogue : Catalogue}
      {styleTrees : List Tree} {styles : List Style} {r' : Registries}
      (expanded : Inheritance.expand raw .layer r.catalogue none ∅ = .ok (.mapping cfg))
      (named : Table.find? cfg "name" = some (.text name))
      (described : (Metadata.parse r.wording metadataFields cfg (metadataContext name above)).2 =
        .ok metadata)
      (published : productsOf cfg s!"Layer {name}" = .ok products)
      (listed : Table.find? cfg "bands" = some given)
      (banded : BandTable.parse name products.first given = .ok bands)
      (flagged : flagBandsOf cfg (scopeOf (.mapping cfg) name products bands) functions =
        .ok flagBands)
      (grouped : FlagGroup.build flagBands = .ok flagGroups)
      (fused : BoundFunction.parse? (scopeOf (.mapping cfg) name products bands).owner cfg
        "fuse_func" functions = .ok fuse)
      (entered : r.catalogue.register .layer (layerKeys name) (.mapping cfg) = .ok catalogue)
      (styled : stylingOf cfg s!"Layer {name}" = .ok (styling, styleTrees))
      (rest : LoadsInTurn (Style.Loads (scopeOf (.mapping cfg) name products bands) functions)
        styleTrees ⟨catalogue, (r.wording.registerAll
          (Metadata.parse r.wording metadataFields cfg (metadataContext name above)).1).registerAll
            bands.registrations⟩ styles r')
      (shown : defaultPositionOf styling (.positions (styles.map Style.name))
        s!"Layer {name}" = .ok defaultPosition) :
      Loads above functions raw r {
        life := Lifecycle.start (.mapping cfg) ["products", "low_res_products"]
        scope := scopeOf (.mapping cfg) name products bands
        metadata, bands, flagBands, flagGroups, fuse, styles
        styleIndex := .positions (styles.map Style.name)
        defaultPosition
        products := Cell.empty "products"
        lowResProducts := Cell.empty "low_res_products" } r'

theorem loads_of_load {above : Heritage} {raw : Tree} {r r' : Registries} {layer : Layer}
    (h : load raw above functions r = .ok (layer, r')) :
    Loads above functions raw r layer r' := by
  obtain ⟨expanded, hexpanded, h⟩ := bind_ok_iff.mp h
  obtain ⟨cfg, hcfg, h⟩ := bind_ok_iff.mp h
  obtain ⟨name, hname, h⟩ := bind_ok_iff.mp h
  obtain ⟨metadata, hmetadata, h⟩ := bind_ok_iff.mp h
  obtain ⟨products, hproducts, h⟩ := bind_ok_iff.mp h
  obtain ⟨⟨bands, wording⟩, hbands, h⟩ := bind_ok_iff.mp h
  obtain ⟨given, hgiven, hparsed, rfl⟩ := bandsOf_ok_iff.mp hbands
  obtain ⟨flagBands, hflagBands, h⟩ := bind_ok_iff.mp h
  obtain ⟨flagGroups, hflagGroups, h⟩ := bind_ok_iff.mp h
  obtain ⟨fuse, hfuse, h⟩ := bind_ok_iff.mp h
  obtain ⟨catalogue, hentered, h⟩ := bind_ok_iff.mp h
  obtain ⟨⟨styling, styleTrees⟩, hstyling, h⟩ := bind_ok_iff.mp h
  obtain ⟨⟨styles, r₁⟩, hstyles, h⟩ := bind_ok_iff.mp h
  obtain ⟨position, hdefault, h⟩ := bind_ok_iff.mp h
  cases h
  cases Tree.asMapping_ok_iff.mp hcfg
  exact .intro hexpanded (Mapping.text_ok_iff.mp hname) hmetadata hproducts hgiven hparsed
    hflagBands hflagGroups hfuse hentered hstyling (loadsInTurn_of_loadStyles hstyles) hdefault

/-- Each style is given by its settings, in the scope of the layer. -/
theorem Loads.exists_ofMapping {above : Heritage} {raw : Tree} {r r' : Registries} {layer : Layer}
    (h : Loads above functions raw r layer r') : ∀ s ∈ layer.styles,
      ∃ cfg name, Style.ofMapping (.mapping cfg) cfg name layer.scope functions = .ok s := by
  cases h with
  | intro _ _ _ _ _ _ _ _ _ _ _ rest =>
    intro s hm
    obtain ⟨_, _, _, loads⟩ := rest.exists_of_mem hm
    cases loads with
    | intro _ _ _ parts _ => exact ⟨_, _, parts⟩

end Layer

/-! ## The service

The layers of a service are loaded in turn, on the registries that the global section
leaves. -/

namespace Service
variable {functions : Objects HostFunction}

theorem loadsInTurn_of_loadLayers {above : Heritage} {raws : List Tree} {r r' : Registries}
    {layers : List Layer} (h : loadLayers above functions raws r = .ok (layers, r')) :
    LoadsInTurn (Layer.Loads above functions) raws r layers r' := by
  induction raws generalizing r layers with
  | nil =>
    cases h
    exact .nil
  | cons raw raws ih =>
    obtain ⟨⟨layer, r₁⟩, hfirst, h⟩ := bind_ok_iff.mp h
    obtain ⟨⟨rest, r₂⟩, hrest, h⟩ := bind_ok_iff.mp h
    cases h
    exact .cons (Layer.loads_of_load hfirst) (ih hrest)

/-- The texts before any is registered. -/
def blankWording (languages : List String) (directory : Option String) : Wording :=
  { Wording.empty with internationalised := directory.isSome && decide (1 < languages.length) }

/-- A service is loaded, with all of its layers. -/
inductive Loads (functions : Objects HostFunction) (root : Mapping) : Service → Prop where
  | intro {globals : Mapping} {metadata : Metadata} {languages : List String}
      {languageDirectory messageDomain : Option String} {layerTrees : List Tree}
      {layers : List Layer} {r : Registries}
      (global : Table.find? root "global" = some (.mapping globals))
      (described : (Metadata.parse Wording.empty metadataFields globals metadataContext).2 =
        .ok metadata)
      (spoken : languagesOf globals = .ok languages)
      (translated : Mapping.text? globals "translations_directory" "Global section" =
        .ok languageDirectory)
      (grouped : Mapping.text? globals "message_domain" "Global section" = .ok messageDomain)
      (layered : ((Table.find? root "layers").map collectLayers).getD (.ok []) = .ok layerTrees)
      (rest : LoadsInTurn (Layer.Loads (metadata.handedDown label) functions) layerTrees
        ⟨Catalogue.empty, (blankWording languages languageDirectory).registerAll
          (Metadata.parse Wording.empty metadataFields globals metadataContext).1⟩ layers r) :
      Loads functions root {
        life := Lifecycle.start (.mapping root) []
        metadata, languages, languageDirectory
        messageDomain := messageDomain.getD "ows_cfg"
        layers
        layerIndex := .positions (layers.map Layer.name)
        catalogue := r.catalogue
        wording := r.wording }

theorem loads_of_ofTree {raw : Tree} {service : Service} (h : ofTree raw functions = .ok service) :
    ∃ root, raw = .mapping root ∧ Loads functions root service := by
  obtain ⟨root, hroot, h⟩ := bind_ok_iff.mp h
  obtain ⟨globals, hglobals, h⟩ := bind_ok_iff.mp h
  obtain ⟨metadata, hmetadata, h⟩ := bind_ok_iff.mp h
  obtain ⟨languages, hlanguages, h⟩ := bind_ok_iff.mp h
  obtain ⟨directory, hdirectory, h⟩ := bind_ok_iff.mp h
  obtain ⟨domain, hdomain, h⟩ := bind_ok_iff.mp h
  obtain ⟨layerTrees, hlayers, h⟩ := bind_ok_iff.mp h
  obtain ⟨⟨layers, r⟩, hrest, h⟩ := bind_ok_iff.mp h
  cases h
  cases Tree.asMapping_ok_iff.mp hroot
  have global : Table.find? root "global" = some (.mapping globals) := by
    unfold globalOf at hglobals
    split at hglobals
    · next found hf => rw [hf, Tree.asMapping_ok_iff.mp hglobals]
    · cases hglobals
  exact ⟨root, rfl, .intro global hmetadata hlanguages hdirectory hdomain hlayers
    (loadsInTurn_of_loadLayers hrest)⟩

/-- Each layer has been loaded, on some registries. -/
theorem exists_loads_of_mem {raw : Tree} {s : Service} (h : ofTree raw functions = .ok s)
    {l : Layer} (hm : l ∈ s.layers) :
    ∃ above entry r r', Layer.Loads above functions entry r l r' := by
  obtain ⟨root, _, loads⟩ := loads_of_ofTree h
  cases loads with
  | intro _ _ _ _ _ _ rest =>
    obtain ⟨entry, r, r', loads⟩ := rest.exists_of_mem hm
    exact ⟨_, entry, r, r', loads⟩

end Service

end MapConfig
