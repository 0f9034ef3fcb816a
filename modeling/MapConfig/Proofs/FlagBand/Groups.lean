import MapConfig.Proofs.FlagBand
import Mathlib.Data.List.Induction
import Mathlib.Data.List.Nodup

/-! Groups of flag bands. A band is compared with the group that it joins, never with
another band; yet the grouping succeeds exactly when the bands agree two by two, and
each group is then what its members have in common. -/
namespace MapConfig

theorem NameSet.ofList_concat (names : List String) (name : String) :
    ofList (names ++ [name]) = (ofList names).insert name := by
  simp [ofList]

namespace FlagBand
variable {f : FlagBand} {scope : LayerScope}

/-- The name of the fuse function, if there is one. -/
def fuseName (f : FlagBand) : Option String := f.fuse.map BoundFunction.name

/-- A flag band of a layer, as it is read and as attempts to make it ready leave it. -/
inductive OfLayer (scope : LayerScope) : FlagBand → Prop where
  | parsed {cfg : Tree} {functions : Objects HostFunction} {f : FlagBand}
      (h : parse cfg scope functions = .ok f) : OfLayer scope f
  | attempted {f : FlagBand} (h : OfLayer scope f) (dc : Datacube) :
      OfLayer scope (f.makeReady dc).entry
  | attemptedIn {f : FlagBand} (h : OfLayer scope f) (dc : Datacube) :
      OfLayer scope (f.makeReadyIn dc scope).entry

/-- The second phase changes neither the products nor whose they are. -/
theorem makeReady_products (f : FlagBand) (dc : Datacube) :
    (f.makeReady dc).entry.products = f.products ∧
      (f.makeReady dc).entry.ownProducts = f.ownProducts := by
  unfold makeReady
  split
  · exact ⟨rfl, rfl⟩
  · apply Lifecycle.finish_entry
      (motive := fun f' : FlagBand => f'.products = f.products ∧ f'.ownProducts = f.ownProducts)
    · exact ⟨rfl, rfl⟩
    · intro _ _
      exact ⟨rfl, rfl⟩

/-- A band is one of the layer's own products exactly if it has the layer's products. -/
theorem OfLayer.ownProducts_eq (h : f.OfLayer scope) :
    f.ownProducts = decide (f.products = scope.products) := by
  induction h with
  | parsed h =>
    obtain ⟨_, _, h⟩ := bind_ok_iff.mp h
    obtain ⟨_, _, h⟩ := bind_ok_iff.mp h
    obtain ⟨_, _, h⟩ := bind_ok_iff.mp h
    obtain ⟨_, _, h⟩ := bind_ok_iff.mp h
    obtain ⟨_, _, h⟩ := bind_ok_iff.mp h
    obtain ⟨_, _, h⟩ := bind_ok_iff.mp h
    cases h
    rfl
  | attempted _ dc ih =>
    obtain ⟨products, own⟩ := makeReady_products _ dc
    rw [own, products, ih]
  | @attemptedIn f _ dc ih =>
    obtain ⟨canonical, resolved⟩ := f.resolved_eq scope.band
    obtain ⟨products, own⟩ := makeReady_products (f.resolved scope.band) dc
    rw [makeReadyIn, own, products, resolved]
    exact ih

/-- What two bands of one group have in common. -/
structure Agrees (f other : FlagBand) : Prop where
  ignoreTime : f.ignoreTime = other.ignoreTime
  fuse : ∀ name otherName, f.fuseName = some name → other.fuseName = some otherName →
    name = otherName

theorem Agrees.refl (f : FlagBand) : f.Agrees f :=
  ⟨rfl, fun _ _ h h' => Option.some.inj (h.symm.trans h')⟩

theorem Agrees.symm {other : FlagBand} (h : f.Agrees other) : other.Agrees f :=
  ⟨h.ignoreTime.symm, fun _ _ hf hg => (h.fuse _ _ hg hf).symm⟩

end FlagBand

namespace FlagGroup
variable {g g' : FlagGroup} {f : FlagBand} {groups groups' : List FlagGroup}
  {bands : List FlagBand} {scope : LayerScope}

/-- Bands with the same products agree. -/
def Agreeing (bands : List FlagBand) : Prop :=
  ∀ f ∈ bands, ∀ other ∈ bands, f.products = other.products → f.Agrees other

/-- The bands that are read from these products. -/
def members (bands : List FlagBand) (products : List String) : List FlagBand :=
  bands.filter fun f => decide (f.products = products)

/-- The group is what these bands have in common, of which there is at least one. -/
structure Gathers (g : FlagGroup) (members : List FlagBand) : Prop where
  lowResProducts : members.head?.map FlagBand.lowResProducts = some g.lowResProducts
  bands : g.bands = NameSet.ofList (members.map FlagBand.canonical)
  ignoreTime : ∀ f ∈ members, f.ignoreTime = g.ignoreTime
  manualMerge : g.manualMerge = true ↔ ∃ f ∈ members, f.manualMerge = true
  fuse : ∀ name, g.fuse = some name ↔ ∃ f ∈ members, f.fuseName = some name
  ownProducts : ∀ f ∈ members, f.ownProducts = g.ownProducts

/-- The groups of these bands: one for all bands with the same products, in the order in
which the products first come up. -/
structure Grouped (bands : List FlagBand) (groups : List FlagGroup) : Prop where
  products : groups.map FlagGroup.products = (bands.map FlagBand.products).eraseDups
  distinct : (groups.map FlagGroup.products).Nodup
  gathers : ∀ g ∈ groups, g.Gathers (members bands g.products)

/-! ## A band joins a group

`placed_cases` says all that placing a band can do; the proofs below split along it and
never unfold the search for the group. -/

/-- What a group asks of a band. -/
structure Accepts (g : FlagGroup) (f : FlagBand) : Prop where
  ignoreTime : g.ignoreTime = f.ignoreTime
  fuse : ∀ name otherName, g.fuse = some name → f.fuseName = some otherName → name = otherName

/-- The group with another band. -/
def joined (g : FlagGroup) (f : FlagBand) : FlagGroup :=
  { g with
    fuse := g.fuse.or f.fuseName
    manualMerge := g.manualMerge || f.manualMerge
    bands := g.bands.insert f.canonical }

theorem accepts_iff : g.Accepts f ↔
    ¬ (g.fuse.isSome ∧ f.fuseName.isSome ∧ g.fuse ≠ f.fuseName) ∧
      g.ignoreTime = f.ignoreTime := by
  constructor
  · intro h
    refine ⟨?_, h.ignoreTime⟩
    rintro ⟨hg, hf, hne⟩
    obtain ⟨name, hname⟩ := Option.isSome_iff_exists.mp hg
    obtain ⟨other, hother⟩ := Option.isSome_iff_exists.mp hf
    exact hne (by rw [hname, hother, h.fuse name other hname hother])
  · rintro ⟨same, ignoreTime⟩
    refine ⟨ignoreTime, fun name other hg hf => ?_⟩
    by_contra hne
    exact same ⟨by simp [hg], by simp [hf], by simp [hg, hf, hne]⟩

theorem add_ok_iff : g.add f = .ok g' ↔ g.Accepts f ∧ g' = g.joined f := by
  rw [accepts_iff]
  change (if g.fuse.isSome ∧ f.fuseName.isSome ∧ g.fuse ≠ f.fuseName then _
    else if g.ignoreTime ≠ f.ignoreTime then _ else Except.ok (g.joined f)) = _ ↔ _
  split
  · next differ => simp [differ]
  · next same =>
    split
    · next ignoreTime => simp [ignoreTime]
    · next ignoreTime =>
      rw [Except.ok.injEq, eq_comm]
      exact ⟨fun h => ⟨⟨same, not_not.mp ignoreTime⟩, h⟩, And.right⟩

/-- Placing a band succeeds unless the first group of its products refuses it. -/
theorem exists_place_iff : (∃ groups', place f groups = .ok groups') ↔
    ∀ g, groups.find? (fun g => decide (g.products = f.products)) = some g → g.Accepts f := by
  induction groups with
  | nil => simp [place]
  | cons g rest ih =>
    rw [place, List.find?_cons]
    by_cases same : g.products = f.products
    · simp [same, map_ok_iff, add_ok_iff]
    · simp only [same, if_false, bind_ok_iff, decide_false]
      rw [← ih]
      constructor
      · rintro ⟨_, placed, h, _⟩
        exact ⟨placed, h⟩
      · rintro ⟨placed, h⟩
        exact ⟨g :: placed, placed, h, rfl⟩

/-- A placed band has joined the first group of its products, or it has started one. -/
theorem placed_cases (h : place f groups = .ok groups') :
    (∃ before g after, groups = before ++ g :: after ∧ g.products = f.products ∧ g.Accepts f ∧
      groups' = before ++ g.joined f :: after) ∨
    ((∀ g ∈ groups, g.products ≠ f.products) ∧ groups' = groups ++ [ofBand f]) := by
  induction groups generalizing groups' with
  | nil =>
    cases h
    exact .inr ⟨by simp, rfl⟩
  | cons g rest ih =>
    rw [place] at h
    split at h
    · next same =>
      obtain ⟨g', added, h⟩ := bind_ok_iff.mp h
      cases h
      obtain ⟨accepts, rfl⟩ := add_ok_iff.mp added
      exact .inl ⟨[], g, rest, rfl, same, accepts, rfl⟩
    · next other =>
      obtain ⟨placed, hplaced, h⟩ := bind_ok_iff.mp h
      cases h
      rcases ih hplaced with ⟨before, g', after, rfl, same, accepts, rfl⟩ | ⟨others, rfl⟩
      · exact .inl ⟨g :: before, g', after, rfl, same, accepts, rfl⟩
      · exact .inr ⟨List.forall_mem_cons.mpr ⟨other, others⟩, rfl⟩

/-! ## What a group gathers

A group keeps one flag and at most one fuse function for all of its members. Still it
accepts a band exactly if each of the members agrees with the band. -/

theorem members_append (bands : List FlagBand) (f : FlagBand) (products : List String) :
    members (bands ++ [f]) products =
      members bands products ++ if f.products = products then [f] else [] := by
  rw [members, List.filter_append, List.filter_singleton]
  simp [members]

theorem mem_members {products : List String} :
    f ∈ members bands products ↔ f ∈ bands ∧ f.products = products := by
  simp [members]

theorem Gathers.exists_member {ms : List FlagBand} (h : g.Gathers ms) : ∃ f, f ∈ ms := by
  cases ms with
  | nil => cases h.lowResProducts
  | cons f _ => exact ⟨f, List.mem_cons_self⟩

/-- The group accepts what agrees with all of its members. -/
theorem Gathers.accepts_iff {ms : List FlagBand} (h : g.Gathers ms) :
    g.Accepts f ↔ ∀ member ∈ ms, member.Agrees f := by
  constructor
  · intro accepts member hm
    refine ⟨(h.ignoreTime member hm).trans accepts.ignoreTime, fun name other hname => ?_⟩
    exact accepts.fuse name other ((h.fuse name).mpr ⟨member, hm, hname⟩)
  · intro agree
    obtain ⟨member, hm⟩ := h.exists_member
    refine ⟨(h.ignoreTime member hm).symm.trans (agree member hm).ignoreTime, ?_⟩
    intro name other hname
    obtain ⟨fused, hfused, hname⟩ := (h.fuse name).mp hname
    exact (agree fused hfused).fuse name other hname

/-- A first band. -/
theorem gathers_ofBand (f : FlagBand) : (ofBand f).Gathers [f] where
  lowResProducts := rfl
  bands := rfl
  ignoreTime := by simp [ofBand]
  manualMerge := by simp [ofBand]
  fuse := by simp [ofBand, FlagBand.fuseName]
  ownProducts := by simp [ofBand]

/-- A further band. -/
theorem Gathers.joined {ms : List FlagBand} (h : g.Gathers ms) (accepts : g.Accepts f)
    (own : f.ownProducts = g.ownProducts) : (g.joined f).Gathers (ms ++ [f]) where
  lowResProducts := by
    obtain ⟨member, hm⟩ := h.exists_member
    rw [List.head?_append_of_ne_nil _ (List.ne_nil_of_mem hm)]
    exact h.lowResProducts
  bands := by
    show g.bands.insert f.canonical = _
    rw [h.bands, List.map_append, List.map_singleton, NameSet.ofList_concat]
  ignoreTime := by
    rw [List.forall_mem_append]
    exact ⟨h.ignoreTime, List.forall_mem_singleton.mpr accepts.ignoreTime.symm⟩
  manualMerge := by
    show (g.manualMerge || f.manualMerge) = true ↔ _
    simp [h.manualMerge, or_and_right, exists_or]
  fuse := by
    intro name
    show g.fuse.or f.fuseName = some name ↔ _
    simp only [List.mem_append, List.mem_singleton, or_and_right, exists_or, exists_eq_left,
      ← h.fuse]
    cases hg : g.fuse with
    | none => simp
    | some shared =>
      -- The group keeps the function it shares; a member that names another was not accepted.
      rw [Option.some_or]
      constructor
      · exact .inl
      · rintro (same | hf)
        · exact same
        · rw [accepts.fuse shared name hg hf]
  ownProducts := by
    rw [List.forall_mem_append]
    exact ⟨h.ownProducts, List.forall_mem_singleton.mpr own⟩

/-! ## The groups of the bands so far

`Grouped` is the invariant of placing one band after the other: it holds of no bands,
and joining and starting a group preserve it. -/

theorem Grouped.nil : Grouped [] [] := ⟨rfl, List.nodup_nil, by simp⟩

theorem Grouped.mem_products (h : Grouped bands groups) {products : List String} :
    (∃ g ∈ groups, g.products = products) ↔ ∃ f ∈ bands, f.products = products := by
  have same : products ∈ groups.map FlagGroup.products ↔
      products ∈ bands.map FlagBand.products := by
    rw [h.products, List.mem_eraseDups]
  simpa using same

/-- Products that have come up before do not come up first. -/
theorem eraseDups_products (bands : List FlagBand) (f : FlagBand) :
    ((bands ++ [f]).map FlagBand.products).eraseDups =
      (bands.map FlagBand.products).eraseDups ++
        if f.products ∈ bands.map FlagBand.products then [] else [f.products] := by
  rw [List.map_append, List.map_singleton, List.eraseDups_append, List.removeAll,
    List.filter_singleton]
  by_cases known : f.products ∈ bands.map FlagBand.products
  · simp only [List.elem_eq_true_of_mem known, known, if_true]
    rfl
  · have absent : (bands.map FlagBand.products).elem f.products = false :=
      Bool.eq_false_iff.mpr fun h => known (List.elem_iff.mp h)
    simp only [absent, known, if_false]
    rfl

/-- No other group has the products of this one. -/
theorem Grouped.products_ne {before after : List FlagGroup}
    (h : Grouped bands (before ++ g :: after)) :
    ∀ other ∈ before ++ after, g.products ≠ other.products := by
  have distinct := h.distinct
  rw [List.map_append, List.map_cons, List.nodup_middle, List.nodup_cons, ← List.map_append]
    at distinct
  intro other hm same
  exact distinct.1 (List.mem_map.mpr ⟨other, hm, same.symm⟩)

/-- A band of the layer joins the group of its products. -/
theorem Grouped.joins {before after : List FlagGroup}
    (h : Grouped bands (before ++ g :: after)) (layer : ∀ f' ∈ bands ++ [f], f'.OfLayer scope)
    (same : g.products = f.products) (accepts : g.Accepts f) :
    Grouped (bands ++ [f]) (before ++ g.joined f :: after) := by
  have gathered := h.gathers g (by simp)
  obtain ⟨member, hm⟩ := gathered.exists_member
  obtain ⟨seen, products⟩ := mem_members.mp hm
  have unchanged : (before ++ g.joined f :: after).map FlagGroup.products =
      (before ++ g :: after).map FlagGroup.products := by
    simp [joined]
  refine ⟨?_, ?_, ?_⟩
  · have known : f.products ∈ bands.map FlagBand.products :=
      List.mem_map.mpr ⟨member, seen, products.trans same⟩
    rw [unchanged, eraseDups_products, if_pos known, List.append_nil, h.products]
  · rw [unchanged]
    exact h.distinct
  · intro other hother
    rw [List.mem_append, List.mem_cons, or_left_comm, ← List.mem_append] at hother
    rw [members_append]
    rcases hother with rfl | hother
    · show (g.joined f).Gathers (members bands g.products ++
        if f.products = g.products then [f] else [])
      rw [if_pos same.symm]
      refine gathered.joined accepts ?_
      -- Whose products they are is told by the products, and those are a member's.
      rw [← gathered.ownProducts member hm, (layer f (by simp)).ownProducts_eq,
        (layer member (by simp [seen])).ownProducts_eq, products, same]
    · rw [if_neg (same ▸ h.products_ne other hother), List.append_nil]
      refine h.gathers other ?_
      rw [List.mem_append] at hother
      simpa using hother.imp_right .inr

/-- A band whose products are new starts a group. -/
theorem Grouped.starts (h : Grouped bands groups) (new : ∀ g ∈ groups, g.products ≠ f.products) :
    Grouped (bands ++ [f]) (groups ++ [ofBand f]) := by
  have unseen : ∀ member ∈ bands, member.products ≠ f.products := by
    intro member seen products
    obtain ⟨g, hg, same⟩ := h.mem_products.mpr ⟨member, seen, products⟩
    exact new g hg same
  refine ⟨?_, ?_, ?_⟩
  · have unknown : f.products ∉ bands.map FlagBand.products := by simpa using unseen
    rw [eraseDups_products, if_neg unknown, List.map_append, h.products]
    rfl
  · rw [List.map_append, List.map_singleton, ← List.concat_eq_append]
    exact h.distinct.concat (by simpa [ofBand] using new)
  · intro g hm
    rw [members_append]
    rcases List.mem_append.mp hm with hm | hm
    · rw [if_neg (new g hm).symm, List.append_nil]
      exact h.gathers g hm
    · cases List.mem_singleton.mp hm
      show (ofBand f).Gathers (members bands f.products ++
        if f.products = f.products then [f] else [])
      have none_before : members bands f.products = [] := by simpa [members] using unseen
      rw [none_before, if_pos rfl]
      exact gathers_ofBand f

theorem Grouped.place (h : Grouped bands groups) (layer : ∀ f' ∈ bands ++ [f], f'.OfLayer scope)
    (placed : place f groups = .ok groups') : Grouped (bands ++ [f]) groups' := by
  rcases placed_cases placed with ⟨before, g, after, rfl, same, accepts, rfl⟩ | ⟨new, rfl⟩
  · exact h.joins layer same accepts
  · exact h.starts new

/-- A band can be placed exactly if it agrees with the bands before it. -/
theorem Grouped.exists_place_iff (h : Grouped bands groups) :
    (∃ groups', FlagGroup.place f groups = .ok groups') ↔
      ∀ member ∈ bands, member.products = f.products → member.Agrees f := by
  rw [FlagGroup.exists_place_iff]
  constructor
  · intro accepts member seen products
    obtain ⟨g, hg, same⟩ := h.mem_products.mpr ⟨member, seen, products⟩
    have found : (groups.find? fun g => decide (g.products = f.products)).isSome :=
      List.find?_isSome.mpr ⟨g, hg, by simpa using same⟩
    obtain ⟨first, hfirst⟩ := Option.isSome_iff_exists.mp found
    have same : first.products = f.products := by simpa using List.find?_some hfirst
    have gathered := h.gathers first (List.mem_of_find?_eq_some hfirst)
    refine gathered.accepts_iff.mp (accepts first hfirst) member ?_
    exact mem_members.mpr ⟨seen, products.trans same.symm⟩
  · intro agree g hg
    have same : g.products = f.products := by simpa using List.find?_some hg
    refine (h.gathers g (List.mem_of_find?_eq_some hg)).accepts_iff.mpr fun member hm => ?_
    obtain ⟨seen, products⟩ := mem_members.mp hm
    exact agree member seen (products.trans same)

/-! ## All bands of a layer

Induction from the last band on, since a band is placed in the groups of those before
it. -/

theorem build_concat (bands : List FlagBand) (f : FlagBand) :
    build (bands ++ [f]) = build bands >>= fun groups => place f groups := by
  rw [build, List.foldlM_append]
  simp [build]

theorem agreeing_concat_iff : Agreeing (bands ++ [f]) ↔ Agreeing bands ∧
    ∀ member ∈ bands, member.products = f.products → member.Agrees f := by
  constructor
  · intro agreeing
    constructor
    · intro member hm other hother
      exact agreeing member (by simp [hm]) other (by simp [hother])
    · intro member hm
      exact agreeing member (by simp [hm]) f (by simp)
  · rintro ⟨agreeing, last⟩ member hm other hother products
    rw [List.mem_append, List.mem_singleton] at hm hother
    rcases hm with hm | rfl <;> rcases hother with hother | rfl
    · exact agreeing member hm other hother products
    · exact last member hm products
    · exact (last other hother products.symm).symm
    · exact .refl _

/-- The grouping follows the bands one by one. -/
theorem grouped_of_build (layer : ∀ f ∈ bands, f.OfLayer scope) (h : build bands = .ok groups) :
    Grouped bands groups := by
  induction bands using List.reverseRecOn generalizing groups with
  | nil =>
    cases h
    exact .nil
  | append_singleton bands f ih =>
    obtain ⟨before, hbefore, placed⟩ := bind_ok_iff.mp (build_concat bands f ▸ h)
    exact (ih (fun f hm => layer f (by simp [hm])) hbefore).place layer placed

theorem exists_build_iff (layer : ∀ f ∈ bands, f.OfLayer scope) :
    (∃ groups, build bands = .ok groups) ↔ Agreeing bands := by
  induction bands using List.reverseRecOn with
  | nil => exact ⟨fun _ => by simp [Agreeing], fun _ => ⟨[], rfl⟩⟩
  | append_singleton bands f ih =>
    have earlier : ∀ f ∈ bands, f.OfLayer scope := fun f hm => layer f (by simp [hm])
    rw [build_concat, agreeing_concat_iff, ← ih earlier]
    simp only [bind_ok_iff]
    constructor
    · rintro ⟨groups', groups, built, placed⟩
      exact ⟨⟨groups, built⟩, (grouped_of_build earlier built).exists_place_iff.mp ⟨_, placed⟩⟩
    · rintro ⟨⟨groups, built⟩, agree⟩
      obtain ⟨groups', placed⟩ := (grouped_of_build earlier built).exists_place_iff.mpr agree
      exact ⟨groups', groups, built, placed⟩

theorem Grouped.exists_unique (h : Grouped bands groups) (hm : f ∈ bands) :
    ∃! g, g ∈ groups ∧ f ∈ members bands g.products := by
  obtain ⟨g, hg, same⟩ := h.mem_products.mpr ⟨f, hm, rfl⟩
  refine ⟨g, ⟨hg, mem_members.mpr ⟨hm, same.symm⟩⟩, ?_⟩
  rintro other ⟨hother, member⟩
  exact List.inj_on_of_nodup_map h.distinct hother hg
    ((mem_members.mp member).2.symm.trans same.symm)

/-- The flag bands of a layer can be grouped exactly if any two with the same products
agree, in whichever order they are listed; each band then is in one group, and the groups
are what their members have in common. -/
theorem build_gathers_agreeing (layer : ∀ f ∈ bands, f.OfLayer scope) :
    ((∃ groups, build bands = .ok groups) ↔ Agreeing bands) ∧
      (∀ others, others.Perm bands →
        ((∃ groups, build others = .ok groups) ↔ ∃ groups, build bands = .ok groups)) ∧
      ∀ groups, build bands = .ok groups → Grouped bands groups ∧
        ∀ f ∈ bands, ∃! g, g ∈ groups ∧ f ∈ members bands g.products := by
  refine ⟨exists_build_iff layer, fun others same => ?_, fun groups built => ?_⟩
  · rw [exists_build_iff layer, exists_build_iff fun f hm => layer f (same.mem_iff.mp hm)]
    simp only [Agreeing, same.mem_iff]
  · have grouped := grouped_of_build layer built
    exact ⟨grouped, fun f => grouped.exists_unique⟩

/-- A layer of one product. -/
def plainScope : LayerScope := ⟨"l", ["p"], [], .ok, .null⟩

def fusing : Objects HostFunction := ⟨[("fuse.quality", fun _ => .ok .null)]⟩

/-- A band of the layer, one of another product, and one of the layer that is fused. -/
def interleaved : List Tree := [
  .mapping [("band", .text "fmask"), ("manual_merge", .bool true)],
  .mapping [("band", .text "coast"), ("ignore_time", .bool true), ("product", .text "q")],
  .mapping [("band", .text "pq"), ("fuse_func", .text "fuse.quality")]]

def interleavedGroups : List FlagGroup := [
  ⟨["p"], [], .ofList ["fmask", "pq"], false, true, some "fuse.quality", true⟩,
  ⟨["q"], [], {"coast"}, true, false, none, false⟩]

theorem build_gathers_interleaved : ∃ bands,
    interleaved.mapM (FlagBand.parse · plainScope fusing) = .ok bands ∧
      (∀ f ∈ bands, f.OfLayer plainScope) ∧ build bands = .ok interleavedGroups ∧
      Agreeing bands ∧ Grouped bands interleavedGroups := by
  have tested : (interleaved.mapM (FlagBand.parse · plainScope fusing)).toOption.any (fun bands =>
      (build bands).toOption.any fun groups => decide (groups = interleavedGroups)) = true := by
    decide +kernel
  obtain ⟨bands, parsed, built⟩ := exists_ok_of_any tested
  obtain ⟨groups, built, expected⟩ := exists_ok_of_any built
  obtain rfl := of_decide_eq_true expected
  have layer : ∀ f ∈ bands, f.OfLayer plainScope := by
    intro f hm
    obtain ⟨_, _, h⟩ := exists_of_mem_mapM parsed hm
    exact .parsed h
  obtain ⟨agreeing, _, gathered⟩ := build_gathers_agreeing layer
  exact ⟨bands, parsed, layer, built, agreeing.mp ⟨_, built⟩, (gathered _ built).1⟩

end FlagGroup

end MapConfig
