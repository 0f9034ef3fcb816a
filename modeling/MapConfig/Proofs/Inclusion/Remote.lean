import MapConfig.Proofs.Document
import MapConfig.Proofs.Inclusion.Termination
import MapConfig.Settings

/-! What remote stores have to do with an expansion. Two expansions are alike when
at every inclusion they bring in the same tree, or fail alike, and go on from
locations that are related again. So a store matters only where remote documents
are allowed, and there it does not matter under which prefix a store keeps them. -/
namespace MapConfig.Inclusion

/-! ## Simulation

The relation `R` holds of a tree and the two locations from which it is expanded. If
every inclusion that the tree has is alike from both, and leads to related locations
again, then nothing tells the two expansions apart. -/

/-- Two inclusions fail alike, or bring in one tree with related locations. -/
inductive Alike (R : Tree → Location → Location → Prop) :
    Except ConfigError Content → Except ConfigError Content → Prop where
  | failed {error : ConfigError} : Alike R (.error error) (.error error)
  | found {tree : Tree} {location location' : Location} (h : R tree location location') :
      Alike R (.ok ⟨tree, location⟩) (.ok ⟨tree, location'⟩)

theorem Alike.bind_eq {R : Tree → Location → Location → Prop} {x x' : Except ConfigError Content}
    (h : Alike R x x') {f f' : Content → Except ConfigError Tree}
    (same : ∀ tree location location', x = .ok ⟨tree, location⟩ → R tree location location' →
      f ⟨tree, location⟩ = f' ⟨tree, location'⟩) : x >>= f = x' >>= f' := by
  cases h with
  | failed => rfl
  | found related => exact same _ _ _ rfl related

section
variable {w : World} {inside : Content → List String → Except ConfigError Tree}
  {location : Location} {chain : List String} {directive : Mapping}

theorem expandTarget_text {name : String} (fresh : name ∉ chain) :
    expandTarget w inside location chain directive (.text name) =
      source directive >>= fun kind => content w kind name location >>= fun inner =>
        inside inner (chain ++ [name]) := by
  rw [expandTarget, if_neg fresh]

/-- What does not depend on the world: the string stands on the chain, or there is none. -/
theorem expandTarget_refused {target : Tree} (h : ∀ name, target = .text name → name ∈ chain) :
    ∃ error, ∀ (w : World) inside location,
      expandTarget w inside location chain directive target = .error error := by
  cases target with
  | text name => exact ⟨_, fun w inside location => by rw [expandTarget, if_pos (h name rfl)]⟩
  | null | bool | number | list | mapping => exact ⟨_, fun w inside location => rfl⟩

end

/-- Where the inclusions of related trees are alike, so are the expansions. -/
theorem expand_eq_of_alike {w w' : World} {R : Tree → Location → Location → Prop}
    (alike : ∀ tree location location', R tree location location' →
      ∀ directive target kind, tree.Includes directive (.text target) →
        source directive = .ok kind →
        Alike R (content w kind target location) (content w' kind target location'))
    {tree : Tree} {location location' : Location} (h : R tree location location')
    (chain : List String) : expand w tree location chain = expand w' tree location' chain := by
  -- The induction is on the strings that can still be included below the node.
  induction hk : (Call.fresh w ⟨tree, location, chain⟩).card using Nat.strongRecOn
    generalizing tree location location' chain with
  | ind k ih =>
    rw [expand_eq, expand_eq]
    refine Tree.replaceIncludes_congr fun directive target hi => ?_
    by_cases fresh : ∀ name, target = .text name → name ∈ chain
    · obtain ⟨error, refused⟩ := expandTarget_refused fresh
      rw [refused, refused]
    · push Not at fresh
      obtain ⟨name, rfl, fresh⟩ := fresh
      rw [expandTarget_text fresh, expandTarget_text fresh]
      refine bind_congr_ok fun kind hkind => ?_
      refine (alike tree location location' h directive name kind hi hkind).bind_eq
        fun inner inside inside' hinner related => ?_
      have used := Finset.card_lt_card
        (fresh_ssubset_of_content hi.mem_includeTargets fresh hinner)
      exact ih _ (hk ▸ used) related _ rfl

/-! ## Without remote documents

The relation is equality of locations: no world asks its store, so all inclusions are
equal. -/

theorem content_eq_of_disallowed (files : FileTree) (objects : Objects Tree)
    (store store' : Option (Table ByteArray)) (kind : Source) (target : String)
    (location : Location) : content ⟨⟨files, store, false⟩, objects⟩ kind target location =
      content ⟨⟨files, store', false⟩, objects⟩ kind target location := by
  cases kind with
  | object => rfl
  | document =>
    simp only [content, document, Library.load_eq_of_disallowed files store store']

theorem expand_eq_of_disallowed (files : FileTree) (objects : Objects Tree)
    (store store' : Option (Table ByteArray)) (tree : Tree) (location : Location)
    (chain : List String) : expand ⟨⟨files, store, false⟩, objects⟩ tree location chain =
      expand ⟨⟨files, store', false⟩, objects⟩ tree location chain := by
  refine expand_eq_of_alike (R := fun _ location location' => location = location')
    (fun tree location location' same directive target kind _ _ => ?_) rfl chain
  subst same
  rw [content_eq_of_disallowed files objects store store']
  cases content ⟨⟨files, store', false⟩, objects⟩ kind target location with
  | error => exact .failed
  | ok inner => exact .found rfl

/-- Where remote documents are not allowed, reading a configuration gives the same
tree or the same error whatever a store holds, and also without any; and so does
expanding any tree, from a remote location as well. -/
theorem store_without_influence (files : FileTree) (objects : Objects Tree)
    (store store' : Option (Table ByteArray)) :
    (∀ (source : Option String) (settings : Settings), settings.allowRemote = false →
      readConfig source settings files store objects =
        readConfig source settings files store' objects) ∧
    ∀ (tree : Tree) (location : Location) (chain : List String),
      expand ⟨⟨files, store, false⟩, objects⟩ tree location chain =
        expand ⟨⟨files, store', false⟩, objects⟩ tree location chain := by
  refine ⟨fun source settings disallowed => ?_, fun tree location chain => ?_⟩
  · unfold readConfig
    refine congrArg _ (funext fun source => ?_)
    rw [disallowed]
    exact expand_eq_of_disallowed files objects store store' ..
  · exact expand_eq_of_disallowed files objects store store' tree location chain

/-! ### A layer with its bands in a store

The document is named by a URL, so that reading it is refused; the object is at hand,
and fails at the document that it includes. -/

/-- A store with the given documents below a prefix. -/
def storeUnder (base : String) (documents : Table ByteArray) : Table ByteArray :=
  documents.map fun entry => (base ++ "/" ++ entry.1, entry.2)

theorem find?_storeUnder (base : String) (documents : Table ByteArray) (rest : String) :
    (storeUnder base documents).find? (base ++ "/" ++ rest) = documents.find? rest := by
  induction documents with
  | nil => rfl
  | cons entry documents ih =>
    have same : base ++ "/" ++ entry.1 = base ++ "/" ++ rest ↔ entry.1 = rest :=
      String.append_right_inj _
    show Table.find? ((base ++ "/" ++ entry.1, entry.2) :: storeUnder base documents) _ = _
    simp only [Table.find?, same, ih]

/-- The layer includes its bands, which stand beside it. -/
def layerDocuments : Table ByteArray := [
  ("layers/bands.json", "[\"r\"]".toUTF8),
  ("layers/l.json", "\x7b\"bands\": \x7b\"include\": \"./bands.json\"\x7d\x7d".toUTF8)]

def layerObjects : Objects Tree :=
  ⟨[("cfgs.layer", .mapping [("include", .text "layers/l.json")])]⟩

def layerTree : Tree := .mapping [("include", .text "cfgs.layer"), ("type", .text "python")]

theorem store_without_influence_layered : Settings.default.allowRemote = false ∧
    readConfig (some "s3://b/layers/l.json") Settings.default ⟨[], []⟩
        (some (storeUnder "s3://b" layerDocuments)) layerObjects =
      readConfig (some "s3://b/layers/l.json") Settings.default ⟨[], []⟩ none layerObjects ∧
    expand ⟨⟨⟨[], []⟩, some (storeUnder "s3://b" layerDocuments), false⟩, layerObjects⟩ layerTree
        (.remote "s3://b") [] =
      expand ⟨⟨⟨[], []⟩, none, false⟩, layerObjects⟩ layerTree (.remote "s3://b") [] :=
  have same := store_without_influence ⟨[], []⟩ layerObjects
    (some (storeUnder "s3://b" layerDocuments)) none
  ⟨rfl, same.1 _ _ rfl, same.2 _ _ _⟩

/-! ## Under another prefix

The relation is `Moved`: both locations go the same way below their prefixes. A
reference without a scheme keeps them on it, and documents on it are the same, by
assumption on the stores. -/

/-- All documents that a tree includes are named without a scheme, and by no name
under which a file holds a document. -/
def IncludesBeside (files : FileTree) (tree : Tree) : Prop :=
  ∀ directive target, tree.Includes directive (.text target) →
    source directive = .ok .document → scheme? target = none ∧
      ∀ bytes, files.read (Path.ofText target) = .ok bytes → Json.parseBytes? bytes = none

/-- What can be included with a remote store. -/
def remoteWorld (files : FileTree) (store : Table ByteArray) (objects : Objects Tree) : World :=
  ⟨⟨files, some store, true⟩, objects⟩

/-- One store holds under a prefix what another holds under another one. Neither
prefix ends with a slash, and what is there includes nothing but beside itself. -/
structure Relocation (files : FileTree) (objects : Objects Tree) (store store' : Table ByteArray)
    (base base' : String) : Prop where
  unslashed : base.toList.getLast? ≠ some '/'
  unslashed' : base'.toList.getLast? ≠ some '/'
  copied : ∀ rest : String, store.find? (base ++ "/" ++ rest) =
    store'.find? (base' ++ "/" ++ rest)
  documents : ∀ (rest : String) bytes tree, store.find? (base ++ "/" ++ rest) = some bytes →
    Json.parseBytes? bytes = some tree → IncludesBeside files tree
  objects : ∀ entry ∈ objects.entries, IncludesBeside files entry.2

/-- Two locations at the same way below two prefixes. -/
inductive Moved (base base' : String) : Location → Location → Prop where
  | intro {rest : List Char} (opens : Opens rest) :
      Moved base base' (.remote (base ++ String.ofList rest))
        (.remote (base' ++ String.ofList rest))

section
variable {files : FileTree} {store store' : Table ByteArray} {objects : Objects Tree}
  {base base' : String}

/-- The document beside a location, for a name that has no scheme and no file. -/
def documentBeside (store : Table ByteArray) (target : String) (url : String) :
    Except ConfigError Content :=
  match (store.find? url).bind Json.parseBytes? with
  | some tree => .ok ⟨tree, .remote (String.ofList (DocumentRef.beforeLastSlash url.toList))⟩
  | none => .error (.malformed (.documentNotFound target))

theorem content_document {target : String} (scheme : scheme? target = none)
    (absent : ∀ bytes, files.read (Path.ofText target) = .ok bytes →
      Json.parseBytes? bytes = none) (url : String) :
    content (remoteWorld files store objects) .document target (.remote url) =
      documentBeside store target (String.ofList (Location.beside url.toList target)) := by
  have parsed : DocumentRef.parse target true = .ok (.file (Path.ofText target)) := by
    rw [DocumentRef.parse, scheme]
  obtain ⟨error, direct⟩ : ∃ error, (Library.mk files (some store) true).load
      (.file (Path.ofText target)) = .error error := Library.load_file_eq_error absent true
  rw [documentBeside, ← Library.toOption_load_remote files store]
  simp only [content, document, remoteWorld, parsed, located, Bind.bind, Except.bind, direct,
    Location.resolve_remote scheme]
  cases (Library.mk files (some store) true).load
    (.remote (String.ofList (Location.beside url.toList target))) <;> rfl

/-- What is found at the same way below two prefixes is the same, and so is the way
from there. -/
theorem Relocation.alike_documentBeside
    (moved : Relocation files objects store store' base base') {rest : List Char}
    (opens : Opens rest) (target : String) :
    Alike (fun tree location location' => IncludesBeside files tree ∧
        Moved base base' location location')
      (documentBeside store target
        (String.ofList (Location.beside (base ++ String.ofList rest).toList target)))
      (documentBeside store' target
        (String.ofList (Location.beside (base' ++ String.ofList rest).toList target))) := by
  obtain ⟨more, hmore⟩ := Location.beside_eq_cons opens target
  -- The reference leads below the prefix, the same way from both.
  have url {b : String} (h : b.toList.getLast? ≠ some '/') :
      String.ofList (Location.beside (b ++ String.ofList rest).toList target) =
        b ++ "/" ++ String.ofList more := by
    rw [String.toList_append, String.toList_ofList, Location.beside_append h, hmore]
    exact String.toList_inj.mp (by simp)
  -- So does the location for what is included inside.
  have place (b : String) :
      String.ofList (DocumentRef.beforeLastSlash (b ++ "/" ++ String.ofList more).toList) =
        b ++ String.ofList (DocumentRef.beforeLastSlash ('/' :: more)) := by
    have chars : (b ++ "/" ++ String.ofList more).toList = b.toList ++ '/' :: more := by simp
    rw [chars, DocumentRef.beforeLastSlash_append List.mem_cons_self, String.ofList_append,
      String.ofList_toList]
  have opensInside : Opens (DocumentRef.beforeLastSlash ('/' :: more)) :=
    Opens.of_isPrefix (by simp [Opens]) (DocumentRef.beforeLastSlash_isPrefix _)
  rw [url moved.unslashed, url moved.unslashed', documentBeside, documentBeside, ← moved.copied,
    place, place]
  cases hfound : (store.find? (base ++ "/" ++ String.ofList more)).bind Json.parseBytes? with
  | none => exact .failed
  | some tree =>
    obtain ⟨bytes, hbytes, hparse⟩ := Option.bind_eq_some_iff.mp hfound
    exact .found ⟨moved.documents _ bytes tree hbytes hparse, .intro opensInside⟩

/-- An expansion does not depend on the prefix under which a store keeps the
documents. Neither prefix has to be a URL for that. -/
theorem expand_relocated (moved : Relocation files objects store store' base base') {tree : Tree}
    (beside : IncludesBeside files tree) (chain : List String) :
    expand (remoteWorld files store objects) tree (.remote base) chain =
      expand (remoteWorld files store' objects) tree (.remote base') chain := by
  refine expand_eq_of_alike (R := fun tree location location' =>
    IncludesBeside files tree ∧ Moved base base' location location') ?_ ⟨beside, ?_⟩ chain
  · rintro tree _ _ ⟨beside, @⟨rest, opens⟩⟩ directive target kind hi hkind
    cases kind with
    | object =>
      rw [content, content]
      show Alike _ (objects.resolve target >>= _) (objects.resolve target >>= _)
      cases hresolve : objects.resolve target with
      | error => exact .failed
      | ok inner =>
        exact .found ⟨moved.objects _ (Objects.mem_of_resolve hresolve), .intro opens⟩
    | document =>
      obtain ⟨scheme, absent⟩ := beside directive target hi hkind
      rw [content_document scheme absent, content_document scheme absent]
      exact moved.alike_documentBeside opens target
  -- The way from a prefix to itself is empty.
  · have here : Moved base base' (.remote (base ++ String.ofList []))
        (.remote (base' ++ String.ofList [])) := .intro (by simp [Opens])
    simpa using here

end

/-! ### The same layer under another prefix -/

theorem includesBeside_of_targets {tree : Tree}
    (h : ∀ target ∈ tree.includeTargets, scheme? target = none) :
    IncludesBeside ⟨[], []⟩ tree := by
  intro directive target hi _
  refine ⟨h target hi.mem_includeTargets, fun bytes hread => ?_⟩
  have nothing (place : Option Place) : place.bind (FileTree.file? ⟨[], []⟩) = none := by
    cases place <;> rfl
  rw [FileTree.read, nothing] at hread
  cases hread

theorem relocation_layer : Relocation ⟨[], []⟩ layerObjects (storeUnder "s3://b" layerDocuments)
    (storeUnder "s3://mirror/2" layerDocuments) "s3://b" "s3://mirror/2" where
  unslashed := by decide
  unslashed' := by decide
  copied rest := by rw [find?_storeUnder, find?_storeUnder]
  documents rest bytes tree hbytes hparse := by
    have plain : ∀ tree ∈ layerDocuments.filterMap (Json.parseBytes? ·.2),
        ∀ target ∈ tree.includeTargets, scheme? target = none := by decide +kernel
    rw [find?_storeUnder] at hbytes
    refine includesBeside_of_targets (plain tree ?_)
    exact List.mem_filterMap.mpr ⟨_, Table.mem_of_find? hbytes, hparse⟩
  objects entry hm := by
    have plain : ∀ entry ∈ layerObjects.entries,
        ∀ target ∈ entry.2.includeTargets, scheme? target = none := by decide +kernel
    exact includesBeside_of_targets (plain entry hm)

theorem expand_relocated_layer :
    Relocation ⟨[], []⟩ layerObjects (storeUnder "s3://b" layerDocuments)
        (storeUnder "s3://mirror/2" layerDocuments) "s3://b" "s3://mirror/2" ∧
      IncludesBeside ⟨[], []⟩ layerTree ∧ ∃ result,
        result.same (.mapping [("bands", .list [.text "r"])]) ∧
        expand (remoteWorld ⟨[], []⟩ (storeUnder "s3://b" layerDocuments) layerObjects) layerTree
          (.remote "s3://b") [] = .ok result ∧
        expand (remoteWorld ⟨[], []⟩ (storeUnder "s3://mirror/2" layerDocuments) layerObjects)
          layerTree (.remote "s3://mirror/2") [] = .ok result := by
  have beside : IncludesBeside ⟨[], []⟩ layerTree :=
    includesBeside_of_targets (by decide +kernel)
  have tested : (expand (remoteWorld ⟨[], []⟩ (storeUnder "s3://b" layerDocuments) layerObjects)
      layerTree (.remote "s3://b") []).toOption.any
      (fun result => result.same (.mapping [("bands", .list [.text "r"])])) = true := by
    decide +kernel
  obtain ⟨result, h, same⟩ := exists_ok_of_any tested
  exact ⟨relocation_layer, beside, result, same, h,
    expand_relocated relocation_layer beside [] ▸ h⟩

end MapConfig.Inclusion
