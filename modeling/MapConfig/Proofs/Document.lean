import MapConfig.Document
import MapConfig.Proofs.Path
import MapConfig.Proofs.Results
import MapConfig.Proofs.Tree

/-! Where documents are looked for. Below the prefix of a URL, references and the
locations inside documents move in what comes behind the prefix; the prefix is
not looked at, as long as no slash ends it. -/
namespace MapConfig

/-! ## Ends of URLs

A location is what stands before the last slash. If there is a slash behind a prefix,
then the last one is there. -/

namespace DocumentRef
variable {base rest : List Char}

theorem beforeLastSlash_isPrefix (text : List Char) : beforeLastSlash text <+: text := by
  unfold beforeLastSlash
  split
  · exact List.prefix_refl text
  · next c before h =>
    have hs : before <:+ text.reverse :=
      (List.suffix_cons c before).trans (h ▸ List.dropWhile_suffix _)
    rwa [← List.reverse_suffix, List.reverse_reverse]

theorem beforeLastSlash_slash {name : List Char} (h : '/' ∉ name) (front : List Char) :
    beforeLastSlash (front ++ '/' :: name) = front := by
  rw [List.append_cons, beforeLastSlash, Path.dropWhile_reverse_append h, List.reverse_append]
  exact List.reverse_reverse front

theorem exists_name {text : List Char} (h : '/' ∈ text) :
    ∃ front name, text = front ++ '/' :: name ∧ '/' ∉ name := by
  obtain ⟨name, front, parts, plain⟩ := List.eq_append_cons_of_mem (List.mem_reverse.mpr h)
  refine ⟨front.reverse, name.reverse, ?_, fun hm => plain (List.mem_reverse.mp hm)⟩
  simpa using congrArg List.reverse parts

/-- What comes behind is the last slash and a name. -/
theorem eq_beforeLastSlash_append {text : List Char} (h : '/' ∈ text) :
    ∃ name, text = beforeLastSlash text ++ '/' :: name := by
  obtain ⟨front, name, rfl, plain⟩ := exists_name h
  exact ⟨name, by rw [beforeLastSlash_slash plain]⟩

/-- The last slash is behind the prefix, if there is one. -/
theorem beforeLastSlash_append (h : '/' ∈ rest) :
    beforeLastSlash (base ++ rest) = base ++ beforeLastSlash rest := by
  obtain ⟨front, name, rfl, plain⟩ := exists_name h
  rw [← List.append_assoc, beforeLastSlash_slash plain, beforeLastSlash_slash plain]

end DocumentRef

/-! ## References from a URL

A reference without a scheme is glued to the location with one slash. -/

namespace Location

/-- Where a reference leads from a URL: beside what stands before its last slash. -/
def beside (url : List Char) (text : String) : List Char :=
  Path.trimEndSlashes url ++ '/' :: Path.trimHere text.toList

theorem resolve_remote {text : String} (scheme : scheme? text = none) (url : String)
    (allowRemote : Bool) : resolve (.remote url) text allowRemote =
      .ok (.remote (String.ofList (beside url.toList text))) := by
  rw [resolve, scheme]
  rfl

variable {base rest : List Char}

theorem beside_append (h : base.getLast? ≠ some '/') (text : String) :
    beside (base ++ rest) text = base ++ beside rest text := by
  rw [beside, Path.trimEndSlashes_append h, List.append_assoc, beside]

theorem beside_eq_cons (h : Opens rest) (text : String) :
    ∃ more, beside rest text = '/' :: more := by
  unfold beside
  cases hr : Path.trimEndSlashes rest with
  | nil => exact ⟨_, rfl⟩
  | cons c cs =>
    have opens := h.of_isPrefix (Path.trimEndSlashes_isPrefix rest)
    rw [hr] at opens
    exact ⟨_, by rw [opens c rfl]; rfl⟩

end Location

/-! ## Loading

A document is loaded from the bytes of a file or of an object in the store. The store is
not asked where remote documents are not allowed. -/

theorem FileTree.mem_of_read {files : FileTree} {path : Path} {bytes : ByteArray}
    (h : files.read path = .ok bytes) : bytes ∈ files.files.map Prod.snd := by
  unfold read at h
  split at h
  · next found =>
    cases h
    obtain ⟨place, -, file⟩ := Option.bind_eq_some_iff.mp found
    obtain ⟨entry, listed, rfl⟩ := Option.map_eq_some_iff.mp file
    exact List.mem_map_of_mem (List.mem_of_find?_eq_some listed)
  · cases h

namespace Library
variable {l : Library} {doc : DocumentRef} {bytes : ByteArray} {tree : Tree}

/-- Only bytes of files, and of objects in a store that is there, are ever fetched. -/
theorem mem_of_fetch (h : l.fetch doc = .ok bytes) :
    bytes ∈ l.files.files.map Prod.snd ++ (l.store.getD []).map Prod.snd := by
  cases doc with
  | file path => exact List.mem_append_left _ (FileTree.mem_of_read h)
  | remote url =>
    rw [fetch] at h
    split at h
    · cases h
    · split at h
      · cases h
      · next store given =>
        split at h
        · next found =>
          cases h
          rw [given]
          exact List.mem_append_right _ (List.mem_map_of_mem (Table.mem_of_find? found))
        · cases h

theorem exists_bytes_of_load (h : l.load doc = .ok tree) :
    ∃ bytes, l.fetch doc = .ok bytes ∧ Json.parseBytes? bytes = some tree := by
  obtain ⟨bytes, fetched, h⟩ := bind_ok_iff.mp h
  refine ⟨bytes, fetched, ?_⟩
  split at h
  · next parsed =>
    cases h
    exact parsed
  · cases h

/-- A document that is loaded is one of the library. -/
theorem mem_trees_of_load (h : l.load doc = .ok tree) : tree ∈ l.trees := by
  obtain ⟨bytes, fetched, parsed⟩ := exists_bytes_of_load h
  exact List.mem_filterMap.mpr ⟨bytes, mem_of_fetch fetched, parsed⟩

variable {files : FileTree} {store store' : Option (Table ByteArray)}

/-- The tree of a document, if it can be read. -/
theorem toOption_load (l : Library) (doc : DocumentRef) :
    (l.load doc).toOption = (l.fetch doc).toOption.bind Json.parseBytes? := by
  rw [load]
  cases l.fetch doc with
  | error => rfl
  | ok bytes =>
    simp only [Bind.bind, Except.bind, Except.toOption, Option.bind_some]
    cases Json.parseBytes? bytes <;> rfl

theorem load_file_eq_error {path : Path} (absent : ∀ bytes, files.read path = .ok bytes →
    Json.parseBytes? bytes = none) (allowRemote : Bool) :
    ∃ error, (Library.mk files store allowRemote).load (.file path) = .error error := by
  cases hr : files.read path with
  | error error => exact ⟨error, by simp [load, fetch, hr, Bind.bind, Except.bind]⟩
  | ok bytes =>
    exact ⟨_, by simp [load, fetch, hr, Bind.bind, Except.bind, absent bytes hr]; rfl⟩

theorem toOption_load_remote (files : FileTree) (store : Table ByteArray) (url : String) :
    ((Library.mk files (some store) true).load (.remote url)).toOption =
      (store.find? url).bind Json.parseBytes? := by
  rw [toOption_load]
  congr 1
  simp only [fetch, Bool.not_true, Bool.false_eq_true, ↓reduceIte]
  cases store.find? url <;> rfl

/-- Where remote documents are not allowed no store is asked. -/
theorem load_eq_of_disallowed (files : FileTree) (store store' : Option (Table ByteArray))
    (doc : DocumentRef) : (Library.mk files store false).load doc =
      (Library.mk files store' false).load doc := by
  cases doc <;> rfl

end Library

end MapConfig
