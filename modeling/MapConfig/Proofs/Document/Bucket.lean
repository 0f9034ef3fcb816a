import MapConfig.Proofs.Document

/-! Where references lead from a remote document. Locations and references cut and glue a
URL at its slashes, so a URL stays in its bucket as long as one of its slashes stands
behind another character of the bucket or of the key; without one, the slashes behind
the scheme are cut. -/
namespace MapConfig

/-! ## The parts of a URL

A URL is cut at its first `://`, and the scheme in front of it has no colon. So a text
that starts like a URL has the parts that it is put together of. -/

section
variable {scheme rest : List Char}

/-- What stands before the first colon belongs to the scheme, if there is one. -/
theorem splitScheme?_append (h : ':' ∉ scheme) (text : List Char) :
    splitScheme? (scheme ++ text) =
      (splitScheme? text).map fun parts => (scheme ++ parts.1, parts.2) := by
  induction scheme with
  | nil => exact Option.map_id_apply.symm
  | cons c scheme ih =>
    obtain ⟨first, later⟩ := not_or.mp (List.mem_cons.not.mp h)
    rw [List.cons_append, splitScheme?, ih later, Option.map_map]
    · rfl
    · exact fun _ colon _ => first colon.symm

theorem splitScheme?_url (h : ':' ∉ scheme) (rest : List Char) :
    splitScheme? (scheme ++ ':' :: '/' :: '/' :: rest) = some (scheme, rest) := by
  rw [splitScheme?_append h, splitScheme?, Option.map_some, List.append_nil]

/-- One slash alone ends no scheme. -/
theorem splitScheme?_eq_none (h : ':' ∉ scheme) : splitScheme? (scheme ++ [':', '/']) = none :=
  splitScheme?_append h [':', '/']

theorem eq_of_splitScheme? {text : List Char} (h : splitScheme? text = some (scheme, rest)) :
    text = scheme ++ ':' :: '/' :: '/' :: rest := by
  fun_induction splitScheme? text generalizing scheme with
  | case1 after =>
    cases h
    rfl
  | case2 => cases h
  | case3 c text _ ih =>
    obtain ⟨⟨scheme, after⟩, found, same⟩ := Option.map_eq_some_iff.mp h
    cases same
    rw [ih found, List.cons_append]

/-- A scheme of remote documents: `s3` in small or in capital letters. -/
structure IsRemoteScheme (scheme : List Char) : Prop where
  valid : (scheme.isEmpty || !scheme.all isSchemeChar) = false
  lower : String.ofList (scheme.map Char.toLower) = "s3"

theorem IsRemoteScheme.not_mem (h : IsRemoteScheme scheme) : ':' ∉ scheme := by
  intro hm
  obtain ⟨-, all⟩ := Bool.or_eq_false_iff.mp h.valid
  rw [Bool.not_eq_false', List.all_eq_true] at all
  exact absurd (all ':' hm) (by decide)

theorem scheme?_eq (text : String) : scheme? text = (splitScheme? text.toList).bind fun parts =>
    if parts.1.isEmpty || !parts.1.all isSchemeChar then none
    else some (String.ofList (parts.1.map Char.toLower)) :=
  rfl

end

namespace DocumentRef

theorem parse_remote_iff {url : String} :
    parse url true = .ok (.remote url) ↔ scheme? url = some "s3" := by
  rw [parse]
  split
  · next none => simp [none]
  · next s3 => simp [s3]
  · next other found => simpa [found] using other

variable {url : String}

/-- A URL of a remote document has these parts. -/
theorem exists_parts_of_remote (h : parse url true = .ok (.remote url)) :
    ∃ scheme rest, IsRemoteScheme scheme ∧ url.toList = scheme ++ ':' :: '/' :: '/' :: rest := by
  rw [parse_remote_iff, scheme?_eq] at h
  obtain ⟨⟨scheme, rest⟩, split, h⟩ := Option.bind_eq_some_iff.mp h
  split at h
  · cases h
  · next valid =>
    exact ⟨scheme, rest, ⟨Bool.eq_false_iff.mpr valid, Option.some.inj h⟩,
      eq_of_splitScheme? split⟩

theorem parse_of_scheme {scheme rest : List Char} (h : IsRemoteScheme scheme)
    (parts : url.toList = scheme ++ ':' :: '/' :: '/' :: rest) :
    parse url true = .ok (.remote url) := by
  rw [parse_remote_iff, scheme?_eq, parts, splitScheme?_url h.not_mem, Option.bind_some,
    if_neg (Bool.eq_false_iff.mp h.valid), h.lower]

/-- The scheme and the bucket of a URL: what stands before the next slash behind `://`. -/
def bucketOf (url : String) : List Char :=
  match splitScheme? url.toList with
  | some (scheme, rest) => scheme ++ ':' :: '/' :: '/' :: rest.takeWhile (· != '/')
  | none => url.toList

/-- Behind `://` there is a slash that another character than a slash comes before. -/
def HasDirectory (url : String) : Prop :=
  ∃ scheme front back, splitScheme? url.toList = some (scheme, front ++ '/' :: back) ∧
    ∃ c ∈ front, c ≠ '/'

/-- A document in the bucket of a URL, remote by its text too. -/
def InBucketOf (url : String) (doc : DocumentRef) : Prop :=
  ∃ rest, Opens rest ∧ doc = .remote (String.ofList (bucketOf url ++ rest)) ∧
    parse doc.text true = .ok doc

/-- The document that some references lead to one after the other, each from the location
of the document before. -/
def followed (files : FileTree) : DocumentRef → List String → Except DocumentError DocumentRef
  | doc, [] => .ok doc
  | doc, text :: texts => do
    let location ← doc.location files
    let next ← location.resolve text true
    followed files next texts

theorem followed_remote_cons (files : FileTree) {text : String} (plain : scheme? text = none)
    (url : String) (texts : List String) : followed files (.remote url) (text :: texts) =
      followed files
        (.remote (String.ofList (Location.beside (beforeLastSlash url.toList) text))) texts := by
  have resolved := Location.resolve_remote plain
    (String.ofList (beforeLastSlash url.toList)) true
  rw [String.toList_ofList] at resolved
  show ((Location.remote _).resolve text true >>= _) = _
  rw [resolved]
  rfl

/-! ## Staying in a bucket

Cutting at the last slash and gluing a name on could in time eat up the bucket.
`Anchored` is what keeps it: some part of the URL is held that ends in no slash and has
one behind it, so the cut is always made behind that part. Following a reference
preserves this, whatever the reference is. -/

/-- A URL from which no reference gets out of `root`: a part of it up to a character that
is no slash is held, with a slash to cut at behind it. -/
def Anchored (root url : List Char) : Prop :=
  ∃ held rest, url = root ++ held ++ rest ∧ (root ++ held).getLast? ≠ some '/' ∧ '/' ∈ rest ∧
    Opens (held ++ rest)

variable {root : List Char}

theorem Anchored.beside {chars : List Char} (h : Anchored root chars) (text : String) :
    Anchored root (Location.beside (beforeLastSlash chars) text) := by
  obtain ⟨held, rest, rfl, unslashed, slash, opens⟩ := h
  rw [beforeLastSlash_append slash, Location.beside_append unslashed]
  refine ⟨held, _, rfl, unslashed, by simp [Location.beside], ?_⟩
  cases held with
  | nil =>
    obtain ⟨more, next⟩ :=
      Location.beside_eq_cons (opens.of_isPrefix (beforeLastSlash_isPrefix rest)) text
    rw [List.nil_append, next]
    simp [Opens]
  | cons c held => exact opens

theorem Anchored.followed (h : Anchored root url.toList) (files : FileTree) {texts : List String}
    (plain : ∀ text ∈ texts, scheme? text = none) :
    ∃ last, followed files (.remote url) texts = .ok (.remote last) ∧
      Anchored root last.toList := by
  induction texts generalizing url with
  | nil => exact ⟨url, rfl, h⟩
  | cons text texts ih =>
    obtain ⟨first, plain⟩ := List.forall_mem_cons.mp plain
    rw [followed_remote_cons files first]
    refine ih ?_ plain
    rw [String.toList_ofList]
    exact h.beside text

theorem bucketOf_eq {scheme rest : List Char} (h : IsRemoteScheme scheme)
    (parts : url.toList = scheme ++ ':' :: '/' :: '/' :: rest) :
    bucketOf url = scheme ++ ':' :: '/' :: '/' :: rest.takeWhile (· != '/') := by
  rw [bucketOf, parts, splitScheme?_url h.not_mem]

theorem opens_dropWhile (text : List Char) : Opens (text.dropWhile (· != '/')) := by
  intro c hc
  have first := List.head?_dropWhile_not (· != '/') text
  rw [Option.mem_def.mp hc] at first
  simpa using first

theorem anchored_of_hasDirectory (remote : parse url true = .ok (.remote url))
    (h : HasDirectory url) : Anchored (bucketOf url) url.toList := by
  obtain ⟨scheme, rest, isScheme, parts⟩ := exists_parts_of_remote remote
  obtain ⟨_, front, back, split, c, hc, inName⟩ := h
  rw [parts, splitScheme?_url isScheme.not_mem] at split
  cases split
  rw [bucketOf_eq isScheme parts, parts]
  have opens := opens_dropWhile (front ++ '/' :: back)
  have cut := List.takeWhile_append_dropWhile (p := (· != '/')) (l := front ++ '/' :: back)
  have slash : '/' ∉ (front ++ '/' :: back).takeWhile (· != '/') :=
    fun hm => by simpa using List.mem_takeWhile_imp hm
  generalize (front ++ '/' :: back).takeWhile (· != '/') = bucket at cut slash
  generalize (front ++ '/' :: back).dropWhile (· != '/') = behind at cut opens
  by_cases given : bucket = []
  · -- Without a bucket the slashes behind the scheme are held up to a character of the key.
    subst given
    obtain ⟨before, after, rfl⟩ := List.append_of_mem hc
    refine ⟨before ++ [c], after ++ '/' :: back, by simp, ?_, by simp, ?_⟩
    · rw [← List.append_assoc]
      exact Path.getLast?_append_ne (List.cons_ne_nil c []) (by simpa using inName.symm) _
    · rw [List.nil_append] at cut
      rw [cut] at opens
      simpa using opens
  -- With a bucket nothing of the key need be held: what is kept ends with the bucket.
  · refine ⟨[], behind, by simp [← cut], ?_, ?_, opens⟩
    · have ends := Path.getLast?_append_ne given slash (scheme ++ [':', '/', '/'])
      simpa using ends
    · have found : '/' ∈ bucket ++ behind := cut ▸ by simp
      exact (List.mem_append.mp found).resolve_left slash

theorem Anchored.inBucketOf {last : String} (remote : parse url true = .ok (.remote url))
    (h : Anchored (bucketOf url) last.toList) : InBucketOf url (.remote last) := by
  obtain ⟨scheme, rest, isScheme, parts⟩ := exists_parts_of_remote remote
  obtain ⟨held, more, place, -, -, opens⟩ := h
  rw [List.append_assoc] at place
  refine ⟨held ++ more, opens, ?_, ?_⟩
  · rw [← place, String.ofList_toList]
  · rw [bucketOf_eq isScheme parts, List.append_assoc] at place
    exact parse_of_scheme isScheme place

/-! ## Falling out of it

Where no such part can be held, the last slash is one of the two behind the scheme. One
reference is then enough to lose the bucket, and the empty one is taken here. -/

/-- Without a directory only slashes stand between the scheme and the last slash. -/
theorem eq_slash_of_not_hasDirectory {scheme rest : List Char} (isScheme : IsRemoteScheme scheme)
    (parts : url.toList = scheme ++ ':' :: '/' :: '/' :: rest) (h : ¬ HasDirectory url) :
    ∀ c ∈ beforeLastSlash ('/' :: '/' :: rest), c = '/' := by
  intro c hc
  by_contra inName
  have slash : '/' ∈ '/' :: '/' :: rest := List.mem_cons_self
  obtain ⟨name, place⟩ := eq_beforeLastSlash_append slash
  generalize beforeLastSlash ('/' :: '/' :: rest) = chars at hc place
  -- The character stands behind the two slashes of `://`.
  match chars, hc, place with
  | [d], hc, place =>
    cases place
    exact inName (List.mem_singleton.mp hc)
  | d :: e :: front, hc, place =>
    cases place
    have behind : c ∈ front := by simpa [inName] using hc
    refine h ⟨scheme, front, name, ?_, c, behind, inName⟩
    rw [parts, splitScheme?_url isScheme.not_mem]
    rfl

/-- The empty reference then leads to the scheme with one slash, which is a file. -/
theorem followed_of_not_hasDirectory (files : FileTree)
    (remote : parse url true = .ok (.remote url)) (h : ¬ HasDirectory url) :
    ∃ last, followed files (.remote url) [""] = .ok (.remote last) ∧
      parse last true = .ok (.file (Path.ofText last)) := by
  obtain ⟨scheme, rest, isScheme, parts⟩ := exists_parts_of_remote remote
  have slashes := eq_slash_of_not_hasDirectory isScheme parts h
  have colon : (scheme ++ [':']).getLast? ≠ some '/' := by simp
  have place : Location.beside (beforeLastSlash url.toList) "" = scheme ++ [':', '/'] := by
    rw [parts, List.append_cons scheme, beforeLastSlash_append List.mem_cons_self,
      Location.beside_append colon, Location.beside, Path.trimEndSlashes_eq_nil slashes]
    simp [Path.trimHere]
  refine ⟨String.ofList (scheme ++ [':', '/']), ?_, ?_⟩
  · rw [followed_remote_cons files (by decide), place, followed]
  · rw [parse, scheme?_eq, String.toList_ofList, splitScheme?_eq_none isScheme.not_mem]
    rfl

/-- References without a scheme, followed one after the other, stay in the bucket of a
remote document, and remote by their texts, exactly where a slash of its URL stands
behind another character of the bucket or the key. -/
theorem stays_in_bucket_iff (files : FileTree) {url : String}
    (remote : parse url true = .ok (.remote url)) :
    (∀ texts : List String, (∀ text ∈ texts, scheme? text = none) →
      ∃ doc, followed files (.remote url) texts = .ok doc ∧ InBucketOf url doc) ↔
    HasDirectory url := by
  constructor
  · intro stays
    by_contra none
    obtain ⟨last, led, isFile⟩ := followed_of_not_hasDirectory files remote none
    obtain ⟨doc, led', -, -, -, same⟩ := stays [""] (by decide)
    cases led.symm.trans led'
    cases isFile.symm.trans same
  · intro directory texts plain
    obtain ⟨last, led, anchored⟩ :=
      (anchored_of_hasDirectory remote directory).followed files plain
    exact ⟨_, led, anchored.inBucketOf remote⟩

/-- A layer below the directory of a document, and its bands one directory up. -/
theorem stays_in_bucket_iff_layers :
    parse "s3://b/dir/a.json" true = .ok (.remote "s3://b/dir/a.json") ∧
    HasDirectory "s3://b/dir/a.json" ∧
    (∀ text ∈ ["./layers/l.json", "../bands.json"], scheme? text = none) ∧
    followed ⟨[], []⟩ (.remote "s3://b/dir/a.json") ["./layers/l.json", "../bands.json"] =
      .ok (.remote "s3://b/dir/layers/../bands.json") ∧
    InBucketOf "s3://b/dir/a.json" (.remote "s3://b/dir/layers/../bands.json") := by
  have remote : parse "s3://b/dir/a.json" true = .ok (.remote "s3://b/dir/a.json") := rfl
  have directory : HasDirectory "s3://b/dir/a.json" :=
    ⟨"s3".toList, "b".toList, "dir/a.json".toList, by decide, 'b', by decide, by decide⟩
  have plain : ∀ text ∈ ["./layers/l.json", "../bands.json"], scheme? text = none := by decide
  have led : followed ⟨[], []⟩ (.remote "s3://b/dir/a.json") ["./layers/l.json", "../bands.json"] =
      .ok (.remote "s3://b/dir/layers/../bands.json") := rfl
  obtain ⟨doc, led', inBucket⟩ := (stays_in_bucket_iff ⟨[], []⟩ remote).mpr directory _ plain
  cases led.symm.trans led'
  exact ⟨remote, directory, plain, led, inBucket⟩

/-- From a document that is all of its bucket, the reference `b.json` leads to `s3:/b.json`. -/
theorem not_every_document_stays : ¬ ∀ (files : FileTree) (url : String) (texts : List String),
    parse url true = .ok (.remote url) → (∀ text ∈ texts, scheme? text = none) →
      ∃ last, followed files (.remote url) texts = .ok (.remote last) ∧
        parse last true = .ok (.remote last) ∧ bucketOf url <+: last.toList := by
  intro stays
  obtain ⟨last, led, same, -⟩ := stays ⟨[], []⟩ "s3://bucket" ["b.json"] rfl (by decide)
  have out : followed ⟨[], []⟩ (.remote "s3://bucket") ["b.json"] = .ok (.remote "s3:/b.json") :=
    rfl
  cases out.symm.trans led
  cases same

end DocumentRef

end MapConfig
