import MapConfig.Path
import Mathlib.Data.List.Induction
import Mathlib.Data.List.TakeWhile

/-! The way down a path and up again. Joining a path with a name puts a slash and the
name behind its text, whichever separators the names of a reference are written with,
and its directory is what stands before that slash. Texts only get shorter on the way
up, so it has an end for every path. -/
namespace MapConfig

/-! ## Prefixes and ends of texts

Paths and URLs are cut at their last slash. Behind a prefix that ends in no slash the
cut is made in what follows, which is why prefixes are asked to end in none. -/

/-- Nothing, or a text that a slash begins: what may come behind a prefix. -/
def Opens (rest : List Char) : Prop := ∀ c ∈ rest.head?, c = '/'

theorem Opens.of_isPrefix {part rest : List Char} (h : Opens rest) (hp : part <+: rest) :
    Opens part := by
  intro c hc
  obtain ⟨more, rfl⟩ := hp
  refine h c ?_
  rw [List.head?_append, Option.mem_def.mp hc]
  rfl

namespace Path
variable {base rest : List Char}

theorem trimEndSlashes_isPrefix (text : List Char) : trimEndSlashes text <+: text := by
  rw [trimEndSlashes, ← List.reverse_suffix, List.reverse_reverse]
  exact List.dropWhile_suffix _

/-- Trimming stops at a prefix that no slash ends. -/
theorem trimEndSlashes_append (h : base.getLast? ≠ some '/') :
    trimEndSlashes (base ++ rest) = base ++ trimEndSlashes rest := by
  have stops : base.reverse.dropWhile (· == '/') = base.reverse := by
    rw [← List.head?_reverse] at h
    cases hb : base.reverse with
    | nil => rfl
    | cons c cs =>
      rw [hb] at h
      exact List.dropWhile_cons_of_neg (by simpa using h)
  simp only [trimEndSlashes, List.reverse_append, List.dropWhile_append, stops]
  split
  · next none =>
    rw [List.isEmpty_iff.mp none, List.reverse_reverse, List.reverse_nil, List.append_nil]
  · rw [List.reverse_append, List.reverse_reverse]

theorem trimEndSlashes_eq_self (h : base.getLast? ≠ some '/') : trimEndSlashes base = base :=
  calc trimEndSlashes base
    _ = trimEndSlashes (base ++ []) := by rw [List.append_nil]
    _ = base ++ trimEndSlashes [] := trimEndSlashes_append h
    _ = base := List.append_nil base

theorem trimEndSlashes_eq_nil (h : ∀ c ∈ base, c = '/') : trimEndSlashes base = [] := by
  rw [trimEndSlashes, List.dropWhile_eq_nil_iff.mpr, List.reverse_nil]
  intro c hc
  rw [beq_iff_eq, h c (List.mem_reverse.mp hc)]

/-- No slash ends a text that a name ends. -/
theorem getLast?_append_ne {name : List Char} (nonempty : name ≠ []) (h : '/' ∉ name)
    (front : List Char) : (front ++ name).getLast? ≠ some '/' := by
  rw [List.getLast?_append, List.getLast?_eq_some_getLast nonempty, Option.some_or]
  intro last
  exact h (Option.some.inj last ▸ List.getLast_mem nonempty)

/-- The search for the last slash goes past a name at the end. -/
theorem dropWhile_reverse_append {name : List Char} (h : '/' ∉ name) (front : List Char) :
    (front ++ name).reverse.dropWhile (· != '/') = front.reverse.dropWhile (· != '/') := by
  rw [List.reverse_append, List.dropWhile_append_of_pos]
  intro c hc
  rw [bne_iff_ne]
  rintro rfl
  exact h (List.mem_reverse.mp hc)

/-! ## Separators

Both separators are one after reading, so a reference may use them in any mixture. -/

theorem slashed_append (front rest : List Char) :
    slashed (front ++ rest) = slashed front ++ slashed rest :=
  List.map_append

theorem slashed_eq_self {text : List Char} (h : '\\' ∉ text) : slashed text = text := by
  refine List.map_congr_left (fun c hc => if_neg ?_) |>.trans (List.map_id text)
  rintro rfl
  exact h hc

theorem not_mem_slashed (text : List Char) : '\\' ∉ slashed text := by
  intro hm
  obtain ⟨c, -, hc⟩ := List.mem_map.mp hm
  split at hc
  · cases hc
  · contradiction

/-- What can stand between two names. -/
inductive Separator where
  | slash
  | backslash

def Separator.char : Separator → Char
  | slash => '/'
  | backslash => '\\'

theorem slashed_separator (separator : Separator) (text : List Char) :
    slashed (separator.char :: text) = '/' :: slashed text := by
  cases separator <;> rfl

/-- The names in one text, each behind its separator. -/
def glued : String → List (Separator × String) → String
  | first, [] => first
  | first, (separator, next) :: rest => first ++ String.ofList [separator.char] ++ glued next rest

/-! ## Names

A name between two separators is empty in no reference that is built here, and is not
the directory itself, which joining leaves out. -/

/-- A name of a file or a directory, or the name `..`. -/
structure IsName (name : String) : Prop where
  ne_empty : name ≠ ""
  not_slash_mem : '/' ∉ name.toList
  not_backslash_mem : '\\' ∉ name.toList
  ne_here : name ≠ "."

instance (name : String) : Decidable (IsName name) :=
  decidable_of_iff (name ≠ "" ∧ '/' ∉ name.toList ∧ '\\' ∉ name.toList ∧ name ≠ ".")
    ⟨fun ⟨a, b, c, d⟩ => ⟨a, b, c, d⟩, fun ⟨a, b, c, d⟩ => ⟨a, b, c, d⟩⟩

/-- A text that joining puts behind a path as it stands. -/
structure Relative (text : List Char) : Prop where
  head?_ne : text.head? ≠ some '/'
  trimHere_eq : trimHere text = text

namespace IsName
variable {name : String}

theorem toList_ne_nil (h : IsName name) : name.toList ≠ [] := by
  intro none
  exact h.ne_empty (String.toList_inj.mp none)

theorem relative (h : IsName name) (opens : Opens rest) : Relative (name.toList ++ rest) := by
  obtain ⟨c, cs, hc⟩ := List.exists_cons_of_ne_nil h.toList_ne_nil
  have noSlash := h.not_slash_mem
  rw [hc, List.mem_cons, not_or] at noSlash
  obtain ⟨first, later⟩ := noSlash
  rw [hc]
  refine ⟨fun head => first (Option.some.inj head).symm, ?_⟩
  unfold trimHere
  split
  · next _ behind here =>
    -- Only the name `.` has its end where a slash stands second.
    cases cs with
    | nil =>
      cases here
      exact absurd (String.toList_inj.mp hc) h.ne_here
    | cons d ds =>
      cases here
      exact absurd List.mem_cons_self later
  · rfl

end IsName

theorem toList_glued_cons (first next : String) (separator : Separator)
    (rest : List (Separator × String)) : (glued first ((separator, next) :: rest)).toList =
      first.toList ++ separator.char :: (glued next rest).toList := by
  simp [glued]

theorem relative_glued {first : String} (h : IsName first) (rest : List (Separator × String)) :
    Relative (slashed (glued first rest).toList) := by
  have plain := slashed_eq_self h.not_backslash_mem
  cases rest with
  | nil =>
    rw [glued, plain, ← List.append_nil first.toList]
    exact h.relative (by simp [Opens])
  | cons entry rest =>
    rw [toList_glued_cons, slashed_append, slashed_separator, plain]
    exact h.relative (by simp [Opens])

/-! ## Joining and its inverse

The text of a path with the slash that joining puts behind it is its `lead`. Joining a
name appends the name to the lead, and the parent is found by taking name and slash away
again, except at the root, which keeps its slash. -/

/-- The root, or a text that does not end in a slash. -/
def IsBase (p : Path) : Prop := p.text = "/" ∨ p.text ≠ "" ∧ p.text.toList.getLast? ≠ some '/'

/-- The text of a path with a slash behind it, which the root has already. -/
def lead (base : List Char) : List Char :=
  if base.getLast? = some '/' then base else base ++ ['/']

theorem lead_of_unslashed (h : base.getLast? ≠ some '/') : lead base = base ++ ['/'] := if_neg h

variable {p : Path} {name : String}

theorem toList_join (p : Path) (segment : String) :
    (p.join segment).text.toList = joinChars p.text.toList segment.toList := by
  rw [join, String.toList_ofList]

theorem joinChars_relative {segment : List Char} (nonempty : base ≠ [])
    (h : Relative (slashed segment)) : joinChars base segment = lead base ++ slashed segment := by
  rw [joinChars, if_neg h.head?_ne, h.trimHere_eq, if_neg (by simpa using nonempty), lead]
  split
  · rfl
  · exact (List.append_assoc base ['/'] _).symm

theorem IsBase.toList_ne_nil (base : IsBase p) : p.text.toList ≠ [] := by
  obtain root | ⟨nonempty, -⟩ := base
  · rw [root]
    decide
  · intro none
    exact nonempty (String.toList_inj.mp none)

theorem IsBase.toList_join (base : IsBase p) (h : IsName name) :
    (p.join name).text.toList = lead p.text.toList ++ name.toList := by
  have plain := slashed_eq_self h.not_backslash_mem
  have relative : Relative (name.toList ++ []) := h.relative (by simp [Opens])
  rw [List.append_nil, ← plain] at relative
  rw [Path.toList_join, joinChars_relative base.toList_ne_nil relative, plain]

/-- The path below is a base again, and no longer the root. -/
theorem IsBase.getLast?_join (base : IsBase p) (h : IsName name) :
    (p.join name).text.toList.getLast? ≠ some '/' :=
  base.toList_join h ▸ getLast?_append_ne h.toList_ne_nil h.not_slash_mem _

theorem IsBase.join (base : IsBase p) (h : IsName name) : IsBase (p.join name) := by
  refine .inr ⟨fun none => ?_, base.getLast?_join h⟩
  have chars := base.toList_join h
  rw [none] at chars
  exact h.toList_ne_nil (List.append_eq_nil_iff.mp chars.symm).2

theorem IsBase.isAbsolute_join (base : IsBase p) (h : IsName name) :
    (p.join name).isAbsolute = p.isAbsolute := by
  obtain ⟨c, cs, hc⟩ := List.exists_cons_of_ne_nil base.toList_ne_nil
  rw [isAbsolute, isAbsolute, base.toList_join h, lead, hc]
  split <;> rfl

/-- A slash in a reference stands for a join. -/
theorem IsBase.join_glued_cons (base : IsBase p) {first next : String} (h : IsName first)
    (hn : IsName next) (separator : Separator) (rest : List (Separator × String)) :
    p.join (glued first ((separator, next) :: rest)) = (p.join first).join (glued next rest) := by
  have below := base.join h
  have relative := relative_glued h ((separator, next) :: rest)
  have chars : (p.join (glued first ((separator, next) :: rest))).text.toList =
      ((p.join first).join (glued next rest)).text.toList := by
    rw [Path.toList_join, joinChars_relative base.toList_ne_nil relative, Path.toList_join,
      joinChars_relative below.toList_ne_nil (relative_glued hn rest),
      lead_of_unslashed (base.getLast?_join h), base.toList_join h, toList_glued_cons,
      slashed_append, slashed_separator, slashed_eq_self h.not_backslash_mem]
    simp only [List.append_assoc, List.cons_append, List.nil_append]
  exact Path.mk.injEq _ _ ▸ String.toList_inj.mp chars

theorem IsBase.join_glued (base : IsBase p) {first : String} {rest : List (Separator × String)}
    (names : ∀ name ∈ first :: rest.map Prod.snd, IsName name) :
    p.join (glued first rest) = (first :: rest.map Prod.snd).foldl Path.join p := by
  induction rest generalizing p first with
  | nil => rfl
  | cons entry rest ih =>
    obtain ⟨separator, next⟩ := entry
    obtain ⟨h, names⟩ := List.forall_mem_cons.mp names
    rw [base.join_glued_cons h (names next List.mem_cons_self), ih (base.join h) names]
    rfl

/-- The directory is what stood before the slash that joining has put. -/
theorem parentChars?_lead {chars : List Char} (base : chars = ['/'] ∨ chars.getLast? ≠ some '/')
    (nonempty : chars ≠ []) (h : IsName name) :
    parentChars? (lead chars ++ name.toList) = some chars := by
  have unended := getLast?_append_ne h.toList_ne_nil h.not_slash_mem (lead chars)
  rw [parentChars?, trimEndSlashes_eq_self unended, dropWhile_reverse_append h.not_slash_mem]
  obtain rfl | unslashed := base
  · rfl
  · rw [lead_of_unslashed unslashed, List.reverse_append]
    obtain ⟨c, before, hc⟩ := List.exists_cons_of_ne_nil (List.reverse_ne_nil_iff.mpr nonempty)
    rw [hc]
    show some (c :: before).reverse = _
    rw [← hc, List.reverse_reverse]

theorem IsBase.parent?_join (base : IsBase p) (h : IsName name) :
    (p.join name).parent? = some p := by
  have shape : p.text.toList = ['/'] ∨ p.text.toList.getLast? ≠ some '/' := by
    obtain root | ⟨-, unslashed⟩ := base
    · exact .inl (root ▸ rfl)
    · exact .inr unslashed
  rw [parent?, base.toList_join h, parentChars?_lead shape base.toList_ne_nil h, Option.map_some,
    String.ofList_toList]

/-- The directory a number of times up. -/
def ancestor? : Nat → Path → Option Path
  | 0, p => some p
  | n + 1, p => p.parent?.bind (ancestor? n)

section
variable {names : List String}

theorem IsBase.foldl_join (base : IsBase p) (h : ∀ name ∈ names, IsName name) :
    IsBase (names.foldl Path.join p) := by
  induction names generalizing p with
  | nil => exact base
  | cons name names ih =>
    obtain ⟨isName, h⟩ := List.forall_mem_cons.mp h
    exact ih (base.join isName) h

theorem IsBase.isAbsolute_foldl_join (base : IsBase p) (h : ∀ name ∈ names, IsName name) :
    (names.foldl Path.join p).isAbsolute = p.isAbsolute := by
  induction names generalizing p with
  | nil => rfl
  | cons name names ih =>
    obtain ⟨isName, h⟩ := List.forall_mem_cons.mp h
    exact (ih (base.join isName) h).trans (base.isAbsolute_join isName)

theorem IsBase.ancestor?_foldl_join (base : IsBase p) (h : ∀ name ∈ names, IsName name) :
    ancestor? names.length (names.foldl Path.join p) = some p := by
  -- The last name that went on is the first that comes off.
  induction names using List.reverseRec with
  | nil => rfl
  | append_singleton names name ih =>
    obtain ⟨h, isName⟩ := List.forall_mem_append.mp h
    have isName := isName name List.mem_cons_self
    rw [List.foldl_append, List.length_append, List.foldl_cons, List.foldl_nil]
    show ((names.foldl Path.join p).join name).parent?.bind (ancestor? names.length) = _
    rw [(base.foldl_join h).parent?_join isName, Option.bind_some, ih h]

end

/-! ## The end of the way up

A parent is shorter than the path, and the root has none. So the way up is no longer
than the text. -/

/-- A parent is shorter, and but for the root it is a beginning of the text. -/
theorem parentChars?_eq_some {text parent : List Char} (h : parentChars? text = some parent) :
    parent.length < text.length ∧ (parent = ['/'] ∨ parent <+: text) := by
  have within : text.reverse.dropWhile (· == '/') <:+ text.reverse := List.dropWhile_suffix _
  have first := List.head?_dropWhile_not (· == '/') text.reverse
  rw [parentChars?, trimEndSlashes, List.reverse_reverse] at h
  generalize text.reverse.dropWhile (· == '/') = trimmed at h within first
  cases trimmed with
  | nil => cases h
  | cons c chars =>
    -- What is left of the text ends in a name, of which one character at least is taken off.
    have inName : (c != '/') = true := by simpa using first
    rw [List.dropWhile_cons_of_pos (p := (· != '/')) inName] at h
    have length_lt := within.length_le
    rw [List.length_cons, List.length_reverse] at length_lt
    have left : chars.dropWhile (· != '/') <:+ chars := List.dropWhile_suffix _
    split at h
    · cases h
    · next slash found =>
      cases h
      have length_le := (found ▸ left).length_le
      exact ⟨length_le.trans_lt length_lt, .inl rfl⟩
    · next slash before _ found =>
      cases h
      have before_suffix : before <:+ chars :=
        (List.suffix_cons slash before).trans (found ▸ left)
      have before_within := before_suffix.trans ((List.suffix_cons c chars).trans within)
      refine ⟨?_, .inr ?_⟩
      · rw [List.length_reverse]
        exact before_suffix.length_le.trans_lt length_lt
      · rwa [← List.reverse_suffix, List.reverse_reverse]

theorem parent?_eq_some {q : Path} (h : p.parent? = some q) :
    q.text.toList.length < p.text.toList.length ∧
      (q.text.toList = ['/'] ∨ q.text.toList <+: p.text.toList) := by
  obtain ⟨chars, found, rfl⟩ := Option.map_eq_some_iff.mp h
  rw [String.toList_ofList]
  exact parentChars?_eq_some found

theorem exists_ancestor?_eq_none (p : Path) :
    ∃ n ≤ p.text.toList.length + 1, ancestor? n p = none := by
  induction size : p.text.toList.length using Nat.strongRecOn generalizing p with
  | ind size ih =>
    cases up : p.parent? with
    | none => exact ⟨1, Nat.le_add_left 1 _, by rw [ancestor?, up, Option.bind_none]⟩
    | some q =>
      obtain ⟨lt, -⟩ := parent?_eq_some up
      obtain ⟨n, few, ended⟩ := ih _ (size ▸ lt) q rfl
      exact ⟨n + 1, by omega, by rw [ancestor?, up, Option.bind_some, ended]⟩

/-- Paths that are made from texts by joining and by taking directories. -/
inductive Built : Path → Prop where
  | ofText (text : String) : Built (ofText text)
  | join {p : Path} (segment : String) (h : Built p) : Built (p.join segment)
  | parent {p q : Path} (h : Built p) (up : p.parent? = some q) : Built q

theorem trimHere_suffix (text : List Char) : trimHere text <:+ text := by
  fun_induction trimHere text with
  | case1 rest ih => exact ih.trans ((List.suffix_cons '/' rest).trans (List.suffix_cons '.' _))
  | case2 text => exact List.suffix_refl text

theorem not_mem_joinChars {segment : List Char} (h : '\\' ∉ base) :
    '\\' ∉ joinChars base segment := by
  have slashes := not_mem_slashed segment
  have trimmed : '\\' ∉ trimHere (slashed segment) :=
    fun hm => slashes ((trimHere_suffix _).mem hm)
  unfold joinChars
  dsimp only
  split_ifs
  · exact slashes
  · exact trimmed
  · simp [h, trimmed]
  · simp [h, trimmed]

theorem Built.not_mem (h : Built p) : '\\' ∉ p.text.toList := by
  induction h with
  | ofText text =>
    rw [Path.ofText, String.toList_ofList]
    exact not_mem_slashed _
  | join segment _ ih =>
    rw [toList_join]
    exact not_mem_joinChars ih
  | parent _ up ih =>
    obtain ⟨-, root | before⟩ := parent?_eq_some up
    · rw [root]
      decide
    · exact fun hm => ih (before.mem hm)

/-- The names of a reference may be joined to a path at once, with slashes and backslashes
between them, or one by one. As many directories up stands the path again, and both
are absolute or neither is. No path that is built keeps a backslash, and the way up
from it has an end, after no more steps than its text has characters, and one. -/
theorem parents_undo_joins :
    (∀ (p : Path) (first : String) (rest : List (Separator × String)), IsBase p →
      (∀ name ∈ first :: rest.map Prod.snd, IsName name) →
        p.join (glued first rest) = (first :: rest.map Prod.snd).foldl Path.join p ∧
        ancestor? (rest.length + 1) (p.join (glued first rest)) = some p ∧
        ((p.join (glued first rest)).isAbsolute = true ↔ p.isAbsolute = true)) ∧
    ∀ p, Built p → '\\' ∉ p.text.toList ∧
      ∃ n ≤ p.text.toList.length + 1, ancestor? n p = none := by
  refine ⟨fun p first rest base names => ?_, fun p built => ?_⟩
  · have joined := base.join_glued names
    have back := base.ancestor?_foldl_join names
    rw [List.length_cons, List.length_map] at back
    rw [joined, base.isAbsolute_foldl_join names]
    exact ⟨rfl, back, Iff.rfl⟩
  · exact ⟨built.not_mem, exists_ancestor?_eq_none p⟩

/-- From the root down to a file through `..`, and three directories up again. -/
theorem parents_undo_joins_mixed :
    IsBase ⟨"/"⟩ ∧ (∀ name ∈ ["etc", "..", "a.json"], IsName name) ∧
    Path.join ⟨"/"⟩ "etc\\../a.json" = ⟨"/etc/../a.json"⟩ ∧
    ["etc", "..", "a.json"].foldl Path.join ⟨"/"⟩ = ⟨"/etc/../a.json"⟩ ∧
    ancestor? 3 ⟨"/etc/../a.json"⟩ = some ⟨"/"⟩ ∧ isAbsolute ⟨"/etc/../a.json"⟩ = true ∧
    Built ⟨"/etc/../a.json"⟩ ∧ ∃ n ≤ 15, ancestor? n ⟨"/etc/../a.json"⟩ = none := by
  have base : IsBase ⟨"/"⟩ := .inl rfl
  have names : ∀ name ∈ ["etc", "..", "a.json"], IsName name := by decide
  obtain ⟨down, up⟩ := parents_undo_joins
  obtain ⟨together, back, absolute⟩ :=
    down ⟨"/"⟩ "etc" [(.backslash, ".."), (.slash, "a.json")] base names
  have text : glued "etc" [(.backslash, ".."), (.slash, "a.json")] = "etc\\../a.json" := by decide
  have joined : Path.join ⟨"/"⟩ "etc\\../a.json" = ⟨"/etc/../a.json"⟩ := by decide
  have built : Built ⟨"/etc/../a.json"⟩ := joined ▸ .join _ (.ofText "/")
  rw [text, joined] at together back absolute
  exact ⟨base, names, joined, together.symm, back, absolute.mpr rfl, built, (up _ built).2⟩

end Path

end MapConfig
