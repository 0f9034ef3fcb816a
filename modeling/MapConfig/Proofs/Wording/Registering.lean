import MapConfig.Wording

/-! What registering texts leaves behind. Under a key stands the text of the
last registration with that key, and nothing but a registration with that key
changes it. A key is the label and the field in one string, so that two pairs
may share a key; `Apart` says of two fields that they never do. -/
namespace MapConfig

def Registration.key (r : Registration) : String := Wording.key r.label r.field

namespace Wording
variable {w : Wording} {label field value : String} {rs : List Registration}

/-! ## Registering

Induction on the texts to register, from the last one on where the last one counts. -/

@[simp] theorem registerAll_nil : w.registerAll [] = w := rfl

@[simp] theorem registerAll_cons (r : Registration) :
    w.registerAll (r :: rs) = (w.register r).registerAll rs := rfl

@[simp] theorem registerAll_append (more : List Registration) :
    w.registerAll (rs ++ more) = (w.registerAll rs).registerAll more := List.foldl_append

theorem default?_register (r : Registration) : (w.register r).default? label field =
    if r.key = key label field then some r.value else w.default? label field := by
  unfold default? register
  rw [OrderedTable.find?_insert]
  show _ = if key r.label r.field = key label field then _ else _
  split <;> rfl

/-- Other keys keep their texts. -/
theorem default?_registerAll_of_other (h : ∀ r ∈ rs, r.key ≠ key label field) :
    (w.registerAll rs).default? label field = w.default? label field := by
  induction rs generalizing w with
  | nil => rfl
  | cons r rs ih =>
    rw [registerAll_cons, ih fun r' hm => h r' (List.mem_cons_of_mem r hm), default?_register,
      if_neg (h r List.mem_cons_self)]

theorem default?_registerAll_of_mem (hm : ∃ r ∈ rs, r.key = key label field)
    (h : ∀ r ∈ rs, r.key = key label field → r.value = value) :
    (w.registerAll rs).default? label field = some value := by
  induction rs generalizing w with
  | nil =>
    obtain ⟨r, hr, _⟩ := hm
    cases hr
  | cons r rs ih =>
    rw [registerAll_cons]
    by_cases again : ∃ r' ∈ rs, r'.key = key label field
    · exact ih again fun r' hr' => h r' (List.mem_cons_of_mem r hr')
    · -- `r` is the last registration of the key, so it must be the one given.
      obtain ⟨r', hr', hkey⟩ := hm
      rcases List.mem_cons.mp hr' with rfl | hr'
      · rw [default?_registerAll_of_other fun r hr he => again ⟨r, hr, he⟩, default?_register,
          if_pos hkey, h r' List.mem_cons_self hkey]
      · exact absurd ⟨r', hr', hkey⟩ again

/-! ## Texts without another one over them

Loading happens in this state; translators and messages come later. -/

/-- Neither a translator nor messages lie over the texts. -/
structure Bare (w : Wording) : Prop where
  translator : w.translator = none
  messages : w.messages = none

theorem Bare.registerAll (h : w.Bare) (rs : List Registration) : (w.registerAll rs).Bare := by
  induction rs generalizing w with
  | nil => exact h
  | cons r rs ih => exact ih ⟨h.translator, h.messages⟩

theorem Bare.read_eq (h : w.Bare) : w.read label field = w.default? label field := by
  simp [read, translated?, message?, h.translator, h.messages]

/-! ## Keys that two pairs of label and field share

A key does not tell where the label ends. Two fields are apart if their ends or their
points tell. -/

theorem toList_key : (key label field).toList = label.toList ++ '.' :: field.toList := by
  simp [key]

/-- Under the same label, other fields have other keys. -/
theorem key_inj {other : String} (h : key label field = key label other) : field = other := by
  have hl := congrArg String.toList h
  rw [toList_key, toList_key, List.append_cancel_left_eq, List.cons.injEq] at hl
  exact String.toList_injective hl.2

/-- Whatever their labels, the two fields share a key only if they and their
labels are the same. -/
def Apart (field other : String) : Prop :=
  ∀ label above, key label field = key above other → label = above ∧ field = other

theorem apart_of_no_point {other : String} (hf : '.' ∉ field.toList) (ho : '.' ∉ other.toList) :
    Apart field other := by
  intro label above h
  have hl := congrArg String.toList h
  rw [toList_key, toList_key, List.append_eq_append_iff] at hl
  rcases hl with ⟨between, habove, htail⟩ | ⟨between, hlabel, htail⟩
  · cases between with
    | nil =>
      rw [List.append_nil] at habove
      exact ⟨String.toList_injective habove.symm, String.toList_injective (List.cons.inj htail).2⟩
    | cons c rest =>
      rw [List.cons_append, List.cons.injEq] at htail
      exact absurd (htail.2 ▸ by simp) hf
  · cases between with
    | nil =>
      rw [List.append_nil] at hlabel
      exact ⟨String.toList_injective hlabel,
        String.toList_injective (List.cons.inj htail).2.symm⟩
    | cons c rest =>
      rw [List.cons_append, List.cons.injEq] at htail
      exact absurd (htail.2 ▸ by simp) ho

/-- Keys end like their fields. -/
theorem apart_of_getLast?_ne {other : String} (hf : field.toList ≠ []) (ho : other.toList ≠ [])
    (h : field.toList.getLast? ≠ other.toList.getLast?) : Apart field other := by
  intro label above he
  have hl := congrArg (fun key => key.toList.getLast?) he
  simp only [toList_key, List.getLast?_append, List.getLast?_cons] at hl
  have hlast (cs : List Char) (hcs : cs ≠ []) : cs.getLast?.getD '.' = cs.getLast hcs := by
    rw [List.getLast?_eq_some_getLast hcs, Option.getD_some]
  rw [hlast _ hf, hlast _ ho] at hl
  refine absurd ?_ h
  rw [List.getLast?_eq_some_getLast hf, List.getLast?_eq_some_getLast ho]
  simpa using hl

end Wording

end MapConfig
