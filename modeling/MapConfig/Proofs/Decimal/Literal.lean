import MapConfig.Proofs.Decimal.RoundTrip
import MapConfig.Proofs.Decimal.Rounding
import Mathlib.Data.List.TakeWhile

/-! Which texts are read as decimals. A literal has a sign or none, digits with at most
one point among or around them, and maybe an exponent with a sign of its own; white
space may stand around it. It is read exactly if its digits, its exponent and its scale
are in range, and then as the number that it writes. -/
namespace MapConfig

/-! ## Signed digits

Mantissa and exponent both start with a sign or none, and both readers take it off in
the same way (`splitSign_append`). -/

/-- How the sign of a number is written. -/
inductive Sign where
  | absent
  | plus
  | minus

namespace Sign

def text : Sign → List Char
  | absent => []
  | plus => ['+']
  | minus => ['-']

theorem mem_text {sign : Sign} {c : Char} (h : c ∈ sign.text) : c = '-' ∨ c = '+' := by
  cases sign <;> simp_all [text]

def isMinus : Sign → Bool
  | minus => true
  | _ => false

/-- The number of the given size. -/
def apply (sign : Sign) (size : Nat) : Int := if sign.isMinus then -(size : Int) else size

theorem splitSign_append (sign : Sign) {rest : List Char}
    (unsigned : ∀ c, rest.head? = some c → c ≠ '-' ∧ c ≠ '+') :
    Double.splitSign (sign.text ++ rest) = (sign.isMinus, rest) := by
  cases sign with
  | absent =>
    cases rest with
    | nil => rfl
    | cons c rest =>
      obtain ⟨minus, plus⟩ := unsigned c rfl
      simp [text, isMinus, Double.splitSign, minus, plus]
  | plus => rfl
  | minus => rfl

theorem exists_of_splitSign (chars : List Char) : ∃ sign : Sign,
    chars = sign.text ++ (Double.splitSign chars).2 ∧
      sign.isMinus = (Double.splitSign chars).1 := by
  unfold Double.splitSign
  split
  · exact ⟨minus, rfl, rfl⟩
  · exact ⟨plus, rfl, rfl⟩
  · exact ⟨absent, rfl, rfl⟩

end Sign

theorem not_sign_of_isDigit {c : Char} (h : c.isDigit) : c ≠ '-' ∧ c ≠ '+' :=
  ⟨ne_of_isDigit h rfl, ne_of_isDigit h rfl⟩

/-- Only runs of digits pass the tests that readers put to them. -/
theorem digits_tested_iff {digits : List Char} :
    (digits.isEmpty || !digits.all Char.isDigit) = false ↔
      digits ≠ [] ∧ ∀ c ∈ digits, c.isDigit := by
  simp

/-- The number of a sign and digits, if it is in range. -/
def signedInt? (least greatest : Int) (parts : Bool × List Char) : Option Int :=
  if parts.2.isEmpty || !parts.2.all Char.isDigit then none else
    let size : Int := Double.digitsValue parts.2
    let value := if parts.1 then -size else size
    if least ≤ value ∧ value ≤ greatest then some value else none

/-- Where negative numbers are in range both signs are taken off. -/
theorem boundedInt?_eq {least greatest : Int} (below : least < 0) (chars : List Char) :
    Text.boundedInt? least greatest chars =
      signedInt? least greatest (Double.splitSign chars) := by
  unfold Double.splitSign
  split
  · rw [Text.boundedInt?, if_pos below]
    rfl
  · rfl
  · next no_minus no_plus =>
    rw [Text.boundedInt?]
    · rfl
    · exact no_minus
    · exact no_plus

theorem int64?_append (sign : Sign) {digits : List Char} (given : digits ≠ [])
    (all : ∀ c ∈ digits, c.isDigit) : Text.int64? (sign.text ++ digits) =
      if FitsExponent (sign.apply (Double.digitsValue digits))
        then some (sign.apply (Double.digitsValue digits)) else none := by
  have unsigned : ∀ c, digits.head? = some c → c ≠ '-' ∧ c ≠ '+' := fun c hc =>
    not_sign_of_isDigit (all c (List.mem_of_mem_head? hc))
  rw [Text.int64?, boundedInt?_eq (by decide), sign.splitSign_append unsigned, signedInt?,
    digits_tested_iff.mpr ⟨given, all⟩, if_neg (by decide)]
  refine if_congr ?_ rfl rfl
  exact and_congr_right' Int.le_sub_one_iff

theorem exists_of_int64? {chars : List Char} {n : Int} (h : Text.int64? chars = some n) :
    ∃ (sign : Sign) (digits : List Char), chars = sign.text ++ digits ∧ digits ≠ [] ∧
      ∀ c ∈ digits, c.isDigit := by
  obtain ⟨sign, parts, -⟩ := Sign.exists_of_splitSign chars
  rw [Text.int64?, boundedInt?_eq (by decide), signedInt?] at h
  split at h
  · cases h
  · next tested =>
    exact ⟨sign, _, parts, digits_tested_iff.mp (Bool.not_eq_true _ ▸ tested)⟩

namespace Decimal

/-! ## Literals

The grammar. A `Literal` is built of its pieces, and a text contains one if it is the
text of these pieces; that reading finds the same pieces again is a matter of the next
section. -/

structure Exponent where
  mark : Char
  sign : Sign
  digits : List Char
  isMark : isExponentMark mark
  given : digits ≠ []
  all_digits : ∀ c ∈ digits, c.isDigit

namespace Exponent

def text (e : Exponent) : List Char := e.mark :: (e.sign.text ++ e.digits)

def value (e : Exponent) : Int := e.sign.apply (Double.digitsValue e.digits)

theorem not_isBlank_of_mem (e : Exponent) {c : Char} (h : c ∈ e.text) :
    Text.isBlank c = false := by
  rcases List.mem_cons.mp h with rfl | hm
  · have isMark := e.isMark
    simp only [isExponentMark, Bool.or_eq_true, decide_eq_true_eq] at isMark
    rcases isMark with lower | upper
    · rw [lower]
      rfl
    · rw [upper]
      rfl
  · rcases List.mem_append.mp hm with hm | hm
    · rcases e.sign.mem_text hm with rfl | rfl <;> rfl
    · exact not_isBlank_of_isDigit (e.all_digits c hm)

theorem int64?_number (e : Exponent) : Text.int64? (e.sign.text ++ e.digits) =
    if FitsExponent e.value then some e.value else none :=
  int64?_append e.sign e.given e.all_digits

end Exponent

/-- A decimal number as it may be written. -/
structure Literal where
  sign : Sign
  whole : List Char
  /-- The digits after the point, if there is one. -/
  fraction : Option (List Char)
  exponent : Option Exponent
  given : whole ++ fraction.getD [] ≠ []
  all_digits : ∀ c ∈ whole ++ fraction.getD [], c.isDigit

namespace Literal
variable (n : Literal)

def unsigned : List Char := n.whole ++ n.fraction.elim [] ('.' :: ·)

def mantissa : List Char := n.sign.text ++ n.unsigned

def text : List Char := n.mantissa ++ n.exponent.elim [] Exponent.text

/-- The whole number of the digits without the point. -/
def size : Nat := Double.digitsValue (n.whole ++ n.fraction.getD [])

def digits : Int := n.sign.apply n.size

def places : Nat := (n.fraction.getD []).length

/-- The power of ten that is written behind the mark. -/
def power : Int := n.exponent.elim 0 Exponent.value

def scale : Int := n.places - n.power

/-- The number that is written. -/
def value : ℚ :=
  let whole : ℚ := Double.digitsValue n.whole
  let fraction : ℚ := Double.digitsValue (n.fraction.getD []) / 10 ^ n.places
  let size := (whole + fraction) * 10 ^ n.power
  if n.sign.isMinus then -size else size

/-! ### Reading a literal

From the outside in: the mark ends the mantissa, the sign stands at its front, and the
first point parts its digits. Each cut is found at the right place because no piece has
the character that is looked for. -/

theorem mem_unsigned {c : Char} (h : c ∈ n.unsigned) : c.isDigit ∨ c = '.' := by
  rcases List.mem_append.mp h with hm | hm
  · exact .inl (n.all_digits c (List.mem_append_left _ hm))
  · have all := n.all_digits
    cases hf : n.fraction with
    | none =>
      rw [hf] at hm
      cases hm
    | some digits =>
      rw [hf] at hm all
      rcases List.mem_cons.mp hm with rfl | hm
      · exact .inr rfl
      · exact .inl (all c (List.mem_append_right _ hm))

theorem mem_mantissa {c : Char} (h : c ∈ n.mantissa) :
    c.isDigit ∨ c = '.' ∨ c = '-' ∨ c = '+' := by
  rcases List.mem_append.mp h with hm | hm
  · exact .inr (.inr (n.sign.mem_text hm))
  · exact (n.mem_unsigned hm).imp_right .inl

theorem isExponentMark_of_isDigit {c : Char} (h : c.isDigit) : isExponentMark c = false := by
  have lower : c ≠ 'e' := ne_of_isDigit h rfl
  have upper : c ≠ 'E' := ne_of_isDigit h rfl
  simp [isExponentMark, lower, upper]

theorem splitExponent?_text : splitExponent? n.text =
    if FitsExponent n.power then some (n.mantissa, n.power) else none := by
  have no_mark : ∀ c ∈ n.mantissa, (!isExponentMark c) = true := by
    intro c hm
    rcases n.mem_mantissa hm with digit | rfl | rfl | rfl
    · rw [isExponentMark_of_isDigit digit]
      rfl
    all_goals rfl
  rw [splitExponent?, text, List.takeWhile_append_of_pos no_mark,
    List.dropWhile_append_of_pos no_mark, power]
  cases n.exponent with
  | none =>
    have zero : FitsExponent 0 := by decide
    simp [zero]
  | some e =>
    simp only [Option.elim_some, Exponent.text, List.takeWhile_cons, List.dropWhile_cons, e.isMark,
      Bool.not_true, Bool.false_eq_true, if_false, List.append_nil, e.int64?_number]
    by_cases fits : FitsExponent e.value <;> simp [fits]

theorem splitSign_mantissa : Double.splitSign n.mantissa = (n.sign.isMinus, n.unsigned) := by
  refine n.sign.splitSign_append fun c hc => ?_
  rcases n.mem_unsigned (List.mem_of_mem_head? hc) with digit | rfl
  · exact not_sign_of_isDigit digit
  · decide

theorem splitPoint_unsigned : splitPoint n.unsigned = (n.whole, n.fraction.getD []) := by
  have no_point : ∀ c ∈ n.whole, (c != '.') = true := fun c hm =>
    bne_iff_ne.mpr (ne_of_isDigit (n.all_digits c (List.mem_append_left _ hm)) rfl)
  rw [splitPoint, unsigned, List.takeWhile_append_of_pos no_point,
    List.dropWhile_append_of_pos no_point]
  cases n.fraction <;> simp

/-- The exponent and the digits without the point fit their types, so that the literal is
read up to its scale. -/
structure ReachesScale : Prop where
  power : FitsExponent n.power
  size : n.size < Nat.pow 2 127

instance : Decidable n.ReachesScale :=
  decidable_of_iff (FitsExponent n.power ∧ n.size < Nat.pow 2 127)
    ⟨fun h => ⟨h.1, h.2⟩, fun h => ⟨h.power, h.size⟩⟩

/-- A literal is taken apart into its pieces, and then asked whether they fit. -/
theorem parseChars_text : parseChars n.text =
    if n.ReachesScale then
      if n.scale < Nat.pow 2 63 then tested (withScale? n.digits n.scale)
      else .error (.overflow .scale)
    else .error .noValue := by
  by_cases fits : FitsExponent n.power
  · have taken : splitExponent? n.text = some (n.mantissa, n.power) :=
      n.splitExponent?_text.trans (if_pos fits)
    rw [parseChars_eq taken n.splitSign_mantissa n.splitPoint_unsigned n.given n.all_digits fits]
    exact if_congr ⟨fun room => ⟨fits, room⟩, fun h => h.size⟩ rfl rfl
  · rw [parseChars, n.splitExponent?_text, if_neg fits, if_neg fun h => fits h.power]
    rfl

/-! ### Texts that are read

The other direction. Whatever the cuts give is glued to a literal again, provided that
all tests on the pieces have gone through. -/

theorem eq_append_of_dropWhile {p : Char → Bool} {chars : List Char} {c : Char} {rest : List Char}
    (h : chars.dropWhile p = c :: rest) : chars = chars.takeWhile p ++ c :: rest ∧ p c = false := by
  have head := List.head?_dropWhile_not p chars
  rw [h] at head
  exact ⟨by rw [← h, List.takeWhile_append_dropWhile], head⟩

theorem exists_exponent_of_split {chars mantissa : List Char} {power : Int}
    (h : splitExponent? chars = some (mantissa, power)) :
    ∃ exponent : Option Exponent, chars = mantissa ++ exponent.elim [] Exponent.text := by
  unfold splitExponent? at h
  split at h
  · cases h
    exact ⟨none, (List.append_nil _).symm⟩
  · next mark rest found =>
    obtain ⟨number, read, h⟩ := Option.bind_eq_some_iff.mp h
    cases h
    obtain ⟨sign, digits, rfl, given, all⟩ := exists_of_int64? read
    obtain ⟨parts, isMark⟩ := eq_append_of_dropWhile found
    rw [Bool.not_eq_false'] at isMark
    exact ⟨some ⟨mark, sign, digits, isMark, given, all⟩, parts⟩

theorem exists_fraction_of_split (chars : List Char) :
    ∃ fraction : Option (List Char), fraction.getD [] = (splitPoint chars).2 ∧
      chars = (splitPoint chars).1 ++ fraction.elim [] ('.' :: ·) := by
  unfold splitPoint
  cases found : chars.dropWhile (· != '.') with
  | nil =>
    refine ⟨none, rfl, ?_⟩
    have parts := List.takeWhile_append_dropWhile (p := (· != '.')) (l := chars)
    rw [found] at parts
    exact parts.symm
  | cons point fraction =>
    obtain ⟨parts, isPoint⟩ := eq_append_of_dropWhile found
    obtain rfl : point = '.' := by simpa using isPoint
    exact ⟨some fraction, rfl, parts⟩

/-- A text that leads to a decimal, or stops the program, is a literal. -/
theorem exists_literal_of_parseChars {chars : List Char} {outcome : Except Failure Decimal}
    (made : outcome ≠ .error .noValue) (h : parseChars chars = outcome) :
    ∃ n : Literal, n.text = chars := by
  obtain ⟨⟨mantissa, power⟩, taken, h⟩ := (tested_bind_iff made).mp h
  dsimp only at h
  split at h
  · exact absurd h made.symm
  · next some_digit =>
    obtain ⟨size, accumulated, -⟩ := (tested_bind_iff made).mp h
    rw [accumulate?_eq] at accumulated
    split at accumulated
    · next digits =>
      obtain ⟨exponent, marked⟩ := exists_exponent_of_split taken
      obtain ⟨sign, signed, -⟩ := Sign.exists_of_splitSign mantissa
      obtain ⟨written, fraction, parts⟩ := exists_fraction_of_split (Double.splitSign mantissa).2
      have given : (splitPoint (Double.splitSign mantissa).2).1 ++ written.getD [] ≠ [] := by
        rw [fraction]
        simpa using some_digit
      -- The pieces that the reader cut off are those of the literal, put together again.
      refine ⟨⟨sign, _, written, exponent, given, ?_⟩, ?_⟩
      · rw [fraction]
        exact List.all_eq_true.mp digits.1
      · rw [text, Literal.mantissa, unsigned, ← parts, ← signed, marked]
    · cases accumulated

/-! ### The number that is written

The value of a literal is stated with its point and its exponent, not with the scale
that reading computes from both. -/

theorem digitsValue_append (front back : List Char) : Double.digitsValue (front ++ back) =
    10 ^ back.length * Double.digitsValue front + Double.digitsValue back := by
  show Nat.ofDigitChars 10 (front ++ back) 0 =
    10 ^ back.length * Nat.ofDigitChars 10 front 0 + Nat.ofDigitChars 10 back 0
  rw [Nat.ofDigitChars_append, Nat.ofDigitChars_eq_ofDigitChars_zero]

theorem ten_zpow_eq (k : Int) : (10 : ℚ) ^ k = 10 ^ k.toNat / 10 ^ (-k).toNat := by
  rw [← zpow_natCast, ← zpow_natCast, ← zpow_sub₀ (by norm_num), Int.toNat_sub_toNat_neg]

/-- The point and the exponent together divide the digits by a power of ten. -/
theorem value_eq_digits : n.value = n.digits * 10 ^ (-n.scale) := by
  have joined : (Double.digitsValue n.whole : ℚ) +
      Double.digitsValue (n.fraction.getD []) / 10 ^ n.places = n.size / 10 ^ n.places := by
    rw [size, digitsValue_append, places]
    push_cast
    field_simp
  have shift : (10 : ℚ) ^ (-n.scale) = 10 ^ n.power / 10 ^ n.places := by
    rw [scale, neg_sub, zpow_sub₀ (by norm_num), zpow_natCast]
  simp only [value, joined, shift, digits, Sign.apply]
  split
  · push_cast
    ring
  · push_cast
    ring

/-! ### Range

What has to fit. A scale below zero multiplies the digits and needs room there, a scale
above zero needs room in its own type alone. -/

/-- The scale fits 32 bits, or the digits have room to take it in. -/
def ScaleFits : Prop :=
  (0 ≤ n.scale ∧ n.scale ≤ Nat.pow 2 32 - 1) ∨
    (n.scale < 0 ∧ FitsDigits (10 ^ (-n.scale).toNat) ∧
      FitsDigits (n.size * 10 ^ (-n.scale).toNat))

/-- The pieces of the literal fit: its exponent 64 bits, and its digits without the
point those of a decimal. -/
structure InRange : Prop where
  power : FitsExponent n.power
  size : n.size ≤ Nat.pow 2 127 - 1
  scale : n.ScaleFits

/-- The least number that fits is no multiple of ten, so the sign does not matter. -/
theorem fits_apply_mul_iff (sign : Sign) (size : Nat) {exponent : Nat} (positive : 0 < exponent) :
    FitsDigits (sign.apply size * 10 ^ exponent) ↔ FitsDigits (size * 10 ^ exponent) := by
  obtain ⟨smaller, rfl⟩ := Nat.exists_eq_succ_of_ne_zero positive.ne'
  have multiple : (size : Int) * 10 ^ (smaller + 1) = 10 * (size * 10 ^ smaller : Nat) := by
    push_cast
    ring
  have no_multiple : Nat.pow 2 127 % 10 = 8 := by decide
  rw [Sign.apply]
  split
  · rw [neg_mul, multiple]
    simp only [FitsBits]
    omega
  · rfl

theorem make?_eq_some_iff {digits : Int} {scale : Nat} {d : Decimal} :
    make? digits scale = some d ↔ d.digits = digits ∧ d.scale = scale := by
  refine ⟨make?_eq_some, ?_⟩
  rintro ⟨rfl, rfl⟩
  exact make?_self d

/-- A scale below zero is taken into the digits. -/
theorem withScale?_eq_some_iff {digits scale : Int} {d : Decimal} :
    withScale? digits scale = some d ↔ (-scale).toNat ≤ 38 ∧
      d.digits = digits * 10 ^ (-scale).toNat ∧ d.scale = scale.toNat := by
  unfold withScale?
  split
  · next nonneg =>
    rw [make?_eq_some_iff, Int.toNat_of_nonpos (by omega : -scale ≤ 0)]
    simp
  · next negative =>
    simp only [Option.bind_eq_bind, Option.bind_eq_some_iff, powerOfTen?_eq_some_iff,
      make?_eq_some_iff]
    rw [Int.toNat_of_nonpos (by omega : scale ≤ 0)]
    constructor
    · rintro ⟨power, ⟨small, rfl⟩, made, scale⟩
      push_cast at made
      exact ⟨small, made, scale⟩
    · rintro ⟨small, made, scale⟩
      refine ⟨_, ⟨small, rfl⟩, ?_, scale⟩
      push_cast
      exact made

theorem isSome_withScale?_iff (size : n.size < Nat.pow 2 127) :
    (withScale? n.digits n.scale).isSome ↔ n.ScaleFits := by
  have made : (withScale? n.digits n.scale).isSome ↔ (-n.scale).toNat ≤ 38 ∧
      FitsDigits (n.digits * 10 ^ (-n.scale).toNat) ∧ n.scale.toNat < Nat.pow 2 32 := by
    rw [Option.isSome_iff_exists]
    simp only [withScale?_eq_some_iff]
    constructor
    · rintro ⟨d, small, digits, scale⟩
      exact ⟨small, digits ▸ d.digits_fit, scale ▸ d.scale_lt⟩
    · rintro ⟨small, fits, scale_lt⟩
      exact ⟨⟨_, _, fits, scale_lt⟩, small, rfl, rfl⟩
  rw [made, ScaleFits]
  -- Only a scale below zero takes a power of ten into the digits.
  rcases lt_or_ge n.scale 0 with negative | nonneg
  · rw [fits_ten_pow_iff, digits, fits_apply_mul_iff n.sign n.size (by omega)]
    have zero_lt : n.scale.toNat < Nat.pow 2 32 := by
      rw [Int.toNat_of_nonpos negative.le]
      decide
    simp only [zero_lt, negative, Int.not_le.mpr negative, and_true, true_and, false_and, false_or]
  · have fits : FitsDigits n.digits := by
      simp only [FitsBits, digits, Sign.apply]
      split <;> omega
    rw [Int.toNat_of_nonpos (by omega : -n.scale ≤ 0)]
    simp only [pow_zero, mul_one, fits, nonneg, Int.not_lt.mpr nonneg, true_and, false_and,
      or_false, Nat.zero_le]
    omega

/-- What is made of the pieces is the number that is written. -/
theorem denotes_of_withScale? {d : Decimal} (h : withScale? n.digits n.scale = some d) :
    d.value = n.value ∧ (d.scale : Int) = max n.scale 0 := by
  obtain ⟨-, digits, scale⟩ := withScale?_eq_some_iff.mp h
  refine ⟨?_, by rw [scale, Int.ofNat_toNat]⟩
  rw [Decimal.value, digits, scale, value_eq_digits, ten_zpow_eq, neg_neg]
  push_cast
  rw [mul_div_assoc]

/-! ### White space around a literal

No character of a literal is white space, so setting white space aside gives the literal
itself. -/

/-- The literal is the text, white space around it set aside. -/
def StandsIn (text : String) : Prop :=
  ∃ front back, (∀ c ∈ front ++ back, Text.isBlank c) ∧ text.toList = front ++ n.text ++ back

theorem not_isBlank_of_mem {c : Char} (h : c ∈ n.text) : Text.isBlank c = false := by
  rcases List.mem_append.mp h with hm | hm
  · rcases n.mem_mantissa hm with digit | rfl | rfl | rfl
    · exact not_isBlank_of_isDigit digit
    all_goals rfl
  · cases he : n.exponent with
    | none =>
      rw [he] at hm
      cases hm
    | some e =>
      rw [he] at hm
      exact e.not_isBlank_of_mem hm

theorem text_ne_nil : n.text ≠ [] := by
  intro empty
  have parts := n.splitPoint_unsigned
  rw [text, mantissa, List.append_eq_nil_iff, List.append_eq_nil_iff] at empty
  rw [empty.1.2] at parts
  obtain ⟨whole, fraction⟩ := Prod.mk.inj parts
  exact n.given (by rw [← whole, ← fraction]; rfl)

end Literal

theorem dropWhile_isBlank_append {front rest : List Char} (blank : ∀ c ∈ front, Text.isBlank c)
    (solid : ∀ c, rest.head? = some c → Text.isBlank c = false) :
    (front ++ rest).dropWhile Text.isBlank = rest := by
  rw [List.dropWhile_append_of_pos blank]
  cases rest with
  | nil => rfl
  | cons c rest => simp [solid c rfl]

theorem trimBlanks_append {front core back : List Char}
    (blank : ∀ c ∈ front ++ back, Text.isBlank c)
    (solid : ∀ c ∈ core, Text.isBlank c = false) (given : core ≠ []) :
    Text.trimBlanks (front ++ core ++ back) = core := by
  have first : ∀ c, (core ++ back).head? = some c → Text.isBlank c = false := fun c hc => by
    rw [List.head?_append_of_ne_nil _ given] at hc
    exact solid c (List.mem_of_mem_head? hc)
  have last : ∀ c, core.reverse.head? = some c → Text.isBlank c = false := fun c hc =>
    solid c (List.mem_reverse.mp (List.mem_of_mem_head? hc))
  rw [Text.trimBlanks, List.append_assoc,
    dropWhile_isBlank_append (fun c hm => blank c (List.mem_append_left _ hm)) first,
    List.reverse_append, dropWhile_isBlank_append
      (fun c hm => blank c (List.mem_append_right _ (List.mem_reverse.mp hm))) last,
    List.reverse_reverse]

theorem exists_blanks (text : List Char) : ∃ front back, (∀ c ∈ front ++ back, Text.isBlank c) ∧
    text = front ++ Text.trimBlanks text ++ back := by
  have front := List.takeWhile_append_dropWhile (p := Text.isBlank) (l := text)
  have back := List.takeWhile_append_dropWhile (p := Text.isBlank)
    (l := (text.dropWhile Text.isBlank).reverse)
  refine ⟨text.takeWhile Text.isBlank,
    ((text.dropWhile Text.isBlank).reverse.takeWhile Text.isBlank).reverse, ?_, ?_⟩
  · intro c hm
    rcases List.mem_append.mp hm with hm | hm
    · exact List.mem_takeWhile_imp hm
    · exact List.mem_takeWhile_imp (List.mem_reverse.mp hm)
  · rw [Text.trimBlanks, List.append_assoc, ← List.reverse_append, back, List.reverse_reverse,
      front]

/-! ## Reading

Both directions together: a text that is read is a literal, and a literal is read as far
as its pieces fit. -/

namespace Literal
variable {n : Literal} {text : String}

theorem StandsIn.parse_eq (h : n.StandsIn text) : parse text =
    if n.ReachesScale then
      if n.scale < Nat.pow 2 63 then tested (withScale? n.digits n.scale)
      else .error (.overflow .scale)
    else .error .noValue := by
  obtain ⟨front, back, blank, parts⟩ := h
  rw [parse, parts, trimBlanks_append blank (fun _ => n.not_isBlank_of_mem) n.text_ne_nil,
    parseChars_text]

theorem StandsIn.parse_ok_iff (h : n.StandsIn text) {d : Decimal} : parse text = .ok d ↔
    n.ReachesScale ∧ n.scale < Nat.pow 2 63 ∧ withScale? n.digits n.scale = some d := by
  rw [h.parse_eq]
  split_ifs with reaches near
  · simp only [tested_ok_iff, reaches, near, true_and]
  · simp only [near, false_and, and_false]
  · simp only [reaches, false_and]

/-- A scale in range is far from the bound of its type. -/
theorem ScaleFits.lt (h : n.ScaleFits) : n.scale < Nat.pow 2 63 := by
  have room : Nat.pow 2 32 ≤ Nat.pow 2 63 := by decide
  rcases h with ⟨-, upper⟩ | ⟨negative, -⟩
  · omega
  · omega

theorem StandsIn.exists_parse_ok_iff (h : n.StandsIn text) :
    (∃ d, parse text = .ok d) ↔ n.InRange := by
  simp only [h.parse_ok_iff, exists_and_left, ← Option.isSome_iff_exists]
  have room : 1 ≤ Nat.pow 2 127 := by decide
  constructor
  · rintro ⟨reaches, -, made⟩
    have size := reaches.size
    exact ⟨reaches.power, by omega, (n.isSome_withScale?_iff size).mp made⟩
  · intro fits
    have size := fits.size
    have reaches : n.ReachesScale := ⟨fits.power, by omega⟩
    exact ⟨reaches, fits.scale.lt, (n.isSome_withScale?_iff reaches.size).mpr fits.scale⟩

theorem StandsIn.denotes {d : Decimal} (h : n.StandsIn text) (read : parse text = .ok d) :
    d.value = n.value ∧ (d.scale : Int) = max n.scale 0 :=
  n.denotes_of_withScale? (h.parse_ok_iff.mp read).2.2

end Literal

theorem exists_standsIn_of_parse {text : String} {outcome : Except Failure Decimal}
    (made : outcome ≠ .error .noValue) (h : parse text = outcome) :
    ∃ n : Literal, n.StandsIn text := by
  obtain ⟨n, same⟩ := Literal.exists_literal_of_parseChars made h
  obtain ⟨front, back, blank, parts⟩ := exists_blanks text.toList
  rw [← same] at parts
  exact ⟨n, front, back, blank, parts⟩

/-- A text is read as a decimal exactly if it is a literal in range, with or without
white space around it. It is read as the number that is written, at its scale if that is
not below zero. -/
theorem reads_exactly_literals (text : String) :
    ((∃ d, parse text = .ok d) ↔ ∃ n : Literal, n.StandsIn text ∧ n.InRange) ∧
      ∀ (n : Literal) (d : Decimal), n.StandsIn text → parse text = .ok d →
        d.value = n.value ∧ (d.scale : Int) = max n.scale 0 := by
  constructor
  · constructor
    · rintro ⟨d, read⟩
      obtain ⟨n, stands⟩ := exists_standsIn_of_parse (by simp) read
      exact ⟨n, stands, stands.exists_parse_ok_iff.mp ⟨d, read⟩⟩
    · rintro ⟨n, stands, fits⟩
      exact stands.exists_parse_ok_iff.mpr fits
  · intro n d stands read
    exact stands.denotes read

/-- A numeral with every piece that a literal may have. -/
def scientific : Literal where
  sign := .minus
  whole := ['1', '2']
  fraction := some ['5', '0']
  exponent := some ⟨'e', .plus, ['1'], rfl, List.cons_ne_nil _ _, List.all_eq_true.mp rfl⟩
  given := List.cons_ne_nil _ _
  all_digits := List.all_eq_true.mp rfl

theorem reads_exactly_literals_scientific :
    ∃ d, parse " -12.50e+1\t" = .ok d ∧ d.value = -125 ∧ d.scale = 1 := by
  obtain ⟨read_iff, denotes⟩ := reads_exactly_literals " -12.50e+1\t"
  have stands : scientific.StandsIn " -12.50e+1\t" :=
    ⟨[' '], ['\t'], List.all_eq_true.mp rfl, by decide⟩
  have range : scientific.InRange := ⟨by decide, by decide, .inl (by decide)⟩
  obtain ⟨d, hd⟩ := read_iff.mpr ⟨scientific, stands, range⟩
  obtain ⟨value, scale⟩ := denotes scientific d stands hd
  have digits : scientific.digits = -1250 := by decide
  have places : scientific.scale = 1 := by decide
  have written : scientific.value = -125 := by
    rw [scientific.value_eq_digits, digits, places]
    norm_num
  exact ⟨d, hd, value.trans written, Int.ofNat.inj scale⟩

end Decimal

end MapConfig
