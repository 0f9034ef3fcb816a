import MapConfig.Proofs.Decimal
import MapConfig.Proofs.Decimal.Pieces

/-! Reading the text of a decimal gives the decimal back, digits and scale. What is
shown is a numeral: a sign, digits before and after a point, and maybe an exponent.
Whichever layout is chosen, reading takes the numeral apart into the same pieces, so
two decimals have the same text only if they are the same. -/
namespace MapConfig

/-! ## Digits

A number shown and read again, and the tests that a run of digits passes. -/

theorem digitsValue_toString (n : Nat) : Double.digitsValue (toString n).toList = n := by
  rw [Nat.toString_eq_ofList_toDigits, String.toList_ofList]
  exact Nat.ofDigitChars_ten_toDigits

theorem isDigit_of_mem_toString {n : Nat} {c : Char} (h : c ∈ (toString n).toList) :
    c.isDigit := by
  rw [Nat.toString_eq_ofList_toDigits, String.toList_ofList] at h
  exact Nat.isDigit_of_mem_toDigits (by decide) (by decide) h

theorem ne_of_isDigit {c other : Char} (h : c.isDigit) (hother : other.isDigit = false) :
    c ≠ other := by
  rintro rfl
  simp [h] at hother

/-- A run of digits passes the tests that readers put to it. -/
theorem digits_tested {digits : List Char} (given : digits ≠ [])
    (all : ∀ c ∈ digits, c.isDigit) : (digits.isEmpty || !digits.all Char.isDigit) = false := by
  simpa [given] using all

theorem splitSign_of_digit {c : Char} (h : c.isDigit) (rest : List Char) :
    Double.splitSign (c :: rest) = (false, c :: rest) := by
  have minus : c ≠ '-' := ne_of_isDigit h rfl
  have plus : c ≠ '+' := ne_of_isDigit h rfl
  simp [Double.splitSign, minus, plus]

theorem toList_toString_of_neg {n : Int} (h : n < 0) :
    (toString n).toList = '-' :: (toString n.natAbs).toList := by
  cases n with
  | ofNat n => exact absurd h (Int.not_lt.mpr (Int.natCast_nonneg n))
  | negSucc n =>
    show ("-" ++ (n + 1).repr).toList = _
    rw [String.toList_append]
    rfl

theorem int64?_toString_of_neg {n : Int} (h : n < 0) (fits : -(Nat.pow 2 63 : Int) ≤ n) :
    Text.int64? (toString n).toList = some n := by
  rw [Text.int64?, toList_toString_of_neg h, Text.boundedInt?]
  have tested := digits_tested (EndsInDigit.of_nat n.natAbs).ne_nil
    fun c hm => isDigit_of_mem_toString hm
  have value := digitsValue_toString n.natAbs
  generalize (toString n.natAbs).toList = digits at tested value ⊢
  have size : -(n.natAbs : Int) = n := by omega
  have upper : n ≤ Nat.pow 2 63 - 1 := by omega
  have below : -(Nat.pow 2 63 : Int) < 0 := by decide
  simp only [below, if_true, tested, Bool.false_eq_true, if_false, value, size, fits, upper,
    and_self]

/-- Leading zeros do not count. -/
theorem digitsValue_zeros_append (n : Nat) (digits : List Char) :
    Double.digitsValue (Double.zeros n ++ digits) = Double.digitsValue digits := by
  induction n with
  | zero => rfl
  | succ n ih => exact ih

theorem not_isBlank_of_isDigit {c : Char} (h : c.isDigit) : Text.isBlank c = false := by
  have range : 48 ≤ c.toNat ∧ c.toNat ≤ 57 := by
    simp only [Char.isDigit, Bool.and_eq_true, decide_eq_true_eq, UInt32.le_iff_toNat_le] at h
    exact h
  simp only [Text.isBlank, Bool.or_eq_false_iff, Bool.and_eq_false_iff, decide_eq_false_iff_not,
    beq_eq_false_iff_ne]
  omega

/-- Only white space at the ends is set aside. -/
theorem trimBlanks_eq_self {text : List Char}
    (first : ∀ c, text.head? = some c → Text.isBlank c = false)
    (last : ∀ c, text.getLast? = some c → Text.isBlank c = false) :
    Text.trimBlanks text = text := by
  have keeps {cs : List Char} (h : ∀ c, cs.head? = some c → Text.isBlank c = false) :
      cs.dropWhile Text.isBlank = cs := by
    cases cs with
    | nil => rfl
    | cons c rest => simp [h c rfl]
  rw [Text.trimBlanks, keeps first, keeps (by simpa using last), List.reverse_reverse]

namespace Decimal

/-! ## Numerals

A `Numeral` is a text in its pieces, as a `Literal` is, but of the form that is shown:
it has a digit before the point, no plus sign, and an exponent below zero only. -/

/-- Digits before and after a point; without a point where none follow it. -/
def pointed (whole fraction : List Char) : List Char :=
  whole ++ if fraction = [] then [] else '.' :: fraction

/-- A minus sign stands before the text of a negative number. -/
def signed (negative : Bool) (unsigned : List Char) : List Char :=
  if negative then '-' :: unsigned else unsigned

theorem signed_append (negative : Bool) (front back : List Char) :
    signed negative front ++ back = signed negative (front ++ back) := by
  cases negative <;> rfl

/-- A number as it stands in a text. An exponent is written below zero only. -/
structure Numeral where
  negative : Bool
  whole : List Char
  fraction : List Char
  exponent : Option Int
  whole_ne_nil : whole ≠ []
  digits : ∀ c ∈ whole ++ fraction, c.isDigit
  exponent_fits : ∀ e ∈ exponent, -(Nat.pow 2 63 : Int) ≤ e ∧ e < 0

namespace Numeral
variable (n : Numeral)

def mantissa : List Char := signed n.negative (pointed n.whole n.fraction)

def text : List Char :=
  n.mantissa ++ n.exponent.elim [] fun e => 'E' :: (toString e).toList

def value : Int :=
  let size := Double.digitsValue (n.whole ++ n.fraction)
  if n.negative then -(size : Int) else size

def scale : Int := n.fraction.length - n.exponent.getD 0

theorem natAbs_value : n.value.natAbs = Double.digitsValue (n.whole ++ n.fraction) := by
  simp only [value]
  split
  · rw [Int.natAbs_neg, Int.natAbs_natCast]
  · rw [Int.natAbs_natCast]

theorem exists_first : ∃ c rest, pointed n.whole n.fraction = c :: rest ∧ c.isDigit := by
  obtain ⟨c, rest, hwhole⟩ := List.exists_cons_of_ne_nil n.whole_ne_nil
  exact ⟨c, _, by rw [pointed, hwhole]; rfl, n.digits c (by simp [hwhole])⟩

theorem splitPoint_pointed : splitPoint (pointed n.whole n.fraction) = (n.whole, n.fraction) := by
  have no_point : ∀ c ∈ n.whole, (c != '.') = true := fun c hm =>
    bne_iff_ne.mpr (ne_of_isDigit (n.digits c (List.mem_append_left _ hm)) rfl)
  rw [splitPoint, pointed, List.takeWhile_append_of_pos no_point,
    List.dropWhile_append_of_pos no_point]
  split
  · next none_follow => simp [none_follow]
  · simp

theorem splitSign_mantissa :
    Double.splitSign n.mantissa = (n.negative, pointed n.whole n.fraction) := by
  obtain ⟨c, rest, hpointed, digit⟩ := n.exists_first
  rw [mantissa, hpointed]
  cases n.negative with
  | false => exact splitSign_of_digit digit rest
  | true => rfl

theorem not_isExponentMark_of_mem {c : Char} (h : c ∈ n.mantissa) : isExponentMark c = false := by
  have mark {other : Char} (hother : other.isDigit) : isExponentMark other = false := by
    have lower : other ≠ 'e' := ne_of_isDigit hother rfl
    have upper : other ≠ 'E' := ne_of_isDigit hother rfl
    simp [isExponentMark, lower, upper]
  have unsigned : ∀ other ∈ pointed n.whole n.fraction, isExponentMark other = false := by
    intro other hm
    rcases List.mem_append.mp hm with hm | hm
    · exact mark (n.digits other (List.mem_append_left _ hm))
    · split at hm
      · cases hm
      · rcases List.mem_cons.mp hm with rfl | hm
        · rfl
        · exact mark (n.digits other (List.mem_append_right _ hm))
  rw [mantissa, signed] at h
  split at h
  · rcases List.mem_cons.mp h with rfl | h
    · rfl
    · exact unsigned c h
  · exact unsigned c h

theorem splitExponent?_text :
    splitExponent? n.text = some (n.mantissa, n.exponent.getD 0) := by
  have no_mark : ∀ c ∈ n.mantissa, (!isExponentMark c) = true := fun c hm => by
    rw [n.not_isExponentMark_of_mem hm]
    rfl
  rw [splitExponent?, text, List.takeWhile_append_of_pos no_mark,
    List.dropWhile_append_of_pos no_mark]
  cases hexponent : n.exponent with
  | none => simp
  | some e =>
    obtain ⟨fits, below⟩ := n.exponent_fits e hexponent
    have read := int64?_toString_of_neg below fits
    have mark : isExponentMark 'E' = true := rfl
    simp only [Option.elim_some, List.takeWhile_cons, List.dropWhile_cons, mark, read,
      Bool.not_true, Bool.false_eq_true, if_false, List.append_nil, Option.bind_eq_bind,
      Option.bind_some, Option.getD_some]

theorem fits_exponent : FitsExponent (n.exponent.getD 0) := by
  cases hexponent : n.exponent with
  | none => exact ⟨by decide, by decide⟩
  | some e =>
    obtain ⟨fits, below⟩ := n.exponent_fits e hexponent
    exact ⟨fits, below.trans (by decide)⟩

/-- Reading takes a numeral apart, and then asks whether the number fits. -/
theorem parseChars_text : parseChars n.text =
    if Double.digitsValue (n.whole ++ n.fraction) < Nat.pow 2 127 then
      if n.scale < Nat.pow 2 63 then tested (withScale? n.value n.scale)
      else .error (.overflow .scale)
    else .error .noValue :=
  parseChars_eq n.splitExponent?_text n.splitSign_mantissa n.splitPoint_pointed
    (List.append_ne_nil_of_left_ne_nil n.whole_ne_nil _) n.digits n.fits_exponent

/-- Numerals with the same text are the same number at the same scale. -/
theorem eq_of_text_eq {n m : Numeral} (h : n.text = m.text) :
    n.value = m.value ∧ n.scale = m.scale := by
  have exponents := congrArg splitExponent? h
  rw [n.splitExponent?_text, m.splitExponent?_text, Option.some.injEq, Prod.mk.injEq] at exponents
  have signs := congrArg Double.splitSign exponents.1
  rw [n.splitSign_mantissa, m.splitSign_mantissa, Prod.mk.injEq] at signs
  have points := congrArg splitPoint signs.2
  rw [n.splitPoint_pointed, m.splitPoint_pointed, Prod.mk.injEq] at points
  exact ⟨by rw [value, value, signs.1, points.1, points.2],
    by rw [scale, scale, exponents.2, points.2]⟩

end Numeral

/-! ## The numeral that is shown

One lemma for each layout. Both give the digits of the decimal, the point being set by
cutting the digits or by filling up with zeros. -/

section
variable {digits : List Char}

theorem isDigit_of_mem_zeros_append (all : ∀ c ∈ digits, c.isDigit) {n : Nat} {c : Char}
    (h : c ∈ Double.zeros n ++ digits) : c.isDigit := by
  rcases List.mem_append.mp h with zero | h
  · rw [List.eq_of_mem_replicate zero]
    rfl
  · exact all c h

theorem exists_plainText_eq (given : digits ≠ []) (all : ∀ c ∈ digits, c.isDigit) (scale : Nat) :
    ∃ whole fraction, plainText digits scale = pointed whole fraction ∧ whole ≠ [] ∧
      (∀ c ∈ whole ++ fraction, c.isDigit) ∧
      Double.digitsValue (whole ++ fraction) = Double.digitsValue digits ∧
      fraction.length = scale := by
  unfold plainText
  split
  · next no_places =>
    exact ⟨digits, [], by simp [pointed], given, by simpa using all, by simp, no_places.symm⟩
  · next places =>
    split
    · next inside =>
      -- The point stands among the digits.
      have split_at := List.take_append_drop (digits.length - scale) digits
      refine ⟨digits.take (digits.length - scale), digits.drop (digits.length - scale),
        ?_, ?_, by rwa [split_at], by rw [split_at], ?_⟩
      · rw [pointed, if_neg (by rw [List.drop_eq_nil_iff]; omega)]
      · rw [Ne, List.take_eq_nil_iff]
        exact not_or.mpr ⟨by omega, given⟩
      · rw [List.length_drop]
        omega
    · next outside =>
      -- The point stands before all digits, with zeros to fill the places between.
      refine ⟨['0'], Double.zeros (scale - digits.length) ++ digits, ?_, List.cons_ne_nil _ _,
        fun c => isDigit_of_mem_zeros_append all (n := scale - digits.length + 1),
        digitsValue_zeros_append (scale - digits.length + 1) digits, ?_⟩
      · rw [pointed, if_neg (List.append_ne_nil_of_right_ne_nil _ given)]
        rfl
      · rw [List.length_append, Double.zeros, List.length_replicate]
        omega

theorem exists_scientificText_eq (given : digits ≠ []) (order : Int) :
    ∃ whole fraction,
      scientificText digits order = pointed whole fraction ++ 'E' :: (toString order).toList ∧
      whole ≠ [] ∧ whole ++ fraction = digits ∧ fraction.length + 1 = digits.length := by
  match digits, given with
  | [first], _ => exact ⟨[first], [], rfl, List.cons_ne_nil _ _, rfl, rfl⟩
  | first :: second :: rest, _ =>
    exact ⟨[first], second :: rest, rfl, List.cons_ne_nil _ _, rfl, rfl⟩

/-- The numeral is the digits at the scale with the sign, in the layout given. -/
structure Numeral.Shows (n : Numeral) (negative : Bool) (layout digits : List Char)
    (scale : Nat) : Prop where
  sign : n.negative = negative
  text : n.text = signed negative layout
  size : Double.digitsValue (n.whole ++ n.fraction) = Double.digitsValue digits
  places : n.scale = scale

theorem exists_plain_numeral (given : digits ≠ []) (all : ∀ c ∈ digits, c.isDigit) (scale : Nat)
    (negative : Bool) : ∃ n : Numeral, n.Shows negative (plainText digits scale) digits scale := by
  obtain ⟨whole, fraction, layout, whole_ne_nil, each, size, places⟩ :=
    exists_plainText_eq given all scale
  refine ⟨⟨negative, whole, fraction, none, whole_ne_nil, each, by simp⟩, rfl, ?_, size, ?_⟩
  · rw [layout]
    exact List.append_nil _
  · simp [Numeral.scale, places]

/-- The scale of every decimal leaves room for the exponent. -/
theorem exists_scientific_numeral (given : digits ≠ []) (all : ∀ c ∈ digits, c.isDigit)
    {scale : Nat} (fits : scale < Nat.pow 2 32) {order : Int} (small : order < -6)
    (same : order = (digits.length : Int) - 1 - scale) (negative : Bool) :
    ∃ n : Numeral, n.Shows negative (scientificText digits order) digits scale := by
  obtain ⟨whole, fraction, layout, whole_ne_nil, parts, places⟩ :=
    exists_scientificText_eq given order
  have room : Nat.pow 2 32 ≤ Nat.pow 2 63 := by decide
  refine ⟨⟨negative, whole, fraction, some order, whole_ne_nil, by rwa [parts], ?_⟩,
    rfl, ?_, by rw [parts], ?_⟩
  · rintro e ⟨⟩
    omega
  · rw [layout]
    exact signed_append negative _ _
  · simp only [Numeral.scale, Option.getD_some]
    omega

end

/-- Every decimal is shown as a numeral for its digits at its scale. -/
theorem exists_numeral (d : Decimal) :
    ∃ n : Numeral, n.text = d.toText.toList ∧ n.value = d.digits ∧ n.scale = d.scale := by
  have given := (EndsInDigit.of_nat d.digits.natAbs).ne_nil
  have all : ∀ c ∈ (toString d.digits.natAbs).toList, c.isDigit :=
    fun c hm => isDigit_of_mem_toString hm
  have size := digitsValue_toString d.digits.natAbs
  rw [toText, String.toList_ofList]
  generalize (toString d.digits.natAbs).toList = digits at given all size ⊢
  obtain ⟨n, shows⟩ : ∃ n : Numeral, n.Shows (decide (d.digits < 0))
      (if (digits.length : Int) - 1 - d.scale < -6
        then scientificText digits ((digits.length : Int) - 1 - d.scale)
        else plainText digits d.scale) digits d.scale := by
    split
    · next small => exact exists_scientific_numeral given all d.scale_lt small rfl _
    · exact exists_plain_numeral given all d.scale _
  refine ⟨n, by simp [shows.text, signed], ?_, shows.places⟩
  simp only [Numeral.value, shows.sign, shows.size, size, decide_eq_true_eq]
  split <;> omega

/-! ## Reading back

The numeral has the digits and the scale of the decimal. These fit, so that reading,
which takes the numeral apart, makes the same decimal of them. -/

/-- A decimal is made again of its own parts. -/
theorem make?_self (d : Decimal) : make? d.digits d.scale = some d :=
  dif_pos ⟨d.digits_fit, d.scale_lt⟩

theorem trimBlanks_toText (d : Decimal) : Text.trimBlanks d.toText.toList = d.toText.toList := by
  obtain ⟨n, text, -, -⟩ := d.exists_numeral
  apply trimBlanks_eq_self
  · obtain ⟨first, rest, hpointed, digit⟩ := n.exists_first
    intro c hc
    rw [← text, Numeral.text, Numeral.mantissa, hpointed, signed] at hc
    split at hc
    · obtain rfl : '-' = c := Option.some.inj hc
      rfl
    · obtain rfl : first = c := Option.some.inj hc
      exact not_isBlank_of_isDigit digit
  · obtain ⟨last, hlast, digit⟩ := EndsInDigit.of_decimal d
    intro c hc
    rw [hlast, Option.some.injEq] at hc
    exact hc ▸ not_isBlank_of_isDigit digit

/-- All digits come back but the least that fit: their size without the sign does not.
The program does not stop at any text that is shown. -/
theorem parse_toText (d : Decimal) : parse d.toText =
    if d.digits = -(Nat.pow 2 127 : Int) then .error .noValue else .ok d := by
  obtain ⟨n, text, value, scale⟩ := d.exists_numeral
  obtain ⟨least, greatest⟩ := d.digits_fit
  rw [parse, trimBlanks_toText, ← text, n.parseChars_text, ← n.natAbs_value, value, scale]
  by_cases h : d.digits = -(Nat.pow 2 127 : Int)
  · rw [if_neg (by omega), if_pos h]
  · have near : (d.scale : Int) < (Nat.pow 2 63 : Nat) :=
      Int.ofNat_lt.mpr (d.scale_lt.trans (by decide))
    rw [if_pos (by omega), if_neg h, if_pos near, withScale?, if_pos (Int.natCast_nonneg _),
      Int.toNat_natCast, make?_self]
    rfl

/-- Decimals of the same text are the same, trailing zeros counted. -/
theorem eq_of_toText_eq {a b : Decimal} (h : a.toText = b.toText) : a = b := by
  obtain ⟨n, text_a, value_a, scale_a⟩ := a.exists_numeral
  obtain ⟨m, text_b, value_b, scale_b⟩ := b.exists_numeral
  obtain ⟨value, scale⟩ := Numeral.eq_of_text_eq (text_a.trans (h ▸ text_b.symm))
  have digits : a.digits = b.digits := value_a.symm.trans (value.trans value_b)
  have places : a.scale = b.scale := Int.ofNat.inj (scale_a.symm.trans (scale.trans scale_b))
  cases a
  cases b
  obtain rfl := digits
  obtain rfl := places
  rfl

/-- The text of a decimal is read back to the same digits and the same scale, unless
the digits are the least that fit, so no two decimals have the same text. -/
theorem decimal_reads_back :
    (∀ d : Decimal, d.digits ≠ -(Nat.pow 2 127 : Int) → parse d.toText = .ok d) ∧
      ∀ a b : Decimal, a.toText = b.toText → a = b :=
  ⟨fun d h => (parse_toText d).trans (if_neg h), fun _ _ => eq_of_toText_eq⟩

theorem decimal_reads_back_scientific :
    toText ⟨-50, 9, by decide, by decide⟩ = "-5.0E-8" ∧
      parse "-5.0E-8" = .ok ⟨-50, 9, by decide, by decide⟩ ∧
      toText ⟨-5, 8, by decide, by decide⟩ = "-5E-8" := by
  have shown : toText ⟨-50, 9, by decide, by decide⟩ = "-5.0E-8" := by decide
  refine ⟨shown, ?_, by decide⟩
  rw [← shown]
  exact decimal_reads_back.1 ⟨-50, 9, by decide, by decide⟩ (by decide)

end Decimal
end MapConfig
