import MapConfig.Decimal.Text

/-! Numbers in text end in a digit, also with places after the point or with an
exponent.

This is what keeps the labels of ticks apart from other texts of a style: a key that
ends in a tick has a digit at its end. -/
namespace MapConfig

def EndsInDigit (text : List Char) : Prop := ∃ c, text.getLast? = some c ∧ c.isDigit

namespace EndsInDigit
variable {text : List Char}

theorem ne_nil (h : EndsInDigit text) : text ≠ [] := by
  rintro rfl
  obtain ⟨c, hc, _⟩ := h
  cases hc

theorem append (front : List Char) (h : EndsInDigit text) : EndsInDigit (front ++ text) := by
  obtain ⟨c, hc, digit⟩ := h
  exact ⟨c, by simp [List.getLast?_append, hc], digit⟩

theorem cons (first : Char) (h : EndsInDigit text) : EndsInDigit (first :: text) :=
  h.append [first]

/-- A part at the end of the text. -/
theorem drop {n : Nat} (h : EndsInDigit text) (hn : n < text.length) :
    EndsInDigit (text.drop n) := by
  obtain ⟨c, hc, digit⟩ := h
  exact ⟨c, by rw [List.getLast?_drop, if_neg (by omega), hc], digit⟩

theorem of_nat (n : Nat) : EndsInDigit (toString n).toList := by
  rw [Nat.toString_eq_ofList_toDigits, String.toList_ofList]
  have hne : Nat.toDigits 10 n ≠ [] := Nat.toDigits_ne_nil
  refine ⟨_, List.getLast?_eq_some_getLast hne, ?_⟩
  exact Nat.isDigit_of_mem_toDigits (by decide) (by decide) (List.getLast_mem hne)

theorem of_int (n : Int) : EndsInDigit (toString n).toList := by
  cases n with
  | ofNat n => exact of_nat n
  | negSucc n =>
    show EndsInDigit ("-" ++ (n + 1).repr).toList
    rw [String.toList_append]
    exact (of_nat (n + 1)).append _

theorem of_plainText (h : EndsInDigit text) (scale : Nat) :
    EndsInDigit (Decimal.plainText text scale) := by
  unfold Decimal.plainText
  split
  · exact h
  · split
    · exact ((h.drop (by omega)).cons _).append _
    · exact ((h.append (Double.zeros _)).cons _).cons _

theorem of_scientificText (digits : List Char) (order : Int) :
    EndsInDigit (Decimal.scientificText digits order) :=
  ((of_int order).cons _).append _

theorem of_decimal (d : Decimal) : EndsInDigit d.toText.toList := by
  unfold Decimal.toText
  rw [String.toList_ofList]
  have size : EndsInDigit (
      let digits := (toString d.digits.natAbs).toList
      let order : Int := (digits.length : Int) - 1 - d.scale
      if order < -6 then Decimal.scientificText digits order
      else Decimal.plainText digits d.scale) := by
    dsimp only
    split
    · exact of_scientificText _ _
    · exact (of_nat _).of_plainText _
  dsimp only at size ⊢
  split
  · exact size.cons '-'
  · exact size

end EndsInDigit

end MapConfig
