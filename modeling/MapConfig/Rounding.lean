/-! Quotients of natural numbers rounded to the nearest whole number, with the
rule for exact halves as a parameter. -/
namespace MapConfig

/-- What becomes of an exact half. -/
inductive Tie where
  | toEven
  | awayFromZero

/-- The whole number nearest to `num / den`. -/
def roundDiv (num den : Nat) (tie : Tie) : Nat :=
  let quotient := num / den
  let remainder := num % den
  if 2 * remainder < den then quotient
  else if den < 2 * remainder then quotient + 1
  else match tie with
    | .toEven => quotient + quotient % 2
    | .awayFromZero => quotient + 1

end MapConfig
