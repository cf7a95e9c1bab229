import FormattedOutput.Power

/-!
# Decimals

A decimal is a mantissa and a power of ten. It is rounded by keeping its first digits, and a half
goes to the even neighbour.
-/

namespace FormattedOutput

/-- The decimal `mantissa * 10 ^ exponent`. -/
structure Decimal where
  mantissa : Nat
  exponent : Int
  deriving DecidableEq, Repr

namespace Decimal

/-- The number of decimal digits of a number, 1 for 0. -/
def digitCount (n : Nat) : Nat :=
  if n < 10 then 1 else digitCount (n / 10) + 1

/-- The number of digits of the mantissa. -/
def digits (d : Decimal) : Nat :=
  digitCount d.mantissa

/-- Zero. -/
def zero : Decimal := ⟨0, 0⟩

/-- The nearest whole number to `n / unit`, the even one of two that are equally near. -/
def divideToEven (n unit : Nat) : Nat :=
  let quotient := n / unit
  let rest := n % unit
  if unit < 2 * rest ∨ (2 * rest = unit ∧ quotient % 2 = 1) then quotient + 1 else quotient

/-- Keeps the first `keep` digits. A decimal that has no more digits stays as it is. With no digit
to keep, what is left is 0 or 1 at the place before the first digit, and with a negative `keep`
it is 0. Digits that round up to one digit more give that digit to the exponent. -/
def keepDigits (d : Decimal) (keep : Int) : Decimal :=
  let count : Int := d.digits
  if count ≤ keep then d
  else if keep < 0 then ⟨0, d.exponent + count⟩
  else
    let drop := (count - keep).toNat
    let rounded := divideToEven d.mantissa (10 ^ drop)
    if 0 < keep ∧ rounded = 10 ^ keep.toNat then ⟨rounded / 10, d.exponent + drop + 1⟩
    else ⟨rounded, d.exponent + drop⟩

/-- Moves the zeros at the end of the mantissa into the exponent. -/
def trim (d : Decimal) : Decimal :=
  if 0 < d.mantissa ∧ d.mantissa % 10 = 0 then trim ⟨d.mantissa / 10, d.exponent + 1⟩ else d
termination_by d.mantissa
decreasing_by exact Nat.div_lt_self (by omega) (by decide)

/-- The exponent of the first digit, 0 for zero. -/
def leadingExponent (d : Decimal) : Int :=
  if d.mantissa = 0 then 0 else d.exponent + d.digits - 1

end Decimal

end FormattedOutput
