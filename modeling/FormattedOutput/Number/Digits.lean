import FormattedOutput.Power
import FormattedOutput.Directive.Basic
import FormattedOutput.Piece

/-!
# Digits of a number

Digits come out with the last one first, which is the order in which division makes them. Decimal
digits come out of a table, two at a time.
-/

namespace FormattedOutput

namespace Digits

/-- The byte of one digit below 16. -/
def ofDigit (uppercase : Bool) (digit : Nat) : UInt8 :=
  UInt8.ofNat (if digit < 10 then 48 + digit else (if uppercase then 55 else 87) + digit)

/-- The two digits of every number below 100, the last one first. -/
def pairs : List (UInt8 × UInt8) :=
  (List.range 100).map fun n => (ofDigit false (n % 10), ofDigit false (n / 10))

/-- The two digits of a number below 100, the last one first. -/
def pair (n : Nat) : Bytes :=
  match pairs[n]? with
  | some (ones, tens) => [ones, tens]
  | none => []

/-- The digits of a number below 100, without a zero in front, the last one first. -/
def shortPair (n : Nat) : Bytes :=
  if n < 10 then [ofDigit false n] else pair n

/-- The decimal digits of a number, the last one first. Four digits at a time are taken off. -/
def decimal (n : Nat) : Bytes :=
  if 10000 ≤ n then
    pair (n % 10000 % 100) ++ pair (n % 10000 / 100) ++ decimal (n / 10000)
  else if 100 ≤ n then pair (n % 100) ++ shortPair (n / 100)
  else shortPair n
termination_by n
decreasing_by omega

/-- The digits of a number in a base that is a power of two, the last one first. One digit has
`extra + 1` bits. -/
def binary (extra : Nat) (uppercase : Bool) (n : Nat) : Bytes :=
  let digit := ofDigit uppercase (n % 2 ^ (extra + 1))
  if h : n >>> (extra + 1) = 0 then [digit]
  else digit :: binary extra uppercase (n >>> (extra + 1))
termination_by n
decreasing_by
  rw [Nat.shiftRight_eq_div_pow] at *
  refine Nat.div_lt_self (Nat.pos_of_ne_zero ?_) (Nat.one_lt_two_pow (Nat.succ_ne_zero _))
  rintro rfl
  simp at h

/-- The digits of a number, the last one first. A number has at least one digit. -/
def reversed (radix : Radix) (uppercase : Bool) (n : Nat) : Bytes :=
  match radix with
  | .decimal => decimal n
  | .hex => binary 3 uppercase n
  | .octal => binary 2 false n
  | .binary => binary 0 false n

/-- The last `count` hexadecimal digits of a number, zeros included, the last one first. -/
def lastHex (uppercase : Bool) : Nat → Nat → Bytes
  | 0, _ => []
  | count + 1, n => ofDigit uppercase (n % 16) :: lastHex uppercase count (n / 16)

end Digits

end FormattedOutput
