import FormattedOutput.Decimal.Basic
import FormattedOutput.PowerTable.Rebuild

/-!
# The shortest decimal of a binary64 value

The decimals that read back as a value lie between the two halfway points to its neighbours. The
value and both halfway points are scaled to whole numbers by one product with a power of five.
Then digits are cut off all three as long as the halfway points stay apart. What is left of the
value, rounded, is the shortest decimal.
-/

namespace FormattedOutput

open PowerTable

/-! ## Divisibility -/

/-- A product of words with this number undoes a product with 5. -/
def inverseOfFive : Nat := 14757395258967641293

/-- The largest number whose product with 5 is a word. -/
def largestFifth : Nat := 3689348814741910323

theorem word_mul_inverseOfFive_lt {n : Nat} (h : 0 < n)
    (hle : word (n * inverseOfFive) ≤ largestFifth) : word (n * inverseOfFive) < n := by
  simp only [word, inverseOfFive, largestFifth] at *
  generalize ht : n * 14757395258967641293 / 2 ^ (64 : Nat) = t
  rcases Nat.lt_trichotomy (5 * t) (4 * n) with h' | h' | h' <;> omega

/-- The number of factors 5 in a word. A product with the inverse of 5 is at most the largest
fifth just if 5 divides the number, and then it is the quotient. -/
def fiveFactor (n : Nat) : Nat :=
  if h : 0 < n ∧ word (n * inverseOfFive) ≤ largestFifth then
    fiveFactor (word (n * inverseOfFive)) + 1
  else 0
termination_by n
decreasing_by exact word_mul_inverseOfFive_lt h.1 h.2

/-- `5 ^ p` divides the number. -/
def hasFives (n p : Nat) : Bool :=
  p ≤ fiveFactor n

/-- `2 ^ p` divides the number: its last `p` bits are zero. -/
def hasTwos (n p : Nat) : Bool :=
  n &&& (1 <<< p - 1) = 0

/-! ## The value between its halfway points -/

/-- A value between its halfway points. Four units make one step of the significand, so the value
is `4 * significand` units, the upper halfway point is 2 units above it, and the lower one is 2
units below it, or 1 unit if the step below the value is half as wide. -/
structure Interval where
  significand : Nat
  /-- One unit is `2 ^ exponent`. -/
  exponent : Int
  /-- 1 if the lower halfway point is 2 units below the value, 0 if it is 1 unit below. -/
  lowerShift : Nat
  deriving DecidableEq, Repr

namespace Interval

/-- The interval of a value with the given fraction and biased exponent. -/
def ofFields (fraction exponent : Nat) : Interval where
  significand := if exponent = 0 then fraction else 2 ^ (52 : Nat) + fraction
  exponent := (if exponent = 0 then 1 else (exponent : Int)) - 1023 - 52 - 2
  lowerShift := if fraction ≠ 0 ∨ exponent ≤ 1 then 1 else 0

/-- The value, in units. -/
def value (i : Interval) : Nat := 4 * i.significand

/-- The upper halfway point, in units. -/
def upper (i : Interval) : Nat := 4 * i.significand + 2

/-- The lower halfway point, in units. -/
def lower (i : Interval) : Nat := 4 * i.significand - 1 - i.lowerShift

/-- The halfway points read back as the value if its significand is even. -/
def closed (i : Interval) : Bool := i.significand % 2 = 0

end Interval

/-! ## Scaling to whole numbers -/

/-- The three points, scaled by a power of ten and cut down to whole numbers, in the middle of the
search for the shortest decimal. -/
structure Search where
  value : Nat
  upper : Nat
  lower : Nat
  /-- One unit is `10 ^ exponent`. -/
  exponent : Int
  /-- The last digit that was cut off the value. -/
  lastDigit : Nat := 0
  /-- Nothing but zeros was cut off the lower point. -/
  lowerZeros : Bool := false
  /-- Nothing but zeros was cut off the value, the last digit apart. -/
  valueZeros : Bool := false
  deriving DecidableEq, Repr

namespace Interval

/-- The power of ten by which an exponent `e` of at least 0 is scaled down. -/
def tensBelow (e : Nat) : Nat := floorLog10Two e - (if 3 < e then 1 else 0)

/-- The power of ten by which an exponent `-e` below 0 is scaled up. -/
def tensAbove (e : Nat) : Nat := floorLog10Five e - (if 1 < e then 1 else 0)

/-- The three points times a power, shifted right. -/
def scaled (i : Interval) (p : WordPair) (shift : Nat) (exponent : Int) : Search where
  value := shiftedProduct i.value p shift
  upper := shiftedProduct i.upper p shift
  lower := shiftedProduct i.lower p shift
  exponent := exponent

/-- Scales an interval whose unit is `2 ^ e`: the points are divided by a power of ten. -/
def scaleDown (i : Interval) (e : Nat) : Search :=
  let q := tensBelow e
  let s := i.scaled (inverse q) (q + (storedBits + powerBits q - 1) - e) q
  if q ≤ 21 then
    if i.value % 5 = 0 then { s with valueZeros := hasFives i.value q }
    else if i.closed then { s with lowerZeros := hasFives i.lower q }
    else if hasFives i.upper q then { s with upper := s.upper - 1 }
    else s
  else s

/-- Scales an interval whose unit is `2 ^ (-e)`: the points are multiplied by a power of ten. -/
def scaleUp (i : Interval) (e : Nat) : Search :=
  let q := tensAbove e
  let s := i.scaled (power (e - q)) (q + storedBits - powerBits (e - q)) ((q : Int) - e)
  if q ≤ 1 then
    if i.closed then { s with valueZeros := true, lowerZeros := i.lowerShift = 1 }
    else { s with valueZeros := true, upper := s.upper - 1 }
  else if q < 63 then { s with valueZeros := hasTwos i.value q }
  else s

/-- Scales an interval to whole numbers. -/
def scale (i : Interval) : Search :=
  if 0 ≤ i.exponent then i.scaleDown i.exponent.toNat else i.scaleUp (-i.exponent).toNat

end Interval

/-! ## Cutting digits off -/

namespace Search

/-- Cuts one digit off each point. -/
def cutDigit (s : Search) : Search where
  value := s.value / 10
  upper := s.upper / 10
  lower := s.lower / 10
  exponent := s.exponent + 1
  lastDigit := s.value % 10
  lowerZeros := s.lowerZeros && s.lower % 10 == 0
  valueZeros := s.valueZeros && s.lastDigit == 0

/-- Cuts digits off while the halfway points stay apart. -/
def cutApart (s : Search) : Search :=
  if s.lower / 10 < s.upper / 10 then s.cutDigit.cutApart else s
termination_by s.upper
decreasing_by simp only [cutDigit]; omega

/-- Cuts zeros off the lower point, as far as it has any. -/
def cutLowerZeros (s : Search) : Search :=
  if 0 < s.lower ∧ s.lower % 10 = 0 then s.cutDigit.cutLowerZeros else s
termination_by s.lower
decreasing_by simp only [cutDigit]; omega

/-- The rounded value where zeros were cut off exactly. An exact half goes to the even neighbour.
A value that has become the lower point is raised, unless the lower point reads back. -/
def roundExact (s : Search) (closed : Bool) : Nat :=
  let half := s.valueZeros && s.lastDigit == 5 && s.value % 2 == 0
  let roundUp := !half && 5 ≤ s.lastDigit
  if (s.value = s.lower ∧ !(closed && s.lowerZeros)) ∨ roundUp then s.value + 1 else s.value

/-- The rounded value where no halfway case can come up. -/
def roundPlain (s : Search) : Nat :=
  if s.value = s.lower ∨ 5 ≤ s.lastDigit then s.value + 1 else s.value

/-- Cuts two digits off at once, if the halfway points stay apart. -/
def cutPair (s : Search) : Search :=
  if s.lower / 100 < s.upper / 100 then
    { s with
      value := s.value / 100
      upper := s.upper / 100
      lower := s.lower / 100
      exponent := s.exponent + 2
      lastDigit := s.value / 10 % 10 }
  else s

/-- The shortest decimal between the halfway points, the nearest one to the value. -/
def shortest (s : Search) (closed : Bool) : Decimal :=
  if s.lowerZeros || s.valueZeros then
    let t := s.cutApart
    let t := if t.lowerZeros then t.cutLowerZeros else t
    ⟨t.roundExact closed, t.exponent⟩
  else
    let t := s.cutPair.cutApart
    ⟨t.roundPlain, t.exponent⟩

end Search

/-! ## The shortest decimal -/

namespace Decimal

/-- A whole number below `2 ^ 53` is its own shortest decimal, its zeros moved to the exponent. -/
def ofWholeNumber? (fraction exponent : Nat) : Option Decimal :=
  let significand := 2 ^ (52 : Nat) + fraction
  if 1023 ≤ exponent ∧ exponent ≤ 1075 ∧ significand % 2 ^ (1075 - exponent) = 0 then
    some (trim ⟨significand / 2 ^ (1075 - exponent), 0⟩)
  else none

/-- The shortest decimal of any other value. -/
def ofInterval (fraction exponent : Nat) : Decimal :=
  let i := Interval.ofFields fraction exponent
  i.scale.shortest i.closed

/-- The shortest decimal that reads back as the finite value, other than zero, with the given
fraction and biased exponent. -/
def shortest (fraction exponent : Nat) : Decimal :=
  (ofWholeNumber? fraction exponent).getD (ofInterval fraction exponent)

end Decimal

end FormattedOutput
