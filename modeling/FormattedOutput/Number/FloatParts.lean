import FormattedOutput.Binary64
import FormattedOutput.Number.Digits

/-!
# Layouts of a floating-point number

The decimal layouts start from the shortest decimal and round it, so every place after its digits
is a zero. These zeros are counted and not spelled out. The hexadecimal layout starts from the
significand.
-/

namespace FormattedOutput

/-- The parts of a floating-point number without its sign. -/
structure FloatParts where
  /-- What stands before the digits: `0.`, `0x1.`, or the digit before a radix point. -/
  front : Bytes := []
  /-- The digits, the last one first, with the radix point if it falls among them. -/
  digits : Bytes := []
  /-- What stands after the digits: a radix point or an exponent. -/
  back : Bytes := []
  /-- Zeros before the digits if negative, after them if positive. -/
  bodyZeros : Int := 0
  /-- Zeros at the very end. -/
  backZeros : Int := 0
  deriving DecidableEq, Repr

namespace FloatParts

/-- The radix point, if a fraction follows or the flags ask for it. -/
def point (fraction : Int) (alternate : Bool) : Bytes :=
  if 0 < fraction || alternate then [46] else []

/-- An exponent: its letter, its sign and at least `least` digits. -/
def exponentText (letter : UInt8) (exponent : Int) (least : Nat) : Bytes :=
  let digits := Digits.decimal exponent.natAbs
  [letter, if exponent < 0 then 45 else 43] ++ List.replicate (least - digits.length) 48 ++
    digits.reverse

/-! ## Decimal layouts -/

/-- A decimal rounded to `precision` places after the radix point. -/
def roundPlaces (d : Decimal) (precision : Int) : Decimal :=
  let rounded := d.keepDigits (d.digits + d.exponent + precision)
  if rounded.mantissa = 0 then .zero else rounded

/-- `precision` digits after a fixed radix point. A whole number has the point at its end, a pure
fraction at its start, and any other number between its digits. -/
def fixed (d : Decimal) (precision : Int) (alternate : Bool) : FloatParts :=
  let rounded := roundPlaces d precision
  let digits := Digits.decimal rounded.mantissa
  if 0 ≤ rounded.exponent then
    { digits
      bodyZeros := rounded.exponent
      back := point precision alternate
      backZeros := precision }
  else if rounded.digits + rounded.exponent ≤ 0 then
    { front := latin ['0', '.']
      bodyZeros := rounded.digits + rounded.exponent
      digits
      backZeros := precision + rounded.exponent }
  else
    let fraction := (-rounded.exponent).toNat
    { digits := digits.take fraction ++ 46 :: digits.drop fraction
      backZeros := precision + rounded.exponent }

/-- One digit, `precision` digits after the radix point, and the exponent. -/
def scientific (d : Decimal) (precision : Int) (alternate uppercase : Bool) : FloatParts :=
  let rounded := d.keepDigits (precision + 1)
  let digits := Digits.decimal rounded.mantissa
  { front := digits.getLast?.toList ++ point precision alternate
    digits := digits.dropLast
    bodyZeros := precision - (rounded.digits - 1)
    back := exponentText (if uppercase then 69 else 101) rounded.leadingExponent 2 }

/-- At least one and at most `precision` digits, in whichever decimal layout suits the exponent of
the rounded value. Zeros at the end of a fraction are left out, unless the flags keep them. -/
def general (d : Decimal) (precision : Int) (alternate uppercase : Bool) : FloatParts :=
  let places := max precision 1
  let rounded := d.keepDigits places
  let exponent := rounded.leadingExponent
  let kept := if alternate then rounded else rounded.trim
  if exponent < places ∧ -4 ≤ exponent then
    let fraction :=
      if alternate then places - 1 - exponent
      else if kept.mantissa = 0 then 0
      else max (-kept.exponent) 0
    fixed kept fraction alternate
  else
    let fraction := if alternate then places - 1 else kept.digits - 1
    scientific kept fraction alternate uppercase

/-! ## The hexadecimal layout -/

/-- The number of hexadecimal digits of a fraction of 52 bits. -/
def hexPlaces : Int := 13

/-- A significand with some hexadecimal digits after its radix point, and a binary exponent. -/
structure HexNumber where
  significand : Nat
  places : Int
  exponent : Int
  deriving DecidableEq, Repr

/-- Rounds a significand to fewer hexadecimal places. If it reaches 2, it is halved. -/
def HexNumber.ofRounded (significand : Nat) (exponent places : Int) : HexNumber :=
  let rounded := Decimal.divideToEven significand (2 ^ (4 * (hexPlaces - places)).toNat)
  if 2 ≤ rounded >>> (4 * places).toNat then ⟨rounded >>> 1, places, exponent + 1⟩
  else ⟨rounded, places, exponent⟩

/-- The significand and exponent that are written for a value. A zero has no places. -/
def HexNumber.ofValue (x : Binary64) (precision : Option Int) : HexNumber :=
  if x.classify = .zero then ⟨0, 0, 0⟩
  else
    let (significand, exponent) := x.normalized
    match precision with
    | some places =>
      if places < hexPlaces then .ofRounded significand exponent places
      else ⟨significand, hexPlaces, exponent⟩
    | none => ⟨significand, hexPlaces, exponent⟩

/-- A base marker, one digit, a fraction of hexadecimal digits, and the binary exponent. -/
def hex (x : Binary64) (precision : Option Int) (alternate uppercase : Bool) : FloatParts :=
  let number := HexNumber.ofValue x precision
  let bits := (4 * number.places).toNat
  let whole := Digits.reversed .hex uppercase (number.significand >>> bits)
  let requested := precision.getD number.places
  { front := latin ['0', if uppercase then 'X' else 'x'] ++ whole.getLast?.toList ++
      point requested alternate
    digits := whole.dropLast ++
      Digits.lastHex uppercase number.places.toNat (number.significand % 2 ^ bits)
    bodyZeros := requested - number.places
    back := exponentText (if uppercase then 80 else 112) number.exponent 1 }

end FloatParts

end FormattedOutput
