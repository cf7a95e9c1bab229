import FormattedOutput.Number.Float
import FormattedOutput.Number.Integer
import FormattedOutput.Proofs.Number.IntegerText

/-!
# The opening of a number

A number opens with a sign or with a base marker, and a hexadecimal floating-point number opens with
both. The value, the flags and the conversion say which it is. Zeros that fill a field stand behind
the opening.
-/

namespace FormattedOutput

/-! ## The sign -/

/-- The sign of a number: `-` for a negative one, or what the flags ask for. -/
def Flags.sign (flags : Flags) (negative : Bool) : Bytes :=
  latin (if negative then ['-'] else if flags.plusSign then ['+']
    else if flags.spaceSign then [' '] else [])

namespace Directive

variable {d : Directive}

theorem signText_eq (d : Directive) (negative : Bool) :
    d.signText negative = d.flags.sign negative := by
  unfold signText sign? Flags.sign
  split_ifs <;> rfl

/-! ## Integers -/

/-- The radix of the digits of an integer. -/
def integerRadix (d : Directive) : Radix :=
  match d.conversion with
  | .unsigned radix => radix
  | .pointer => .hex
  | _ => .decimal

theorem radix_eq (hfloat : d.conversion.isFloat = false) : d.conversion.radix = d.integerRadix := by
  unfold integerRadix
  cases hconversion : d.conversion with
  | float style => simp [hconversion, Conversion.isFloat] at hfloat
  | _ => rfl

/-- What stands before the digits of a value: a sign, or the base marker of a number that is not
zero. -/
def integerOpening (d : Directive) (value : Int) : Bytes :=
  if d.conversion = .signed then d.flags.sign (value < 0)
  else if (d.flags.alternate = true ∨ d.conversion = .pointer) ∧ value ≠ 0 then
    Numeral.markerOf d.integerRadix d.uppercase
  else []

theorem baseMarker_eq (d : Directive) :
    d.baseMarker = Numeral.markerOf d.conversion.radix d.uppercase := by
  unfold baseMarker
  cases d.conversion.radix <;> cases d.uppercase <;> rfl

/-- A pointer has its marker because it is written in the other form. -/
theorem integerFront_eq (hfloat : d.conversion.isFloat = false)
    (hpointer : d.conversion = .pointer → d.flags.alternate = true) (value : Int) :
    d.integerFront value = d.integerOpening value := by
  have halternate : (d.flags.alternate = true ∨ d.conversion = .pointer) ↔
      d.flags.alternate = true := or_iff_left_of_imp hpointer
  unfold integerFront integerOpening isSigned
  simp only [decide_eq_true_eq, Bool.and_eq_true, signText_eq, halternate, baseMarker_eq,
    radix_eq hfloat]

/-! ## Floating-point numbers -/

/-- What stands before the zeros that fill a floating-point number: its sign, and the base marker of
a hexadecimal one. Words are not filled. -/
def floatOpening (d : Directive) (x : Binary64) : Bytes :=
  if x.exponent = 2047 then []
  else d.flags.sign x.negative ++
    if d.conversion = .float .hex then Numeral.markerOf .hex d.uppercase else []

/-- Only the hexadecimal layout has a base marker, and it begins with that. -/
theorem take_front_floatParts (d : Directive) (x : Binary64)
    (hfloat : d.conversion.isFloat = true) : (d.floatParts x).front.take d.markerLength =
      if d.conversion = .float .hex then Numeral.markerOf .hex d.uppercase else [] := by
  unfold floatParts markerLength floatStyle
  cases hconversion : d.conversion with
  | float style =>
    cases style with
    | hex => cases d.uppercase <;> rfl
    | _ => rfl
  | _ => simp [hconversion, Conversion.isFloat] at hfloat

end Directive

end FormattedOutput
