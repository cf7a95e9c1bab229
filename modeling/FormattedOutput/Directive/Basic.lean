/-!
# Directives

A directive is `%`, flags, a width, a precision, a length and a conversion. The modifiers are all
of it but the conversion: they are what is known while the directive is still being read.
-/

namespace FormattedOutput

/-- The display flags of a directive. -/
structure Flags where
  /-- `#`: the other form, with a base marker, a radix point or a leading octal zero. -/
  alternate : Bool := false
  /-- `0`: the field is filled with zeros. -/
  zeroPad : Bool := false
  /-- `-`: the field is filled on the right. -/
  leftAdjust : Bool := false
  /-- A blank: where a `+` would stand, a blank stands. -/
  spaceSign : Bool := false
  /-- `+`: signed conversions always show a sign. -/
  plusSign : Bool := false
  deriving DecidableEq, Repr

/-- A number that a directive may carry: its width or its precision. -/
structure Extent where
  /-- The number is in effect. -/
  given : Bool := false
  /-- The number came from an argument, through a `*`. -/
  fromArgument : Bool := false
  value : Int := 0
  deriving DecidableEq, Repr

namespace Extent

/-- The number is in effect and stands in the directive itself. -/
def inline (e : Extent) : Bool :=
  e.given && !e.fromArgument

/-- The number, if it is in effect. -/
def effective (e : Extent) : Option Int :=
  if e.given then some e.value else none

end Extent

/-- The length of the argument that a directive reads. -/
inductive Length where
  | plain
  /-- `h` -/
  | half
  /-- `hh` -/
  | halfHalf
  /-- `l` -/
  | long
  /-- `ll` -/
  | longLong
  /-- `L` -/
  | longDouble
  /-- `j` -/
  | intMax
  /-- `z` -/
  | size
  /-- `t` -/
  | pointerDifference
  /-- `w` and a number of bits -/
  | exact (bits : Nat)
  /-- `wf` and a number of bits -/
  | fast (bits : Nat)
  deriving DecidableEq, Repr

namespace Length

/-- The number of bits that a `w` or `wf` length carries. -/
def bits? : Length → Option Nat
  | .exact bits => some bits
  | .fast bits => some bits
  | _ => none

/-- The number of bits spelled out in the directive, 0 if none is. -/
def bits (l : Length) : Nat :=
  l.bits?.getD 0

/-- A `w` or `wf` length with another number of bits. -/
def withBits : Length → Nat → Length
  | .exact _, bits => .exact bits
  | .fast _, bits => .fast bits
  | l, _ => l

end Length

/-- The radix of a numeral. -/
inductive Radix where
  | binary
  | octal
  | decimal
  | hex
  deriving DecidableEq, Repr

/-- The base that a radix counts in. -/
def Radix.base : Radix → Nat
  | .binary => 2
  | .octal => 8
  | .decimal => 10
  | .hex => 16

theorem Radix.two_le_base (radix : Radix) : 2 ≤ radix.base := by
  cases radix <;> decide

/-- The four layouts of a floating-point number. -/
inductive FloatStyle where
  /-- `f`: digits around a fixed radix point. -/
  | fixed
  /-- `e`: one digit, a fraction and an exponent. -/
  | exponent
  /-- `g`: whichever of the two suits the value. -/
  | general
  /-- `a`: hexadecimal digits and a binary exponent. -/
  | hex
  deriving DecidableEq, Repr

/-- What a directive does with its argument. -/
inductive Conversion where
  /-- `d` and `i` -/
  | signed
  /-- `u`, `o`, `x` and `b` -/
  | unsigned (radix : Radix)
  /-- `p` -/
  | pointer
  /-- `f`, `e`, `g` and `a` -/
  | float (style : FloatStyle)
  /-- `c` -/
  | char
  /-- `s` -/
  | string
  deriving DecidableEq, Repr

namespace Conversion

/-- The radix that the digits are written in. -/
def radix : Conversion → Radix
  | .unsigned radix => radix
  | .pointer | .float .hex => .hex
  | _ => .decimal

/-- The conversion reads a floating-point number. -/
def isFloat : Conversion → Bool
  | .float _ => true
  | _ => false

/-- The conversion writes an integer. -/
def isInteger : Conversion → Bool
  | .signed | .unsigned _ | .pointer => true
  | _ => false

/-- The conversion reads one character or a text. -/
def isText : Conversion → Bool
  | .char | .string => true
  | _ => false

end Conversion

/-- Everything that a directive says before its conversion. -/
structure Modifiers where
  flags : Flags := {}
  width : Extent := {}
  precision : Extent := {}
  length : Length := .plain
  deriving DecidableEq, Repr

/-- A whole directive. -/
structure Directive extends Modifiers where
  conversion : Conversion
  /-- The conversion was asked for with a capital letter. -/
  uppercase : Bool := false
  deriving DecidableEq, Repr

namespace Directive

/-- A signed conversion. -/
def isSigned (d : Directive) : Bool :=
  d.conversion = .signed

/-- The sign that stands before a value: `-`, or what the flags ask for. -/
def sign? (d : Directive) (negative : Bool) : Option UInt8 :=
  if negative then some 45
  else if d.flags.plusSign then some 43
  else if d.flags.spaceSign then some 32
  else none

/-- The sign as a text of at most one byte. -/
def signText (d : Directive) (negative : Bool) : List UInt8 :=
  (d.sign? negative).toList

end Directive

end FormattedOutput
