import FormattedOutput.Directive.Basic
import FormattedOutput.Fault

/-!
# Symbols of a directive

Every byte of a directive is one symbol: a flag, a digit, a letter of a length, a conversion, and
so on. What a symbol means in its place is the parser's business.
-/

namespace FormattedOutput

/-- A flag letter. -/
inductive Flag where
  | alternate
  | leftAdjust
  | spaceSign
  | plusSign
  /-- `'`: grouping of thousands, which is accepted and has no effect. -/
  | grouping
  deriving DecidableEq, Repr

namespace Flags

/-- Sets a flag. -/
def set (f : Flags) : Flag → Flags
  | .alternate => { f with alternate := true }
  | .leftAdjust => { f with leftAdjust := true }
  | .spaceSign => { f with spaceSign := true }
  | .plusSign => { f with plusSign := true }
  | .grouping => f

end Flags

/-- A letter of a length. -/
inductive LengthLetter where
  | h
  | l
  | L
  | j
  | z
  | t
  | w
  deriving DecidableEq, Repr

namespace Length

/-- The length with one more letter, if there is such a length. -/
def extend? : Length → LengthLetter → Option Length
  | .plain, .h => some .half
  | .half, .h => some .halfHalf
  | .plain, .l => some .long
  | .long, .l => some .longLong
  | .plain, .L => some .longDouble
  | .plain, .j => some .intMax
  | .plain, .z => some .size
  | .plain, .t => some .pointerDifference
  | .plain, .w => some (.exact 0)
  | _, _ => none

end Length

/-- What one byte of a directive is. -/
inductive Symbol where
  | flag (flag : Flag)
  | digit (value : Nat)
  | point
  | star
  | letter (letter : LengthLetter)
  | conversion (conversion : Conversion) (uppercase : Bool)
  /-- The zero byte, which ends the format text. -/
  | terminator
  /-- A byte that no directive can have. -/
  | refused (fault : Fault)
  deriving DecidableEq, Repr

namespace Symbol

/-- The symbol of a character. -/
def ofChar : Char → Symbol
  | '\x00' => .terminator
  | '#' => .flag .alternate
  | '-' => .flag .leftAdjust
  | ' ' => .flag .spaceSign
  | '+' => .flag .plusSign
  | '\x27' => .flag .grouping
  | '0' => .digit 0
  | '1' => .digit 1
  | '2' => .digit 2
  | '3' => .digit 3
  | '4' => .digit 4
  | '5' => .digit 5
  | '6' => .digit 6
  | '7' => .digit 7
  | '8' => .digit 8
  | '9' => .digit 9
  | '.' => .point
  | '*' => .star
  | '$' => .refused .positionalArguments
  | 'h' => .letter .h
  | 'l' => .letter .l
  | 'L' => .letter .L
  | 'j' => .letter .j
  | 'z' => .letter .z
  | 't' => .letter .t
  | 'w' => .letter .w
  | 'd' => .conversion .signed false
  | 'i' => .conversion .signed false
  | 'u' => .conversion (.unsigned .decimal) false
  | 'o' => .conversion (.unsigned .octal) false
  | 'x' => .conversion (.unsigned .hex) false
  | 'X' => .conversion (.unsigned .hex) true
  | 'b' => .conversion (.unsigned .binary) false
  | 'B' => .conversion (.unsigned .binary) true
  | 'p' => .conversion .pointer false
  | 'f' => .conversion (.float .fixed) false
  | 'F' => .conversion (.float .fixed) true
  | 'e' => .conversion (.float .exponent) false
  | 'E' => .conversion (.float .exponent) true
  | 'g' => .conversion (.float .general) false
  | 'G' => .conversion (.float .general) true
  | 'a' => .conversion (.float .hex) false
  | 'A' => .conversion (.float .hex) true
  | 'c' => .conversion .char false
  | 's' => .conversion .string false
  | 'n' => .refused .countStore
  | 'm' => .refused .systemMessage
  | _ => .refused .unknownConversion

/-- The symbol of a byte. -/
def ofByte (byte : UInt8) : Symbol :=
  ofChar (Char.ofNat byte.toNat)

end Symbol

end FormattedOutput
