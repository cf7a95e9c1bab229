import FormattedOutput.Arg
import FormattedOutput.Field
import FormattedOutput.Number.Digits

/-!
# Integers

An integer argument is 64 bits, of which a directive reads as many as its length says. A signed
conversion reads them as two's complement. The digits get a sign or a base marker in front, and
zeros up to the precision.
-/

namespace FormattedOutput

namespace Length

/-- How many bits of an integer argument a directive of this length reads. Fast types of more than
8 bits fill a register. -/
def argumentBits : Length → Except Fault Nat
  | .plain => .ok 32
  | .halfHalf => .ok 8
  | .half => .ok 16
  | .exact bits =>
    if bits = 8 ∨ bits = 16 ∨ bits = 32 ∨ bits = 64 then .ok bits else .error .noSuchWidth
  | .fast bits =>
    if bits = 8 then .ok 8
    else if bits = 16 ∨ bits = 32 ∨ bits = 64 then .ok 64
    else .error .noSuchFastWidth
  | _ => .ok 64

end Length

namespace Directive

/-- The value of the low bits of a word: signed in two's complement for a signed conversion. -/
def readBits (d : Directive) (bits : Nat) (word : UInt64) : Int :=
  if d.isSigned then Int.bmod word.toNat (2 ^ bits) else (word.toNat % 2 ^ bits : Nat)

/-- The marker of a base, which an alternate hexadecimal or binary number has in front. -/
def baseMarker (d : Directive) : Bytes :=
  match d.conversion.radix with
  | .hex => if d.uppercase then latin ['0', 'X'] else latin ['0', 'x']
  | .binary => if d.uppercase then latin ['0', 'B'] else latin ['0', 'b']
  | _ => []

/-- What stands before the digits of an integer. -/
def integerFront (d : Directive) (value : Int) : Bytes :=
  if d.isSigned then d.signText (value < 0)
  else if d.flags.alternate && value ≠ 0 then d.baseMarker
  else []

/-- The least number of digits of an integer that has `count` digits of its own. An alternate octal
number has enough of them to start with a zero. -/
def leastDigits (d : Directive) (value : Int) (count : Nat) : Option Int :=
  let precision := d.precision.effective
  if d.conversion.radix = .octal && d.flags.alternate then
    if value ≠ 0 && precision.getD 0 ≤ count then some (count + 1)
    else if value = 0 && precision = some 0 then some 1
    else precision
  else precision

/-- An integer as a field. Zero with the precision 0 has no digits. -/
def integerField (d : Directive) (value : Int) : Field :=
  let digits := Digits.reversed d.conversion.radix d.uppercase value.natAbs
  let least := d.leastDigits value digits.length
  { front := { stored := d.integerFront value }
    body := { stored := if value = 0 ∧ least = some 0 then [] else digits, direction := .backward }
    bodyZeros := -((least.getD 0 - digits.length).toNat : Int) }

end Directive

end FormattedOutput
