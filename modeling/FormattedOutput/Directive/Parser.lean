import FormattedOutput.Directive.Symbol
import FormattedOutput.Arg

/-!
# Reading a directive

A directive is read one symbol after the other. The modifiers read so far are the whole state. A
`*` takes an argument as soon as it is met, so when the directive is read the next argument is the
one to convert.
-/

namespace FormattedOutput

/-- The largest `int`. -/
def maxInt : Int := 2 ^ (31 : Nat) - 1

theorem maxInt_eq : maxInt = 2147483647 := rfl

/-- The number with one more digit at its end, if that is an `int`. -/
def appendDigit? (value : Int) (digit : Nat) : Option Int :=
  if value * 10 + digit ≤ maxInt then some (value * 10 + digit) else none

namespace Modifiers

/-! ## One symbol -/

/-- A digit that belongs to a `w` or `wf` length. -/
def bitDigit (m : Modifiers) (bits digit : Nat) : Except Fault Modifiers :=
  if 64 < bits * 10 + digit then .error .bitWidthTooLarge
  else .ok { m with length := m.length.withBits (bits * 10 + digit) }

/-- A `0` that starts no number. -/
def zeroFlag (m : Modifiers) : Except Fault Modifiers :=
  if m.flags.zeroPad then .error .repeatedZeroFlag
  else .ok { m with flags := { m.flags with zeroPad := true } }

/-- A digit of the precision. -/
def precisionDigit (m : Modifiers) (digit : Nat) : Except Fault Modifiers :=
  if m.precision.fromArgument then .error .precisionTwice
  else
    match appendDigit? m.precision.value digit with
    | some value => .ok { m with precision := { m.precision with value } }
    | none => .error .precisionOverflow

/-- A digit of the width. -/
def widthDigit (m : Modifiers) (digit : Nat) : Except Fault Modifiers :=
  if m.width.fromArgument || m.precision.fromArgument then .error .widthTwice
  else
    match appendDigit? m.width.value digit with
    | some value => .ok { m with width := { m.width with given := true, value } }
    | none => .error .widthOverflow

/-- A digit. After `w` it belongs to the length. Otherwise a `0` is a flag unless a number has
started in the directive itself, and every other digit belongs to the precision once there is one,
and to the width before that. -/
def digit (m : Modifiers) (digit : Nat) : Except Fault Modifiers :=
  match m.length.bits? with
  | some bits => m.bitDigit bits digit
  | none =>
    if digit = 0 && !m.precision.inline && !m.width.inline then m.zeroFlag
    else if m.precision.given then m.precisionDigit digit
    else m.widthDigit digit

/-- A point opens the precision. -/
def point (m : Modifiers) : Except Fault Modifiers :=
  if m.precision.given then .error .repeatedPrecision
  else .ok { m with precision := { m.precision with given := true } }

/-- A width from an argument. A negative width is a `-` flag and its magnitude. -/
def starWidth (m : Modifiers) (n : Int) : Except Fault Modifiers :=
  if maxInt < n.natAbs then .error .widthOverflow
  else
    .ok { m with
      flags := if n < 0 then m.flags.set .leftAdjust else m.flags
      width := { given := true, fromArgument := true, value := n.natAbs } }

/-- A precision from an argument. A negative precision is as if none was given. -/
def starPrecision (m : Modifiers) (n : Int) : Modifiers :=
  if n < 0 then { m with precision := { m.precision with given := false } }
  else { m with precision := { m.precision with fromArgument := true, value := n } }

/-- A `*` takes an argument: for the precision once there is one, for the width before that. -/
def star (m : Modifiers) (args : List Arg) : Taken Modifiers :=
  if m.width.fromArgument && m.precision.fromArgument then (.error .thirdStar, args)
  else
    match Arg.takeInt args with
    | (.ok n, rest) =>
      if m.precision.given then (.ok (m.starPrecision n), rest) else (m.starWidth n, rest)
    | (.error fault, rest) => (.error fault, rest)

/-- A conversion ends the directive. A pointer is written in the other form. Zeros do not fill an
integer that has a precision, nor a field that is filled on the right. -/
def finish (m : Modifiers) (conversion : Conversion) (uppercase : Bool) : Except Fault Directive :=
  if conversion.isText && (m.length = .long || m.length = .longDouble) then
    .error .wideCharacters
  else
    .ok { m with
      flags := { m.flags with
        alternate := m.flags.alternate || conversion = .pointer
        zeroPad := m.flags.zeroPad && !(conversion.isInteger && m.precision.given) &&
          !m.flags.leftAdjust }
      conversion
      uppercase }

/-! ## The whole directive -/

/-- Reads the rest of a directive. The result is the directive and the text after it, and in any
case the arguments that are left. -/
def parse (m : Modifiers) : Bytes → List Arg → Taken (Directive × Bytes)
  | [], args => (.error .incompleteDirective, args)
  | byte :: rest, args =>
    match Symbol.ofByte byte with
    | .terminator => (.error .incompleteDirective, args)
    | .refused fault => (.error fault, args)
    | .flag flag => parse { m with flags := m.flags.set flag } rest args
    | .digit value =>
      match m.digit value with
      | .ok m => parse m rest args
      | .error fault => (.error fault, args)
    | .point =>
      match m.point with
      | .ok m => parse m rest args
      | .error fault => (.error fault, args)
    | .star =>
      match m.star args with
      | (.ok m, args) => parse m rest args
      | (.error fault, args) => (.error fault, args)
    | .letter letter =>
      match m.length.extend? letter with
      | none => (.error .conflictingLengths, args)
      | some length =>
        match letter, rest with
        | .w, 102 :: rest => parse { m with length := .fast 0 } rest args
        | _, rest => parse { m with length } rest args
    | .conversion conversion uppercase =>
      match m.finish conversion uppercase with
      | .ok directive => (.ok (directive, rest), args)
      | .error fault => (.error fault, args)

/-- What is left of a text is shorter than the text. -/
theorem length_lt_of_parse {m : Modifiers} {text rest : Bytes} {args args' : List Arg}
    {d : Directive} (h : m.parse text args = (.ok (d, rest), args')) :
    rest.length < text.length := by
  fun_induction parse m text args <;> simp_all <;> omega

end Modifiers

/-- Reads the directive whose `%` stands at `start`. The result is the directive and the offset
after it, and in any case the arguments that are left. -/
def Directive.read (text : Bytes) (start : Nat) (args : List Arg) :
    Except Error (Directive × Nat) × List Arg :=
  match Modifiers.parse {} (text.drop (start + 1)) args with
  | (.ok (directive, rest), args) => (.ok (directive, text.length - rest.length), args)
  | (.error fault, args) => (.error (fault.error start), args)

end FormattedOutput
