import FormattedOutput.Field
import FormattedOutput.Number.FloatParts

/-!
# Floating-point fields

A floating-point number becomes a field with its sign in front. If the field is filled with zeros,
the sign and the base marker move to its lead, so that the zeros come after them. Infinities and
NaNs are words, and zeros never fill them.
-/

namespace FormattedOutput

/-- No precision of a floating-point number is larger than this. -/
def floatPrecisionLimit : Int := 4096

/-- The precision of a floating-point number without one of its own. -/
def usualFloatPrecision : Int := 6

namespace Directive

/-- The layout that a directive asks for. -/
def floatStyle (d : Directive) : FloatStyle :=
  match d.conversion with
  | .float style => style
  | _ => .fixed

/-- The precision of a floating-point number, if the directive has one. -/
def floatPrecision? (d : Directive) : Option Int :=
  d.precision.effective.map fun precision => min precision floatPrecisionLimit

/-- The directive as it applies to a value: zeros do not fill an infinity or a NaN. -/
def forValue (d : Directive) (x : Binary64) : Directive :=
  if x.exponent = 2047 then { d with flags := { d.flags with zeroPad := false } } else d

/-- The word for an infinity or a NaN. -/
def floatWord (d : Directive) (x : Binary64) : Bytes :=
  match x.classify, d.uppercase with
  | .nan, false => latin ['n', 'a', 'n']
  | .nan, true => latin ['N', 'A', 'N']
  | _, false => latin ['i', 'n', 'f']
  | _, true => latin ['I', 'N', 'F']

/-- The parts of a finite value. -/
def floatParts (d : Directive) (x : Binary64) : FloatParts :=
  let decimal := x.shortest?.getD .zero
  let precision := d.floatPrecision?.getD usualFloatPrecision
  match d.floatStyle with
  | .fixed => .fixed decimal precision d.flags.alternate
  | .exponent => .scientific decimal precision d.flags.alternate d.uppercase
  | .general => .general decimal precision d.flags.alternate d.uppercase
  | .hex => .hex x d.floatPrecision? d.flags.alternate d.uppercase

/-- How many bytes of the front of a number belong to its base marker. -/
def markerLength (d : Directive) : Nat :=
  if d.floatStyle = .hex then 2 else 0

/-- A floating-point number as a field. -/
def floatField (d : Directive) (x : Binary64) : Field :=
  let sign := d.signText x.negative
  if x.exponent = 2047 then
    { front := { stored := sign }, body := { stored := d.floatWord x } }
  else
    let text := d.floatParts x
    let parts : Field :=
      { body := { stored := text.digits, direction := .backward }
        back := { stored := text.back }
        bodyZeros := text.bodyZeros
        backZeros := text.backZeros }
    if d.flags.zeroPad then
      { parts with
        lead := { stored := sign ++ text.front.take d.markerLength }
        front := { stored := text.front.drop d.markerLength } }
    else { parts with front := { stored := sign ++ text.front } }

end Directive

end FormattedOutput
