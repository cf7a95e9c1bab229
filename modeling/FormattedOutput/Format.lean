import FormattedOutput.Directive.Parser
import FormattedOutput.Segment

/-!
# Formatting

A format text is read up to its first zero byte. It is a list of segments: every directive takes
its argument, and all else is copied. A rejected directive ends the reading. It makes no segment,
so nothing of it is written, and what stands before it stays.
-/

namespace FormattedOutput

/-- The most bytes that a text writes when its directive has no precision. -/
def usualTextLimit : Nat := 4095

/-! ## One directive -/

namespace Directive

/-- What a text argument writes: the part that the precision allows, or the whole word for a null
pointer. -/
def shownText (d : Directive) : Option Bytes → Bytes
  | none => latin ['(', 'n', 'u', 'l', 'l', ')']
  | some text =>
    match d.precision.effective with
    | some precision => cut text precision.toNat
    | none => cut text usualTextLimit

/-- Takes an integer, of which `bits` bits count. -/
def resolveInteger (d : Directive) (bits : Nat) (args : List Arg) : Taken Segment :=
  (Arg.takeWord args).map fun word => .integer d (d.readBits bits word)

/-- Takes a floating-point number. A `long double` is taken and not converted. -/
def resolveFloat (d : Directive) (args : List Arg) : Taken Segment :=
  if d.length = .longDouble then (Arg.takeLongDouble args).map fun _ => .unavailable d
  else (Arg.takeDouble args).map (.double d)

/-- Takes the argument of a directive. The result is the segment, and in any case the arguments
that are left. An integer of an impossible width is rejected before its argument is taken. -/
def resolve (d : Directive) (args : List Arg) : Taken Segment :=
  match d.conversion with
  | .signed | .unsigned _ =>
    match d.length.argumentBits with
    | .ok bits => d.resolveInteger bits args
    | .error fault => (.error fault, args)
  | .pointer => d.resolveInteger 64 args
  | .float _ => d.resolveFloat args
  | .char => (Arg.takeWord args).map fun word => .text d [word.toUInt8]
  | .string => (Arg.takeString args).map fun text => .text d (d.shownText text)

end Directive

/-! ## A whole text -/

/-- What a format text and its arguments come to. -/
structure Reading where
  /-- The segments before the first rejected directive. -/
  segments : List Segment
  /-- The arguments that are left. -/
  args : List Arg
  /-- Why the reading ended early, if it did. -/
  failure : Option Error
  deriving DecidableEq, Repr

namespace Reading

/-- Puts a segment before all others. -/
def after (r : Reading) (segment : Segment) : Reading :=
  { r with segments := segment :: r.segments }

/-- Reads the text that starts at `position`. Two `%` in a row are one that is copied. -/
def ofTextAt (position : Nat) (text : Bytes) (args : List Arg) : Reading :=
  match text with
  | [] => ⟨[], args, none⟩
  | 37 :: 37 :: rest => (ofTextAt (position + 2) rest args).after (.literal 37)
  | 37 :: rest =>
    match _ : Modifiers.parse {} rest args with
    | (.ok (d, next), args) =>
      match d.resolve args with
      | (.ok segment, args) =>
        (ofTextAt (position + (text.length - next.length)) next args).after segment
      | (.error fault, args) => ⟨[], args, some (fault.error position)⟩
    | (.error fault, args) => ⟨[], args, some (fault.error position)⟩
  | byte :: rest => (ofTextAt (position + 1) rest args).after (.literal byte)
termination_by text.length
decreasing_by
  · simp only [List.length_cons]
    omega
  · have := Modifiers.length_lt_of_parse ‹_›
    simp only [List.length_cons]
    omega
  · simp

/-- Reads a format text, which ends at its first zero byte. -/
def ofText (text : Bytes) (args : List Arg) : Reading :=
  ofTextAt 0 (text.takeWhile (· != 0)) args

/-- What the segments write. -/
def pieces (r : Renderer) (reading : Reading) : List Piece :=
  reading.segments.flatMap (Segment.pieces r)

end Reading

/-- What became of a format text. -/
structure Formatted where
  /-- What was written, up to the first rejected directive. -/
  pieces : List Piece
  /-- The arguments that are left. -/
  args : List Arg
  /-- Why the formatting ended early, if it did. -/
  failure : Option Error
  deriving DecidableEq, Repr

namespace Formatted

/-- What was written, as bytes. -/
def bytes (f : Formatted) : Bytes := Piece.concat f.pieces

end Formatted

/-- Formats a text: reads it and renders its segments. -/
def format (r : Renderer) (text : Bytes) (args : List Arg) : Formatted :=
  let reading := Reading.ofText text args
  ⟨reading.pieces r, reading.args, reading.failure⟩

end FormattedOutput
