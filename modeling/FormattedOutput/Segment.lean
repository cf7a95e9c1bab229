import FormattedOutput.Number.Integer
import FormattedOutput.Renderer

/-!
# Segments of a format text

A segment is a part of a format text together with what it needs of the arguments: a byte that is
copied, or a directive and the value that it writes. What a segment writes is up to the renderer.
-/

namespace FormattedOutput

/-- A part of a format text, with its value. -/
inductive Segment where
  /-- A byte that is copied. -/
  | literal (byte : UInt8)
  | integer (directive : Directive) (value : Int)
  /-- A floating-point number, by its bit pattern. -/
  | double (directive : Directive) (bits : UInt64)
  /-- One character, or a text that is already cut. -/
  | text (directive : Directive) (bytes : Bytes)
  /-- A number that is not converted. -/
  | unavailable (directive : Directive)
  deriving DecidableEq, Repr

namespace Segment

/-- What a segment writes. -/
def pieces (r : Renderer) : Segment → List Piece
  | .literal byte => [.text [byte]]
  | .integer d value => r.layout (d.integerField value) d
  | .double d bits => r.double bits d
  | .text d bytes => r.layout (.ofText bytes) d
  | .unavailable d => r.layout Renderer.placeholder d

end Segment

end FormattedOutput
