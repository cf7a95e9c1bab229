import FormattedOutput.Number.Float

/-!
# Renderers

A renderer decides how fields are laid out and how floating-point numbers are written. The full
one does both. The reduced one does without floating-point numbers and fills every field with
blanks before it.
-/

namespace FormattedOutput

/-- The two ways to render. -/
inductive Renderer where
  | full
  /-- Floating-point numbers are left out, and blanks are the only filling. -/
  | reduced
  deriving DecidableEq, Repr

namespace Renderer

/-- What stands in place of a number that is not converted. -/
def placeholder : Field :=
  .ofText (latin ['(', 'n', '/', 'a', ')'])

/-- The pieces of a field, filled to the width of its directive. -/
def layout (r : Renderer) (f : Field) (d : Directive) : List Piece :=
  match r with
  | .full => f.layout d
  | .reduced => f.plainLayout d

/-- The pieces of a floating-point number, given by its bit pattern. -/
def double (r : Renderer) (bits : UInt64) (d : Directive) : List Piece :=
  match r with
  | .full =>
    let x := Binary64.ofBits bits
    let d := d.forValue x
    (d.floatField x).layout d
  | .reduced => placeholder.plainLayout d

end Renderer

end FormattedOutput
