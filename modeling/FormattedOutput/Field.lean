import FormattedOutput.Directive.Basic
import FormattedOutput.Piece

/-!
# Fields

A field is what one directive writes, apart from what fills it to its width. It is a number in
parts: a front with the sign or a base marker, a body with the digits, a back with what follows,
and zeros between them that are not spelled out. A layout puts the parts in order and fills the
field.
-/

namespace FormattedOutput

/-- The direction in which the bytes of a run are written. -/
inductive Direction where
  | forward
  /-- The last byte is written first. -/
  | backward
  deriving DecidableEq, Repr

/-- A run of bytes as they are stored, and the direction in which they are written. Digits are
stored with the last one first and written backward. -/
structure ByteRun where
  stored : Bytes := []
  direction : Direction := .forward
  deriving DecidableEq, Repr

namespace ByteRun

/-- The bytes in the order in which they are written. -/
def bytes (r : ByteRun) : Bytes :=
  match r.direction with
  | .forward => r.stored
  | .backward => r.stored.reverse

/-- The number of bytes. -/
def length (r : ByteRun) : Nat := r.stored.length

/-- There is nothing to write. -/
def isEmpty (r : ByteRun) : Bool := r.stored.isEmpty

/-- The run as a piece of output. -/
def piece (r : ByteRun) : Piece := .text r.bytes

@[simp] theorem length_bytes (r : ByteRun) : r.bytes.length = r.length := by
  obtain ⟨stored, direction⟩ := r
  cases direction <;> simp [bytes, length]

theorem isEmpty_iff (r : ByteRun) : r.isEmpty = true ↔ r.bytes = [] := by
  obtain ⟨stored, direction⟩ := r
  cases direction <;> simp [bytes, isEmpty]

end ByteRun

/-- What one directive writes. -/
structure Field where
  /-- Written before the body: a sign, a base marker, the digit before a radix point. -/
  front : ByteRun := {}
  body : ByteRun := {}
  /-- Written after the body: an exponent, a radix point. -/
  back : ByteRun := {}
  /-- What a number filled with zeros has before these zeros. Any other field has it in front. -/
  lead : ByteRun := {}
  /-- Zeros at the body: before it if negative, after it if positive. -/
  bodyZeros : Int := 0
  /-- Zeros after the back. -/
  backZeros : Int := 0
  deriving DecidableEq, Repr

namespace Field

/-- A field of plain text. -/
def ofText (text : Bytes) : Field := { body := { stored := text } }

/-- The number of zeros before the body. -/
def leadingZeros (f : Field) : Nat := (-f.bodyZeros).toNat

/-- The number of zeros after the body. -/
def trailingZeros (f : Field) : Nat := f.bodyZeros.toNat

/-- The width of the field before it is filled. -/
def width (f : Field) : Nat :=
  f.front.length + f.leadingZeros + f.body.length + f.trailingZeros + f.back.length +
    f.backZeros.toNat + f.lead.length

/-- How many places are left to fill in a field of the given width. -/
def missing (f : Field) (width : Int) : Nat := width.toNat - f.width

/-- The field from its body on, zeros included. -/
def number (f : Field) : List Piece :=
  [.fill f.leadingZeros 48, f.body.piece, .fill f.trailingZeros 48, f.back.piece,
    .fill f.backZeros.toNat 48]

theorem total_number (f : Field) :
    Piece.total f.number + f.front.length + f.lead.length = f.width := by
  simp only [number, ByteRun.piece, Piece.total_cons, Piece.total_nil, Piece.length,
    ByteRun.length_bytes, width]
  omega

/-- The field filled to its width. Blanks stand before it, or after it if it is adjusted to the
left. Zeros stand after the lead of a floating-point number and after the front of anything
else. -/
def layout (f : Field) (d : Directive) : List Piece :=
  let missing := f.missing d.width.value
  if d.flags.leftAdjust then [f.front.piece] ++ f.number ++ [.fill missing 32]
  else if d.flags.zeroPad then
    if d.conversion.isFloat then [f.lead.piece, .fill missing 48, f.front.piece] ++ f.number
    else [f.front.piece, .fill missing 48] ++ f.number
  else [.fill missing 32, f.front.piece] ++ f.number

/-- The field filled with blanks before it, whatever the flags say. -/
def plainLayout (f : Field) (d : Directive) : List Piece :=
  [.fill (f.missing d.width.value) 32, f.lead.piece, f.front.piece] ++ f.number

end Field

end FormattedOutput
