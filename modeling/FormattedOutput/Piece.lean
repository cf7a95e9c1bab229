/-!
# Pieces of output

Output is made of pieces: a run of text, or one byte that fills a number of places. The bytes of
a piece are what a device sees. The length is known without writing the bytes out.
-/

namespace FormattedOutput

/-- A byte text. -/
abbrev Bytes := List UInt8

/-- The bytes of a text of characters below 256. -/
def latin (text : List Char) : Bytes :=
  text.map fun c => UInt8.ofNat c.toNat

/-- One piece of output. -/
inductive Piece where
  /-- The bytes of a text, in order. -/
  | text (bytes : Bytes)
  /-- One byte, `count` times. -/
  | fill (count : Nat) (byte : UInt8)
  deriving DecidableEq, Repr

namespace Piece

/-- The bytes that a device sees. -/
def bytes : Piece → Bytes
  | .text bytes => bytes
  | .fill count byte => List.replicate count byte

/-- How many bytes the piece has. -/
def length : Piece → Nat
  | .text bytes => bytes.length
  | .fill count _ => count

/-- The bytes of a list of pieces, one after the other. -/
def concat (pieces : List Piece) : Bytes :=
  pieces.flatMap bytes

/-- How many bytes a list of pieces has. -/
def total (pieces : List Piece) : Nat :=
  pieces.foldl (fun sum piece => sum + piece.length) 0

@[simp] theorem length_bytes (piece : Piece) : piece.bytes.length = piece.length := by
  cases piece <;> simp [bytes, length]

@[simp] theorem concat_nil : concat [] = [] := rfl

@[simp] theorem concat_cons (piece : Piece) (pieces : List Piece) :
    concat (piece :: pieces) = piece.bytes ++ concat pieces := rfl

@[simp] theorem concat_append (left right : List Piece) :
    concat (left ++ right) = concat left ++ concat right := by
  simp [concat]

theorem foldl_length (pieces : List Piece) (start : Nat) :
    pieces.foldl (fun sum piece => sum + piece.length) start = start + (concat pieces).length := by
  induction pieces generalizing start with
  | nil => rfl
  | cons piece pieces ih => simp [ih, Nat.add_assoc]

@[simp] theorem length_concat (pieces : List Piece) : (concat pieces).length = total pieces := by
  simp [total, foldl_length]

@[simp] theorem total_nil : total [] = 0 := rfl

@[simp] theorem total_cons (piece : Piece) (pieces : List Piece) :
    total (piece :: pieces) = piece.length + total pieces := by
  simp [← length_concat]

end Piece

end FormattedOutput
