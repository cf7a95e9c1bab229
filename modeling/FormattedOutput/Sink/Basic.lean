import FormattedOutput.Piece

/-!
# Sinks

A sink takes pieces of output and counts their bytes, whether or not it keeps them. A stream passes
every byte on to a device. A bounded buffer keeps the bytes that fit and leaves a place for the
zero byte at the end.
-/

namespace FormattedOutput

/-- A place where output goes. -/
class Sink (σ : Type) where
  write : σ → Piece → σ
  /-- How many bytes were written, those that were not kept among them. -/
  count : σ → Nat

/-- Writes pieces, one after the other. -/
def Sink.writeAll {σ : Type} [Sink σ] (sink : σ) (pieces : List Piece) : σ :=
  pieces.foldl Sink.write sink

/-! ## Devices and streams -/

/-- A character device: the bytes it has received, and what it delivers at each poll, a byte or
nothing. -/
structure Device where
  received : Bytes := []
  script : List (Option UInt8) := []
  deriving DecidableEq, Repr

namespace Device

/-- The byte that a device delivers when its script is at an end. -/
def endOfTransmission : UInt8 := 4

/-- Passes bytes to the device. -/
def receive (d : Device) (bytes : Bytes) : Device :=
  { d with received := d.received ++ bytes }

@[simp] theorem receive_nil (d : Device) : d.receive [] = d := by simp [receive]

@[simp] theorem receive_receive (d : Device) (left right : Bytes) :
    (d.receive left).receive right = d.receive (left ++ right) := by simp [receive]

/-- Asks the device for a byte. -/
def poll (d : Device) : Option UInt8 × Device :=
  match d.script with
  | [] => (some endOfTransmission, d)
  | next :: script => (next, { d with script })

end Device

/-- An unbounded sink in front of a device. -/
structure Stream where
  device : Device := {}
  count : Nat := 0
  deriving DecidableEq, Repr

namespace Stream

/-- Passes a piece on to the device. -/
def write (s : Stream) (piece : Piece) : Stream :=
  ⟨s.device.receive piece.bytes, s.count + piece.length⟩

instance : Sink Stream := ⟨write, count⟩

/-- All pieces together are passed on like one. -/
theorem writeAll_eq (s : Stream) (pieces : List Piece) :
    Sink.writeAll s pieces =
      ⟨s.device.receive (Piece.concat pieces), s.count + Piece.total pieces⟩ := by
  induction pieces generalizing s with
  | nil => simp [Sink.writeAll]
  | cons piece pieces ih =>
    have h : Sink.writeAll s (piece :: pieces) = Sink.writeAll (s.write piece) pieces := rfl
    simp [h, ih, write, Nat.add_assoc]

end Stream

/-! ## Bounded buffers -/

/-- A buffer of a fixed number of bytes. -/
structure BoundedBuffer where
  cells : Array UInt8
  count : Nat := 0
  deriving DecidableEq, Repr

namespace BoundedBuffer

/-- The number of bytes of the buffer. -/
def capacity (b : BoundedBuffer) : Nat := b.cells.size

/-- How many more bytes fit, the zero byte at the end apart. -/
def room (b : BoundedBuffer) : Nat := b.capacity - 1 - b.count

/-- Writes one byte. It is kept if it fits together with the zero byte. -/
def put : BoundedBuffer → UInt8 → BoundedBuffer
  | ⟨cells, count⟩, byte =>
    ⟨if count + 1 < cells.size then cells.setIfInBounds count byte else cells, count + 1⟩

@[simp] theorem capacity_put (b : BoundedBuffer) (byte : UInt8) :
    (b.put byte).capacity = b.capacity := by
  simp only [put, capacity]
  split <;> simp

@[simp] theorem count_put (b : BoundedBuffer) (byte : UInt8) :
    (b.put byte).count = b.count + 1 := rfl

/-- A byte that finds no room leaves nothing but its count. -/
theorem put_of_room_eq_zero {b : BoundedBuffer} (h : b.room = 0) (byte : UInt8) :
    b.put byte = { b with count := b.count + 1 } := by
  have : ¬b.count + 1 < b.cells.size := by simp only [room, capacity] at h; omega
  simp [put, this]

/-- Writes one byte `n` times. -/
def putTimes (b : BoundedBuffer) (byte : UInt8) : Nat → BoundedBuffer
  | 0 => b
  | n + 1 => putTimes (b.put byte) byte n

/-- Writes one byte `n` times. Only the bytes that fit are stored one by one. -/
def fill (b : BoundedBuffer) (n : Nat) (byte : UInt8) : BoundedBuffer :=
  let stored := min n b.room
  let b := b.putTimes byte stored
  { b with count := b.count + (n - stored) }

/-- Nothing is lost by it that not every byte is stored: all are written one by one in the end. -/
theorem fill_eq_putTimes (b : BoundedBuffer) (n : Nat) (byte : UInt8) :
    b.fill n byte = b.putTimes byte n := by
  induction n generalizing b with
  | zero => simp [fill, putTimes]
  | succ n ih =>
    rw [putTimes, ← ih]
    by_cases h : b.room = 0
    · rw [put_of_room_eq_zero h]
      have h' : BoundedBuffer.room { b with count := b.count + 1 } = 0 := by
        simp only [room, capacity] at h ⊢; omega
      simp only [fill, h, h', Nat.min_zero, putTimes, Nat.sub_zero]
      congr 1
      omega
    · have h' : (b.put byte).room = b.room - 1 := by
        simp only [room, capacity_put, count_put]; omega
      have hmin : min (n + 1) b.room = min n (b.room - 1) + 1 := by omega
      simp only [fill, hmin, h', putTimes]
      congr 2
      omega

/-- Writes a piece. -/
def write (b : BoundedBuffer) : Piece → BoundedBuffer
  | .text bytes => bytes.foldl put b
  | .fill n byte => b.fill n byte

instance : Sink BoundedBuffer := ⟨write, count⟩

/-- A piece is written byte by byte. -/
theorem write_eq_foldl (b : BoundedBuffer) (piece : Piece) :
    b.write piece = piece.bytes.foldl put b := by
  cases piece with
  | text bytes => rfl
  | fill n byte =>
    simp only [write, fill_eq_putTimes, Piece.bytes]
    induction n generalizing b with
    | zero => rfl
    | succ n ih => simp [putTimes, ih, List.replicate_succ]

/-- The output did not fit. -/
def isTruncated (b : BoundedBuffer) : Bool :=
  0 < b.capacity && b.capacity ≤ b.count

/-- Puts the zero byte after the bytes that were kept. -/
def terminate (b : BoundedBuffer) : BoundedBuffer :=
  { b with cells := b.cells.setIfInBounds (min b.count (b.capacity - 1)) 0 }

end BoundedBuffer

end FormattedOutput
