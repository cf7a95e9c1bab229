import FormattedOutput.Sink.Steps

/-!
# Formatting into a buffer

Of the output the bytes that fit are kept, a zero byte ends them, and the result is the length that
the whole output has. What went wrong is reported to a log.
-/

namespace FormattedOutput

/-- What is reported to a log. -/
inductive LogEvent where
  /-- A directive was rejected. -/
  | rejected (error : Error)
  /-- The output was longer than the buffer. -/
  | truncated (needed capacity : Nat)
  deriving DecidableEq, Repr

namespace LogEvent

/-- How grave an event is. -/
def level : LogEvent → String
  | .rejected _ => "DEBUG"
  | .truncated _ _ => "TRACE"

/-- What happened. -/
def message : LogEvent → String
  | .rejected _ => "rejected directive"
  | .truncated _ _ => "bounded write truncated"

/-- The particulars of an event, by name. -/
def details : LogEvent → List (String × String)
  | .rejected error =>
    [("position", toString error.position), ("reason", error.kindMessage)]
  | .truncated needed capacity =>
    [("needed", toString needed), ("capacity", toString capacity)]

end LogEvent

/-- What became of a write into a buffer. -/
structure BoundedWrite where
  buffer : BoundedBuffer
  result : Except Error Nat
  events : List LogEvent

namespace BoundedBuffer

/-- The event of a buffer that was too small. -/
def truncation (b : BoundedBuffer) : List LogEvent :=
  if b.isTruncated then [.truncated (b.count + 1) b.capacity] else []

end BoundedBuffer

/-- Formats a text into the bytes of a buffer. Every bounded member of the family does this: the
buffer knows how long it is, so a bound of its own adds nothing. -/
def formatInto (cells : Array UInt8) (text : Bytes) (args : List Arg) : BoundedWrite :=
  let (buffer, result) := Sink.format (BoundedBuffer.mk cells 0) .full text args
  let rejection := match result with
    | .ok _ => []
    | .error error => [.rejected error]
  { buffer := buffer.terminate, result, events := rejection ++ buffer.truncation }

end FormattedOutput
