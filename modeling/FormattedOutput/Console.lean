import FormattedOutput.Lock.Ticket
import FormattedOutput.Sink.Steps

/-!
# The console

A console is a device behind a lock. Every call takes the lock, does its work and gives the lock
back, whether the work succeeds or fails. A guard keeps the lock over several writes.
-/

namespace FormattedOutput

/-- A device behind a lock. -/
structure Console where
  writer : TicketLock Device
  deriving DecidableEq, Repr

namespace Console

/-- A console that nobody holds. -/
def ofDevice (device : Device) : Console := ⟨.free device⟩

/-- The device of a console. -/
def device (c : Console) : Device := c.writer.value

/-- The console in words. -/
def debugText (c : Console) : String :=
  "Console \x7b writer: " ++ c.writer.debugText ++ " \x7d"

/-- Works on the device while the lock is held. The work sees the console as it is held. It is
`none` if the lock never comes. -/
def hold {α : Type} (c : Console) (work : Console → Device × α) : Option (Console × α) :=
  match c.writer.acquire with
  | none => none
  | some lock =>
    let (device, result) := work ⟨lock⟩
    some (⟨TicketLock.release { lock with value := device }⟩, result)

/-- Formats a text. The result is the number of bytes written, or the error. -/
def format (c : Console) (text : Bytes) (args : List Arg) : Option (Console × Except Error Nat) :=
  c.hold fun held =>
    let (stream, result) := Sink.format (Stream.mk held.device 0) .full text args
    (stream.device, result)

/-- Writes a text up to its first zero byte, and a line feed. The result is the number of bytes
written. -/
def writeLine (c : Console) (text : Bytes) : Option (Console × Nat) :=
  c.hold fun held =>
    let line := text.takeWhile (· != 0) ++ [10]
    (held.device.receive line, line.length)

/-- Writes one byte and gives it back. -/
def writeByte (c : Console) (byte : UInt8) : Option (Console × UInt8) :=
  c.hold fun held => (held.device.receive [byte], byte)

/-- Asks the device for a byte once. -/
def poll (c : Console) : Option (Console × Option UInt8) :=
  c.hold fun held => (held.device.poll.2, held.device.poll.1)

/-- Asks the device for a byte at most `limit` times. The result is the byte and the number of
polls. -/
def pollTimes (c : Console) : Nat → Option (Console × UInt8 × Nat)
  | 0 => none
  | limit + 1 =>
    match c.poll with
    | none => none
    | some (c, some byte) => some (c, byte, 1)
    | some (c, none) => (c.pollTimes limit).map fun (c, byte, polls) => (c, byte, polls + 1)

/-- Waits for a byte. The lock is taken anew for every poll. A script delivers a byte at its end at
the latest. -/
def readByte (c : Console) : Option (Console × UInt8 × Nat) :=
  c.pollTimes (c.device.script.length + 1)

/-- Keeps the lock over several writes to one stream. The result is the console in words, as it is
held, and what the writes gave back. -/
def guarded (c : Console) (steps : List WriteStep) :
    Option (Console × String × List WriteAnswer) :=
  c.hold fun held =>
    let (stream, answers) := WriteStep.performAll (Stream.mk held.device 0) steps
    (stream.device, held.debugText, answers)

end Console

/-! ## Sessions -/

/-- One call to a console. -/
inductive ConsoleStep where
  | format (text : Bytes) (args : List Arg)
  | writeLine (text : Bytes)
  | writeByte (byte : UInt8)
  | readByte
  | guarded (steps : List WriteStep)
  deriving DecidableEq, Repr

/-- What a call gives back. -/
inductive ConsoleAnswer where
  | result (result : Except Error Nat)
  | count (count : Nat)
  | byte (byte : UInt8)
  | input (byte : UInt8) (polls : Nat)
  | guarded (words : String) (answers : List WriteAnswer)

namespace ConsoleStep

/-- Makes a call. It is `none` if the call would wait for ever. -/
def run (c : Console) : ConsoleStep → Option (Console × ConsoleAnswer)
  | .format text args => (c.format text args).map fun (c, result) => (c, .result result)
  | .writeLine text => (c.writeLine text).map fun (c, count) => (c, .count count)
  | .writeByte byte => (c.writeByte byte).map fun (c, byte) => (c, .byte byte)
  | .readByte => c.readByte.map fun (c, byte, polls) => (c, .input byte polls)
  | .guarded steps =>
    (c.guarded steps).map fun (c, words, answers) => (c, .guarded words answers)

/-- Makes calls, one after the other. Each answer comes with the bytes that the device received in
its call. -/
def runAll (c : Console) : List ConsoleStep → Option (Console × List (ConsoleAnswer × Bytes))
  | [] => some (c, [])
  | step :: steps =>
    match step.run c with
    | none => none
    | some (next, answer) =>
      let received := next.device.received.drop c.device.received.length
      (runAll next steps).map fun (last, answers) => (last, (answer, received) :: answers)

end ConsoleStep

end FormattedOutput
