import FormattedOutput.Format
import FormattedOutput.Sink.Basic

/-!
# Writing to a sink, step by step

A sink takes single bytes, one byte many times, runs of bytes, fields, floating-point numbers and
format texts. What a step writes does not depend on the sink. A step that fails leaves the sink as
it is after what was written, and the next step goes on from there.
-/

namespace FormattedOutput

/-- Formats a text into a sink. The result is the count of the sink, or the error. -/
def Sink.format {σ : Type} [Sink σ] (sink : σ) (r : Renderer) (text : Bytes) (args : List Arg) :
    σ × Except Error Nat :=
  let formatted := FormattedOutput.format r text args
  let sink := Sink.writeAll sink formatted.pieces
  match formatted.failure with
  | none => (sink, .ok (Sink.count sink))
  | some error => (sink, .error error)

/-- One thing that is written to a sink. -/
inductive WriteStep where
  | byte (byte : UInt8)
  | fill (count : Nat) (byte : UInt8)
  | format (renderer : Renderer) (text : Bytes) (args : List Arg)
  | double (renderer : Renderer) (bits : UInt64) (directive : Directive)
  | field (renderer : Renderer) (field : Field) (directive : Directive)
  | run (run : ByteRun)
  deriving DecidableEq, Repr

/-- What a step gives back: the result of a format text, and the count of the sink. -/
structure WriteAnswer where
  result : Option (Except Error Nat) := none
  count : Nat

namespace WriteStep

/-- The pieces that a step writes. -/
def pieces : WriteStep → List Piece
  | .byte b => [.text [b]]
  | .fill count b => [.fill count b]
  | .format renderer text args => (FormattedOutput.format renderer text args).pieces
  | .double renderer bits directive => renderer.double bits directive
  | .field renderer f directive => renderer.layout f directive
  | .run r => [r.piece]

/-- Runs a step. -/
def perform {σ : Type} [Sink σ] (step : WriteStep) (sink : σ) : σ × WriteAnswer :=
  match step with
  | .format renderer text args =>
    let (sink, result) := Sink.format sink renderer text args
    (sink, { result := some result, count := Sink.count sink })
  | step =>
    let sink := Sink.writeAll sink step.pieces
    (sink, { count := Sink.count sink })

/-- Runs steps on one sink. -/
def performAll {σ : Type} [Sink σ] (sink : σ) : List WriteStep → σ × List WriteAnswer
  | [] => (sink, [])
  | step :: steps =>
    let (sink, answer) := step.perform sink
    let (sink, answers) := performAll sink steps
    (sink, answer :: answers)

end WriteStep

end FormattedOutput
