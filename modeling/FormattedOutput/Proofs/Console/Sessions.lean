import FormattedOutput.Console
import FormattedOutput.Proofs.Format.Splitting

/-!
# Console sessions

A call to a console passes its own bytes to the device and nothing else. What it gives back depends
on the call and, if it waits for a byte, on what the device delivers. The lock is free after every
call, so no call waits for it.
-/

namespace FormattedOutput

/-! ## Writing to a stream -/

namespace WriteStep

/-- The bytes that a step writes. -/
def emitted (step : WriteStep) : Bytes := Piece.concat step.pieces

/-- What a step gives back on a sink that has counted so many bytes before it. -/
def answer (before : Nat) (step : WriteStep) : WriteAnswer :=
  let count := before + step.emitted.length
  match step with
  | .format r text args =>
    { result := some ((FormattedOutput.format r text args).result count), count }
  | _ => { count }

/-- What steps give back. The count runs on from one to the next. -/
def answers (before : Nat) : List WriteStep → List WriteAnswer
  | [] => []
  | step :: steps => step.answer before :: answers (before + step.emitted.length) steps

end WriteStep

namespace Stream

variable (s : Stream)

theorem perform_eq (step : WriteStep) :
    step.perform s = (s.after step.emitted, step.answer s.count) := by
  have hwritten := writeAll_eq_after s step.pieces
  cases step with
  | format r text args =>
    unfold WriteStep.perform
    simp only
    rw [format_eq_after]
    rfl
  | byte _ | fill _ _ | double _ _ _ | field _ _ _ | run _ =>
    unfold WriteStep.perform
    simp only
    rw [hwritten]
    rfl

theorem performAll_eq (steps : List WriteStep) :
    WriteStep.performAll s steps =
      (s.after (steps.flatMap WriteStep.emitted), WriteStep.answers s.count steps) := by
  induction steps generalizing s with
  | nil =>
    rw [List.flatMap_nil, after, Device.receive_nil]
    rfl
  | cons step steps ih =>
    unfold WriteStep.performAll
    simp only
    rw [perform_eq, ih, List.flatMap_cons]
    simp [after, WriteStep.answers, Nat.add_assoc]

end Stream

/-! ## One call -/

namespace ConsoleStep

/-- The bytes that a call passes to the device. -/
def emitted : ConsoleStep → Bytes
  | .format text args => (FormattedOutput.format .full text args).bytes
  | .writeLine text => text.takeWhile (· != 0) ++ [10]
  | .writeByte byte => [byte]
  | .readByte => []
  | .guarded steps => steps.flatMap WriteStep.emitted

/-- A call may give back this answer if it finds the first script and leaves the second one. Only a
call that waits for a byte takes something of the script: the polls that bring nothing, and the one
that brings the byte. At the end of the script the device has a byte of its own. -/
inductive Answers : ConsoleStep → List (Option UInt8) → ConsoleAnswer → List (Option UInt8) → Prop
  where
  | format (text : Bytes) (args : List Arg) (script : List (Option UInt8)) :
    Answers (.format text args) script
      (.result ((FormattedOutput.format .full text args).result
        (FormattedOutput.format .full text args).bytes.length)) script
  | writeLine (text : Bytes) (script : List (Option UInt8)) :
    Answers (.writeLine text) script (.count (emitted (.writeLine text)).length) script
  | writeByte (byte : UInt8) (script : List (Option UInt8)) :
    Answers (.writeByte byte) script (.byte byte) script
  | readByte (idle : Nat) (byte : UInt8) (rest : List (Option UInt8)) :
    Answers .readByte (List.replicate idle none ++ some byte :: rest) (.input byte (idle + 1)) rest
  | readEnd (idle : Nat) :
    Answers .readByte (List.replicate idle none) (.input Device.endOfTransmission (idle + 1)) []
  | guarded (steps : List WriteStep) (script : List (Option UInt8)) :
    Answers (.guarded steps) script
      (.guarded "Console \x7b writer: SpinLock \x7b locked: true, .. \x7d \x7d"
        (WriteStep.answers 0 steps)) script

/-- One more poll that brings nothing comes before the others. -/
theorem Answers.idle {script rest : List (Option UInt8)} {byte : UInt8} {polls : Nat}
    (h : Answers .readByte script (.input byte polls) rest) :
    Answers .readByte (none :: script) (.input byte (polls + 1)) rest := by
  cases h with
  | readByte idle byte rest => exact .readByte (idle + 1) byte rest
  | readEnd idle => exact .readEnd (idle + 1)

/-- A call between two consoles: it is made at once, it passes its bytes to the device, and the lock
is free after it. -/
structure Serves (c : Console) (step : ConsoleStep) (answer : ConsoleAnswer) (next : Console) :
    Prop where
  run_eq : step.run c = some (next, answer)
  received_eq : next.device.received = c.device.received ++ step.emitted
  answers : step.Answers c.device.script answer next.device.script
  free : next.writer.isLocked = false

end ConsoleStep

namespace Console

variable {c : Console}

/-- The console while a call has it. -/
def held (c : Console) : Console := ⟨c.writer.takeTicket.2⟩

/-- The console after a call that has left the device like this. -/
def released (c : Console) (device : Device) : Console :=
  ⟨TicketLock.release { c.writer.takeTicket.2 with value := device }⟩

theorem isLocked_released (h : c.writer.isLocked = false) (device : Device) :
    (c.released device).writer.isLocked = false :=
  (TicketLock.isLocked_release_takeTicket { c.writer with value := device }).trans h

/-- A free console is taken at once and given back. -/
theorem hold_eq {α : Type} (h : c.writer.isLocked = false) (work : Console → Device × α) :
    c.hold work = some (c.released (work c.held).1, (work c.held).2) := by
  unfold hold
  rw [TicketLock.acquire_of_not_isLocked h]
  rfl

theorem isLocked_held (h : c.writer.isLocked = false) : c.held.writer.isLocked = true := by
  unfold held TicketLock.takeTicket TicketLock.isLocked at *
  simp_all

theorem debugText_held (h : c.writer.isLocked = false) :
    c.held.debugText = "Console \x7b writer: SpinLock \x7b locked: true, .. \x7d \x7d" := by
  unfold debugText TicketLock.debugText
  rw [isLocked_held h]
  decide +kernel

theorem poll_eq (h : c.writer.isLocked = false) :
    c.poll = some (c.released c.device.poll.2, c.device.poll.1) :=
  hold_eq h _

/-- A device that has nothing is polled again, until it has a byte. -/
theorem pollTimes_serves (h : c.writer.isLocked = false) {limit : Nat}
    (hlimit : c.device.script.length < limit) :
    ∃ next byte polls, c.pollTimes limit = some (next, byte, polls) ∧
      next.device.received = c.device.received ∧
      ConsoleStep.Answers .readByte c.device.script (.input byte polls) next.device.script ∧
      next.writer.isLocked = false := by
  induction limit generalizing c with
  | zero => exact absurd hlimit (Nat.not_lt_zero _)
  | succ limit ih =>
    have hpoll := poll_eq h
    have hfree := isLocked_released h c.device.poll.2
    have hdevice : (c.released c.device.poll.2).device = c.device.poll.2 := rfl
    rw [pollTimes, hpoll]
    unfold Device.poll at hfree hdevice ⊢
    match hscript : c.device.script with
    | [] =>
      simp only [hscript] at hfree hdevice ⊢
      refine ⟨_, _, _, rfl, rfl, ?_, hfree⟩
      rw [hdevice, hscript]
      exact .readEnd 0
    | some byte :: rest =>
      simp only [hscript] at hfree hdevice ⊢
      exact ⟨_, _, _, rfl, rfl, .readByte 0 byte rest, hfree⟩
    | none :: rest =>
      rw [hscript, List.length_cons] at hlimit
      simp only [hscript] at hfree hdevice ⊢
      obtain ⟨next, byte, polls, hrun, hreceived, hanswer, hnext⟩ :=
        @ih (c.released { c.device with script := rest }) hfree (Nat.lt_of_succ_lt_succ hlimit)
      refine ⟨next, byte, polls + 1, ?_, hreceived, hanswer.idle, hnext⟩
      rw [hrun]
      rfl

end Console

/-! ## A whole session -/

namespace ConsoleStep

variable {c : Console} {step : ConsoleStep}

/-- A call that only writes is served while the console is held. -/
theorem serves_of_hold (h : c.writer.isLocked = false) {α : Type} {work : Console → Device × α}
    (toAnswer : α → ConsoleAnswer)
    (hrun : step.run c = (c.hold work).map fun result => (result.1, toAnswer result.2))
    (hdevice : (work c.held).1 = c.device.receive step.emitted)
    (hanswer : step.Answers c.device.script (toAnswer (work c.held).2) c.device.script) :
    step.Serves c (toAnswer (work c.held).2) (c.released (c.device.receive step.emitted)) where
  run_eq := by
    rw [hrun, Console.hold_eq h, hdevice]
    rfl
  received_eq := rfl
  answers := hanswer
  free := Console.isLocked_released h _

/-- Every call is served by a console that is free. -/
theorem exists_serves (h : c.writer.isLocked = false) (step : ConsoleStep) :
    ∃ answer next, step.Serves c answer next := by
  cases step with
  | format text args =>
    refine ⟨_, _, serves_of_hold h .result rfl ?_ ?_⟩
    · rw [Stream.format_eq_after]
      rfl
    · rw [Stream.format_eq_after]
      simp only [Nat.zero_add]
      exact .format text args _
  | writeLine text =>
    exact ⟨_, _, serves_of_hold h .count rfl rfl (.writeLine text _)⟩
  | writeByte byte =>
    exact ⟨_, _, serves_of_hold h .byte rfl rfl (.writeByte byte _)⟩
  | readByte =>
    obtain ⟨next, byte, polls, hpolls, hreceived, hanswer, hnext⟩ :=
      Console.pollTimes_serves h (Nat.lt_succ_self c.device.script.length)
    refine ⟨.input byte polls, next, ?_, ?_, hanswer, hnext⟩
    · unfold run Console.readByte
      simp only
      rw [hpolls]
      rfl
    · rw [hreceived, emitted, List.append_nil]
  | guarded steps =>
    refine ⟨_, _, serves_of_hold h
      (fun result : String × List WriteAnswer => .guarded result.1 result.2) rfl ?_ ?_⟩
    · rw [Stream.performAll_eq]
      rfl
    · rw [Stream.performAll_eq, Console.debugText_held h]
      exact .guarded steps _

/-- A session from one console to another: every call finds a console that the call before it has
left free, and its answer comes with its own bytes. -/
inductive Session : Console → List ConsoleStep → List (ConsoleAnswer × Bytes) → Console → Prop where
  | nil (c : Console) : Session c [] [] c
  | cons {c next last : Console} {step : ConsoleStep} {answer : ConsoleAnswer}
    {steps : List ConsoleStep} {answers : List (ConsoleAnswer × Bytes)}
    (hserves : step.Serves c answer next) (hrest : Session next steps answers last) :
    Session c (step :: steps) ((answer, step.emitted) :: answers) last

theorem exists_session (h : c.writer.isLocked = false) (steps : List ConsoleStep) :
    ∃ answers last, runAll c steps = some (last, answers) ∧ Session c steps answers last ∧
      last.writer.isLocked = false := by
  induction steps generalizing c with
  | nil => exact ⟨[], c, rfl, .nil c, h⟩
  | cons step steps ih =>
    obtain ⟨answer, next, hserves⟩ := exists_serves h step
    obtain ⟨answers, last, hrun, hsession, hlast⟩ := ih hserves.free
    refine ⟨_, last, ?_, .cons hserves hsession, hlast⟩
    rw [runAll, hserves.run_eq]
    simp only [hrun, hserves.received_eq, List.drop_left, Option.map_some]

theorem Session.received_eq {c last : Console} {steps : List ConsoleStep}
    {answers : List (ConsoleAnswer × Bytes)} (h : Session c steps answers last) :
    last.device.received = c.device.received ++ steps.flatMap emitted := by
  induction h with
  | nil c => rw [List.flatMap_nil, List.append_nil]
  | cons hserves _ ih =>
    rw [ih, hserves.received_eq, List.flatMap_cons, List.append_assoc]

end ConsoleStep

/-- Every session on a new console comes to its end. The device gets the bytes of its calls in their
order. Each call finds the lock free and leaves it free, whether it succeeds or fails, and gives
back what belongs to it. -/
theorem console_session (device : Device) (steps : List ConsoleStep) :
    ∃ answers last,
      ConsoleStep.runAll (.ofDevice device) steps = some (last, answers) ∧
      ConsoleStep.Session (.ofDevice device) steps answers last ∧
      last.device.received = device.received ++ steps.flatMap ConsoleStep.emitted ∧
      last.writer.isLocked = false := by
  obtain ⟨answers, last, hrun, hsession, hlast⟩ :=
    ConsoleStep.exists_session (c := .ofDevice device) rfl steps
  exact ⟨answers, last, hrun, hsession, hsession.received_eq, hlast⟩

end FormattedOutput
