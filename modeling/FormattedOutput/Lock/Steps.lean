import FormattedOutput.Lock.Ticket

/-!
# One holder of a lock, step by step

A session is a lock around a number and the note whether its one holder has it now. The number is
read and changed only while the lock is held.
-/

namespace FormattedOutput

/-- A lock and whether its one holder has it. -/
structure LockSession where
  lock : TicketLock Int64
  held : Bool := false
  deriving DecidableEq, Repr

/-- What the holder may do. -/
inductive LockStep where
  | acquire
  | tryAcquire
  | release
  | get
  | set (value : Int64)
  /-- Adds a number. The sum wraps around. -/
  | add (value : Int64)
  | debug
  deriving DecidableEq, Repr

/-- What a step gives back. -/
inductive LockAnswer where
  | flag (value : Bool)
  /-- The lock is held already, and was not asked for again. -/
  | alreadyHeld
  /-- The step would wait for ever. -/
  | waiting
  /-- The lock is not held, so its value is out of reach. -/
  | outOfReach
  | number (value : Int64)
  | words (text : String)
  deriving DecidableEq, Repr

namespace LockSession

/-- Changes the guarded number, if the lock is held. -/
def update (s : LockSession) (change : Int64 → Int64) : LockSession × LockAnswer :=
  if s.held then ({ s with lock := { s.lock with value := change s.lock.value } }, .flag true)
  else (s, .outOfReach)

/-- Runs a step. -/
def run (s : LockSession) : LockStep → LockSession × LockAnswer
  | .acquire =>
    if s.held then (s, .alreadyHeld)
    else
      match s.lock.acquire with
      | some lock => (⟨lock, true⟩, .flag true)
      | none => (s, .waiting)
  | .tryAcquire =>
    match s.lock.tryAcquire with
    | some lock => (⟨lock, true⟩, .flag true)
    | none => (s, .flag false)
  | .release => if s.held then (⟨s.lock.release, false⟩, .flag true) else (s, .flag false)
  | .get => (s, if s.held then .number s.lock.value else .outOfReach)
  | .set value => s.update fun _ => value
  | .add value => s.update (· + value)
  | .debug => (s, .words s.lock.debugText)

/-- Runs steps. Each answer comes with the note whether the lock is taken after it. -/
def runAll (s : LockSession) : List LockStep → LockSession × List (LockAnswer × Bool)
  | [] => (s, [])
  | step :: steps =>
    let (s, answer) := s.run step
    let (last, answers) := s.runAll steps
    (last, (answer, s.lock.isLocked) :: answers)

end LockSession

end FormattedOutput
