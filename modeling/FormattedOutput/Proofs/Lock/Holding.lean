import FormattedOutput.Lock.Steps
import Mathlib.Tactic.SplitIfs

/-!
# What one holder sees of a lock

One holder sees nothing of the tickets. What its steps come to is told by two things alone: whether
it has the lock, and the guarded number. The tickets wrap around, and however often they do, the
lock is taken just while it is held.
-/

namespace FormattedOutput

/-! ## A lock without tickets -/

namespace LockStep

/-- Whether the lock is held after a step. -/
def holds (held : Bool) : LockStep → Bool
  | .acquire | .tryAcquire => true
  | .release => false
  | _ => held

/-- The guarded number after a step that is made while the lock is held. -/
def change (value : Int64) : LockStep → Int64
  | .set new => new
  | .add more => value + more
  | _ => value

/-- What a step gives back. -/
def answer (held : Bool) (value : Int64) : LockStep → LockAnswer
  | .acquire => if held then .alreadyHeld else .flag true
  | .tryAcquire => .flag !held
  | .release => .flag held
  | .get => if held then .number value else .outOfReach
  | .set _ | .add _ => if held then .flag true else .outOfReach
  | .debug => .words ("SpinLock \x7b locked: " ++ toString held ++ ", .. \x7d")

/-- Whether the lock is held after some steps. -/
def holdsAfter (held : Bool) (steps : List LockStep) : Bool := steps.foldl holds held

/-- The steps that are made while the lock is held, in their order. -/
def guarded (held : Bool) : List LockStep → List LockStep
  | [] => []
  | step :: steps => (if held then [step] else []) ++ guarded (step.holds held) steps

/-- What some steps give back, each with the note whether the lock is held after it. -/
def answers (held : Bool) (value : Int64) : List LockStep → List (LockAnswer × Bool)
  | [] => []
  | step :: steps =>
    (step.answer held value, step.holds held) ::
      answers (step.holds held) (if held then step.change value else value) steps

end LockStep

/-! ## The tickets -/

namespace LockSession

variable {s : LockSession} {held : Bool} {value : Int64}

/-- A session in which the lock is held, or not, and guards this number. The next ticket is the one
that is served, or the one behind it while the lock is held. -/
structure Holding (s : LockSession) (held : Bool) (value : Int64) : Prop where
  held_eq : s.held = held
  value_eq : s.lock.value = value
  next_eq : s.lock.nextTicket = s.lock.nowServing + if held then 1 else 0

theorem holding_free (value : Int64) : Holding ⟨.free value, false⟩ false value := ⟨rfl, rfl, rfl⟩

theorem Holding.isLocked_eq (h : s.Holding held value) : s.lock.isLocked = held := by
  unfold TicketLock.isLocked
  rw [h.next_eq]
  cases held <;> simp

/-- A lock that is not held is served at once, and trying for it succeeds too. -/
theorem Holding.acquire_eq (h : s.Holding false value) :
    s.lock.acquire = some s.lock.takeTicket.2 ∧ s.lock.tryAcquire = some s.lock.takeTicket.2 := by
  have hacquire := TicketLock.acquire_of_not_isLocked h.isLocked_eq
  exact ⟨hacquire, s.lock.tryAcquire_eq_acquire.trans hacquire⟩

/-- Trying for a lock that is held fails. -/
theorem Holding.tryAcquire_eq (h : s.Holding true value) : s.lock.tryAcquire = none := by
  rw [TicketLock.tryAcquire_eq_acquire]
  exact TicketLock.acquire_of_isLocked h.isLocked_eq

/-- The lock with the ticket that was free is held. -/
theorem Holding.takeTicket (h : s.Holding false value) :
    Holding ⟨s.lock.takeTicket.2, true⟩ true value := by
  refine ⟨rfl, h.value_eq, ?_⟩
  have hnext := h.next_eq
  simp only [Bool.false_eq_true, if_false, UInt32.add_zero] at hnext
  simp [TicketLock.takeTicket, hnext]

theorem Holding.release (h : s.Holding true value) :
    Holding ⟨s.lock.release, false⟩ false value := by
  refine ⟨rfl, h.value_eq, ?_⟩
  have hnext := h.next_eq
  simp only [if_true] at hnext
  simp [TicketLock.release, hnext]

/-- A change of the number leaves the tickets. -/
theorem Holding.update (h : s.Holding held value) (change : Int64 → Int64) :
    (s.update change).2 = (if held then .flag true else .outOfReach) ∧
      (s.update change).1.Holding held (if held then change value else value) := by
  obtain ⟨rfl, rfl, hnext⟩ := h
  unfold LockSession.update
  split_ifs
  · exact ⟨rfl, rfl, rfl, hnext⟩
  · exact ⟨rfl, rfl, rfl, hnext⟩

/-- A step that changes nothing leaves the session as it is told. -/
theorem Holding.keep (h : s.Holding held value) {step : LockStep} (hrun : (s.run step).1 = s)
    (hholds : step.holds held = held) (hchange : step.change value = value) :
    (s.run step).1.Holding (step.holds held) (if held then step.change value else value) := by
  rw [hrun, hholds, hchange, ite_self]
  exact h

/-- A step does what is told of it without tickets. -/
theorem Holding.run (h : s.Holding held value) (step : LockStep) :
    (s.run step).2 = step.answer held value ∧
      (s.run step).1.Holding (step.holds held) (if held then step.change value else value) := by
  cases step with
  | acquire =>
    cases held with
    | false =>
      simp only [LockSession.run, h.held_eq, h.acquire_eq.1]
      exact ⟨rfl, h.takeTicket⟩
    | true =>
      simp only [LockSession.run, h.held_eq]
      exact ⟨rfl, h⟩
  | tryAcquire =>
    cases held with
    | false =>
      simp only [LockSession.run, h.acquire_eq.2]
      exact ⟨rfl, h.takeTicket⟩
    | true =>
      simp only [LockSession.run, h.tryAcquire_eq]
      exact ⟨rfl, h⟩
  | release =>
    cases held with
    | false =>
      simp only [LockSession.run, h.held_eq]
      exact ⟨rfl, h⟩
    | true =>
      simp only [LockSession.run, h.held_eq]
      exact ⟨rfl, h.release⟩
  | get =>
    have hanswer : (s.run .get).2 = if held then .number value else .outOfReach := by
      rw [← h.held_eq, ← h.value_eq]
      rfl
    exact ⟨hanswer, h.keep rfl rfl rfl⟩
  | set new => exact h.update fun _ => new
  | add more => exact h.update (· + more)
  | debug =>
    refine ⟨?_, h.keep rfl rfl rfl⟩
    unfold LockSession.run TicketLock.debugText
    rw [h.isLocked_eq]
    unfold LockStep.answer
    exact Eq.refl _

/-- So do all steps. -/
theorem Holding.runAll (h : s.Holding held value) (steps : List LockStep) :
    (s.runAll steps).2 = LockStep.answers held value steps ∧
      (s.runAll steps).1.Holding (LockStep.holdsAfter held steps)
        ((LockStep.guarded held steps).foldl LockStep.change value) := by
  induction steps generalizing s held value with
  | nil => exact ⟨rfl, h⟩
  | cons step steps ih =>
    obtain ⟨hanswer, hnext⟩ := h.run step
    obtain ⟨hanswers, hlast⟩ := ih hnext
    refine ⟨?_, ?_⟩
    · simp only [LockSession.runAll, LockStep.answers, hanswer, hanswers, hnext.isLocked_eq]
    · rw [LockStep.guarded, List.foldl_append]
      cases held <;> exact hlast

end LockSession

/-- After any steps from a free lock on, all that was answered is what is told without tickets, and
the number is the first one with the changes that were made under the lock. The lock is taken just
while it is held. It is served at once while it is not held, and trying for it while it is held
fails and changes nothing. -/
theorem lock_session (value : Int64) (steps : List LockStep) :
    let s := (LockSession.runAll ⟨.free value, false⟩ steps).1
    (LockSession.runAll ⟨.free value, false⟩ steps).2 = LockStep.answers false value steps ∧
    s.lock.value = (LockStep.guarded false steps).foldl LockStep.change value ∧
    s.held = LockStep.holdsAfter false steps ∧
    s.lock.isLocked = LockStep.holdsAfter false steps ∧
    (LockStep.holdsAfter false steps = true →
      s.lock.tryAcquire = none ∧ s.run .tryAcquire = (s, .flag false)) ∧
    (LockStep.holdsAfter false steps = false → ∃ lock : TicketLock Int64,
      s.lock.acquire = some lock ∧ s.lock.tryAcquire = some lock ∧
      s.run .acquire = (⟨lock, true⟩, .flag true) ∧
      lock.value = s.lock.value ∧ lock.isLocked = true) := by
  obtain ⟨hanswers, hlast⟩ := (LockSession.holding_free value).runAll steps
  refine ⟨hanswers, hlast.value_eq, hlast.held_eq, hlast.isLocked_eq, ?_, ?_⟩
  · intro hheld
    rw [hheld] at hlast
    refine ⟨hlast.tryAcquire_eq, ?_⟩
    simp only [LockSession.run, hlast.tryAcquire_eq]
  · intro hfree
    rw [hfree] at hlast
    obtain ⟨hacquire, htry⟩ := hlast.acquire_eq
    refine ⟨_, hacquire, htry, ?_, rfl, hlast.takeTicket.isLocked_eq⟩
    simp only [LockSession.run, hlast.held_eq, hacquire]
    rfl

/-- The tickets start again behind the last one. -/
example : (TicketLock.mk 4294967295 4294967295 ()).acquire = some ⟨0, 4294967295, ()⟩ := rfl

end FormattedOutput
