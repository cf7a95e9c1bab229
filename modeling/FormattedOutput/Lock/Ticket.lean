/-!
# A ticket lock

Whoever wants the lock takes a ticket and waits until it is served. The two counters wrap around.
The lock carries the value that it guards.
-/

namespace FormattedOutput

/-- A lock and the value that it guards. -/
structure TicketLock (α : Type) where
  nextTicket : UInt32 := 0
  nowServing : UInt32 := 0
  value : α
  deriving DecidableEq, Repr

namespace TicketLock

variable {α : Type}

/-- A free lock. -/
def free (value : α) : TicketLock α := { value }

/-- Somebody holds the lock or waits for it. -/
def isLocked (l : TicketLock α) : Bool := l.nextTicket != l.nowServing

/-- Takes a ticket. -/
def takeTicket (l : TicketLock α) : UInt32 × TicketLock α :=
  (l.nextTicket, { l with nextTicket := l.nextTicket + 1 })

/-- Takes a ticket and the lock with it, or `none` if the ticket would have to wait for ever. -/
def acquire (l : TicketLock α) : Option (TicketLock α) :=
  let (ticket, l) := l.takeTicket
  if l.nowServing = ticket then some l else none

/-- Takes the lock only if nobody holds it or waits for it. -/
def tryAcquire (l : TicketLock α) : Option (TicketLock α) :=
  if l.nextTicket = l.nowServing then some { l with nextTicket := l.nowServing + 1 } else none

/-- Hands the lock to the next ticket. -/
def release (l : TicketLock α) : TicketLock α :=
  { l with nowServing := l.nowServing + 1 }

/-! ## Taking turns -/

/-- A turn that is over leaves the lock as busy as it was before. -/
theorem isLocked_release_takeTicket (l : TicketLock α) :
    l.takeTicket.2.release.isLocked = l.isLocked := by
  have : l.nextTicket + 1 = l.nowServing + 1 ↔ l.nextTicket = l.nowServing :=
    UInt32.add_left_inj 1
  simp only [takeTicket, release, isLocked, bne, Bool.not_inj_iff]
  exact decide_eq_decide.2 this

/-- A lock that nobody holds is taken at once. -/
theorem acquire_of_not_isLocked {l : TicketLock α} (h : l.isLocked = false) :
    l.acquire = some l.takeTicket.2 := by
  simp_all [isLocked, acquire, takeTicket]

/-- A lock that somebody holds does not come. -/
theorem acquire_of_isLocked {l : TicketLock α} (h : l.isLocked = true) : l.acquire = none := by
  have h' : l.nowServing ≠ l.nextTicket := Ne.symm (bne_iff_ne.1 h)
  simp [acquire, takeTicket, h']

/-- Trying to take a lock is the same as taking it, as long as nobody waits. -/
theorem tryAcquire_eq_acquire (l : TicketLock α) : l.tryAcquire = l.acquire := by
  by_cases h : l.nextTicket = l.nowServing <;> simp_all [tryAcquire, acquire, takeTicket, eq_comm]

/-- The lock in words. The value is not shown. -/
def debugText (l : TicketLock α) : String :=
  "SpinLock \x7b locked: " ++ toString l.isLocked ++ ", .. \x7d"

end TicketLock

end FormattedOutput
