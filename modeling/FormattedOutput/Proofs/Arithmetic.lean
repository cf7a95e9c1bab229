import FormattedOutput.Power
import Mathlib.Algebra.Group.Int.Defs

/-!
# Arithmetic with limits

A difference below zero, a number of more than 32 bits and a shift by a whole word have no result
here. So an expression that has a result kept within the limits at each step.
-/

namespace FormattedOutput

/-- The difference of two numbers, if it is not below zero. -/
def minus? (m n : Nat) : Option Nat :=
  if n ≤ m then some (m - n) else none

theorem minus?_eq {m n : Nat} (h : n ≤ m) : minus? m n = some (m - n) := if_pos h

/-- A number, if it has 32 bits. -/
def int32? (n : Int) : Option Int :=
  if -2 ^ 31 ≤ n ∧ n < 2 ^ 31 then some n else none

theorem int32?_eq {n : Int} (hge : -2 ^ 31 ≤ n) (hlt : n < 2 ^ 31) : int32? n = some n :=
  if_pos ⟨hge, hlt⟩

/-- A number of places by which a word can be shifted, if it is one. -/
def place? (n : Int) : Option Nat :=
  if 0 ≤ n ∧ n < 64 then some n.toNat else none

theorem place?_eq {n : Int} (hge : 0 ≤ n) (hlt : n < 64) : place? n = some n.toNat :=
  if_pos ⟨hge, hlt⟩

end FormattedOutput
