import FormattedOutput.Binary64
import Mathlib.Algebra.Order.Field.Power
import Mathlib.Data.Rat.Cast.Order
import Mathlib.Tactic.FieldSimp
import Mathlib.Tactic.Linarith
import Mathlib.Tactic.LinearCombination
import Mathlib.Tactic.Positivity
import Mathlib.Tactic.Ring

/-!
# Rounding to binary64

The magnitudes of binary64 stand in one row, and the two fields of a magnitude, read as one
number, are its place in that row. A number rounds to the nearest magnitude, and in the middle
between two to the one with an even significand. So it rounds to a magnitude just if it lies
between the halfway points to the neighbours of that magnitude.
-/

namespace FormattedOutput

namespace Binary64

/-! ## The row of magnitudes -/

/-- The place of a magnitude in the row: its two fields as one number. -/
def place (fraction exponent : Nat) : Nat := exponent * 2 ^ 52 + fraction

/-- The significand of the magnitude at a place, a whole number. -/
def significandAt (k : Nat) : Nat :=
  if k / 2 ^ 52 = 0 then k % 2 ^ 52 else 2 ^ 52 + k % 2 ^ 52

/-- The exponent that belongs to that significand. -/
def exponentAt (k : Nat) : Int :=
  (if k / 2 ^ 52 = 0 then 1 else (k / 2 ^ 52 : Nat)) - 1075

/-- The magnitude at a place. -/
def magnitudeAt (k : Nat) : Rat := significandAt k * 2 ^ exponentAt k

/-- The place after the largest finite magnitude. What rounds to it is too large. -/
def overflow : Nat := 2047 * 2 ^ 52

theorem magnitudeAt_overflow : magnitudeAt overflow = 2 ^ 1024 := by
  have hs : significandAt overflow = 2 ^ 52 := rfl
  have he : exponentAt overflow = 972 := rfl
  unfold magnitudeAt
  rw [hs, he, Nat.cast_pow, Nat.cast_ofNat, ← zpow_natCast, ← zpow_add₀ (by norm_num),
    ← zpow_natCast]
  rfl

theorem significandAt_mod_two (k : Nat) : significandAt k % 2 = k % 2 := by
  unfold significandAt
  split_ifs <;> omega

theorem magnitudeAt_zero : magnitudeAt 0 = 0 := by
  unfold magnitudeAt significandAt
  simp

/-- One place further in the row, a magnitude is larger by one unit of its significand. -/
theorem magnitudeAt_succ (k : Nat) : magnitudeAt (k + 1) = magnitudeAt k + 2 ^ exponentAt k := by
  unfold magnitudeAt
  by_cases hlast : k % 2 ^ 52 = 2 ^ 52 - 1
  · -- The fraction is full: the next one is zero, and the exponent goes up, except from 0 to 1.
    by_cases hzero : k / 2 ^ 52 = 0
    · have hs : significandAt (k + 1) = significandAt k + 1 := by
        unfold significandAt
        split_ifs <;> omega
      have he : exponentAt (k + 1) = exponentAt k := by
        unfold exponentAt
        split_ifs <;> omega
      rw [hs, he]
      push_cast
      ring
    · have hs : significandAt (k + 1) * 2 = significandAt k + 1 := by
        unfold significandAt
        split_ifs <;> omega
      have he : exponentAt (k + 1) = exponentAt k + 1 := by
        unfold exponentAt
        split_ifs <;> omega
      have hs' : (significandAt (k + 1) : Rat) * 2 = significandAt k + 1 := by exact_mod_cast hs
      rw [he, zpow_add_one₀ (by norm_num)]
      linear_combination (2 : Rat) ^ exponentAt k * hs'
  · have hs : significandAt (k + 1) = significandAt k + 1 := by
      unfold significandAt
      split_ifs <;> omega
    have he : exponentAt (k + 1) = exponentAt k := by
      unfold exponentAt
      split_ifs <;> omega
    rw [hs, he]
    push_cast
    ring

theorem strictMono_magnitudeAt : StrictMono magnitudeAt := by
  apply strictMono_nat_of_lt_succ
  intro k
  rw [magnitudeAt_succ]
  have hpos : (0 : Rat) < 2 ^ exponentAt k := by positivity
  linarith

/-! ## Rounding -/

/-- A number rounds to the magnitude at a place: none is nearer, and if another one is equally
near, the significand is even. -/
structure RoundsTo (r : Rat) (k : Nat) : Prop where
  finite : k < overflow
  nearest : ∀ j ≤ overflow, |r - magnitudeAt k| ≤ |r - magnitudeAt j|
  even : ∀ j ≤ overflow, |r - magnitudeAt k| = |r - magnitudeAt j| → j ≠ k →
    significandAt k % 2 = 0

/-- The point halfway to the magnitude before. -/
def lowerHalfway (k : Nat) : Rat := (magnitudeAt (k - 1) + magnitudeAt k) / 2

/-- The point halfway to the magnitude after. -/
def upperHalfway (k : Nat) : Rat := (magnitudeAt k + magnitudeAt (k + 1)) / 2

/-- A number lies between the halfway points of a place. They count if the significand is even. -/
def Between (k : Nat) (r : Rat) : Prop :=
  if significandAt k % 2 = 0 then lowerHalfway k ≤ r ∧ r ≤ upperHalfway k
  else lowerHalfway k < r ∧ r < upperHalfway k

variable {k j : Nat} {r : Rat}

theorem Between.bounds (h : Between k r) : lowerHalfway k ≤ r ∧ r ≤ upperHalfway k := by
  unfold Between at h
  split_ifs at h
  · exact h
  · exact ⟨h.1.le, h.2.le⟩

/-- What lies between two numbers between the halfway points does so as well. -/
theorem Between.convex {a b : Rat} (ha : Between k a) (hb : Between k b) (har : a ≤ r)
    (hrb : r ≤ b) : Between k r := by
  unfold Between at *
  split_ifs at *
  · exact ⟨ha.1.trans har, hrb.trans hb.2⟩
  · exact ⟨ha.1.trans_le har, hrb.trans_lt hb.2⟩

theorem between_zero : Between 0 0 := by
  have hnext : magnitudeAt 0 < magnitudeAt 1 := strictMono_magnitudeAt Nat.one_pos
  rw [magnitudeAt_zero] at hnext
  have heven : significandAt 0 % 2 = 0 := rfl
  unfold Between lowerHalfway upperHalfway
  rw [if_pos heven, Nat.zero_sub, Nat.zero_add, magnitudeAt_zero]
  exact ⟨by norm_num, by linarith⟩

theorem between_magnitudeAt (hk : 0 < k) : Between k (magnitudeAt k) := by
  have hlow : magnitudeAt (k - 1) < magnitudeAt k := strictMono_magnitudeAt (by omega)
  have hhigh : magnitudeAt k < magnitudeAt (k + 1) := strictMono_magnitudeAt (by omega)
  unfold Between lowerHalfway upperHalfway
  split_ifs
  · exact ⟨by linarith, by linarith⟩
  · exact ⟨by linarith, by linarith⟩

/-- On the lower side a number between the halfway points is nearer than any magnitude before. -/
theorem abs_sub_le_of_lt (hlow : lowerHalfway k ≤ r) (hjk : j < k) :
    |r - magnitudeAt k| ≤ |r - magnitudeAt j| ∧
      (|r - magnitudeAt k| = |r - magnitudeAt j| → r = lowerHalfway k) := by
  have hj : magnitudeAt j ≤ magnitudeAt (k - 1) := strictMono_magnitudeAt.monotone (by omega)
  have hk : magnitudeAt (k - 1) < magnitudeAt k := strictMono_magnitudeAt (by omega)
  unfold lowerHalfway at hlow ⊢
  have hfar : |r - magnitudeAt j| = r - magnitudeAt j := abs_of_nonneg (by linarith)
  rw [hfar]
  rcases abs_cases (r - magnitudeAt k) with ⟨habs, _⟩ | ⟨habs, _⟩
  · rw [habs]
    exact ⟨by linarith, fun h => by linarith⟩
  · rw [habs]
    exact ⟨by linarith, fun h => by linarith⟩

theorem abs_sub_le_of_gt (hhigh : r ≤ upperHalfway k) (hkj : k < j) :
    |r - magnitudeAt k| ≤ |r - magnitudeAt j| ∧
      (|r - magnitudeAt k| = |r - magnitudeAt j| → r = upperHalfway k) := by
  have hj : magnitudeAt (k + 1) ≤ magnitudeAt j := strictMono_magnitudeAt.monotone (by omega)
  have hk : magnitudeAt k < magnitudeAt (k + 1) := strictMono_magnitudeAt (by omega)
  unfold upperHalfway at hhigh ⊢
  have hfar : |r - magnitudeAt j| = magnitudeAt j - r := by
    rw [abs_sub_comm]
    exact abs_of_nonneg (by linarith)
  rw [hfar]
  rcases abs_cases (r - magnitudeAt k) with ⟨habs, _⟩ | ⟨habs, _⟩
  · rw [habs]
    exact ⟨by linarith, fun h => by linarith⟩
  · rw [habs]
    exact ⟨by linarith, fun h => by linarith⟩

/-- What lies between the halfway points of a place rounds to the magnitude at that place. -/
theorem roundsTo_of_between (hk : k < overflow) (h : Between k r) : RoundsTo r k := by
  obtain ⟨hlow, hhigh⟩ := h.bounds
  refine ⟨hk, ?_, ?_⟩
  · intro j _
    rcases Nat.lt_trichotomy j k with hlt | rfl | hgt
    · exact (abs_sub_le_of_lt hlow hlt).1
    · exact le_refl _
    · exact (abs_sub_le_of_gt hhigh hgt).1
  · intro j _ heq hne
    -- Equally near is only what lies on a halfway point.
    by_contra hodd
    unfold Between at h
    rw [if_neg hodd] at h
    rcases Nat.lt_or_gt_of_ne hne with hlt | hgt
    · exact absurd ((abs_sub_le_of_lt hlow hlt).2 heq) (ne_of_gt h.1)
    · exact absurd ((abs_sub_le_of_gt hhigh hgt).2 heq) (ne_of_lt h.2)

/-- A number rounds to one magnitude only. -/
theorem RoundsTo.unique (hk : RoundsTo r k) (hj : RoundsTo r j) : k = j := by
  by_contra hne
  wlog hlt : k < j generalizing k j with hsymm
  · exact hsymm hj hk (Ne.symm hne) (by omega)
  have heq : |r - magnitudeAt k| = |r - magnitudeAt j| :=
    le_antisymm (hk.nearest j hj.finite.le) (hj.nearest k hk.finite.le)
  have hevenk := hk.even j hj.finite.le heq (Ne.symm hne)
  have hevenj := hj.even k hk.finite.le heq.symm hne
  rw [significandAt_mod_two] at hevenk hevenj
  -- Both places are even, so there is one between them, and it is nearer.
  have hfirst : magnitudeAt k < magnitudeAt (k + 1) := strictMono_magnitudeAt (by omega)
  have hsecond : magnitudeAt (k + 1) < magnitudeAt j := strictMono_magnitudeAt (by omega)
  have hover : k + 1 ≤ overflow := hk.finite
  have hnear := hk.nearest (k + 1) hover
  have hnear' := hj.nearest (k + 1) hover
  rcases abs_cases (r - magnitudeAt k) with ⟨h1, _⟩ | ⟨h1, _⟩ <;>
    rcases abs_cases (r - magnitudeAt j) with ⟨h2, _⟩ | ⟨h2, _⟩ <;>
    rcases abs_cases (r - magnitudeAt (k + 1)) with ⟨h3, _⟩ | ⟨h3, _⟩ <;>
    linarith

/-- What lies between the halfway points of a larger magnitude is larger. -/
theorem Between.lt {s : Rat} (hr : Between k r) (hs : Between j s) (hkj : k < j)
    (hj : j < overflow) : r < s := by
  obtain ⟨_, hupper⟩ := hr.bounds
  obtain ⟨hlower, _⟩ := hs.bounds
  have hfirst : magnitudeAt k ≤ magnitudeAt (j - 1) := strictMono_magnitudeAt.monotone (by omega)
  have hsecond : magnitudeAt (k + 1) ≤ magnitudeAt j := strictMono_magnitudeAt.monotone (by omega)
  unfold upperHalfway at hupper
  unfold lowerHalfway at hlower
  apply lt_of_le_of_ne (by linarith)
  -- Where the two ranges meet, only one of them has its end.
  rintro rfl
  exact hkj.ne ((roundsTo_of_between (hkj.trans hj) hr).unique (roundsTo_of_between hj hs))

end Binary64

end FormattedOutput
