import FormattedOutput.Proofs.Decimal.Scaling

/-!
# Quotients by a power of ten

A value and its halfway points are multiplied by a rebuilt power of five, and the products are
shifted right. What is left are the quotients by a power of ten, rounded down, as if the power was
the whole one and there was no end to a word.
-/

namespace FormattedOutput

open PowerTable

namespace Interval

/-! ## What the points are multiplied with -/

/-- The rebuilt power that scales an interval. -/
def multiplier (i : Interval) : WordPair :=
  if 0 ≤ i.exponent then inverse (tensBelow i.exponent.toNat)
  else power ((-i.exponent).toNat - tensAbove (-i.exponent).toNat)

/-- What that power is rebuilt from, unless it is stored. -/
def rebuilding? (i : Interval) : Option Rebuilding :=
  if 0 ≤ i.exponent then inverseRebuilding? (tensBelow i.exponent.toNat)
  else powerRebuilding? ((-i.exponent).toNat - tensAbove (-i.exponent).toNat)

/-- How far the products are shifted. -/
def shift (i : Interval) : Nat :=
  if 0 ≤ i.exponent then (downward i.exponent.toNat).shift
  else (upward (-i.exponent).toNat).shift

/-- A number of units as it is scaled, before any flag is set. -/
def scaledPoint (i : Interval) (n : Nat) : Nat := shiftedProduct n i.multiplier i.shift

/-- A number of units divided by the power of ten, rounded down. -/
def quotient (i : Interval) (n : Nat) : Nat :=
  if 0 ≤ i.exponent then n * 2 ^ i.exponent.toNat / 10 ^ tensBelow i.exponent.toNat
  else n * 5 ^ (-i.exponent).toNat / 10 ^ tensAbove (-i.exponent).toNat

variable {i : Interval} {e n : Nat}

/-! ## The quotients -/

theorem shiftedProduct_down (he : e < 970) (hn : 0 < n) (hle : n ≤ scaledLimit) :
    shiftedProduct n (inverse (tensBelow e)) (downward e).shift = n * 2 ^ e / 10 ^ tensBelow e := by
  have hq := tensBelow_le e
  have htwo : n * 2 ^ e = n * 2 ^ (e - tensBelow e) * 2 ^ tensBelow e := by
    rw [mul_assoc, ← pow_add, Nat.sub_add_cancel hq]
  rw [shiftedProduct_inverse he hn hle, htwo, show 10 = 5 * 2 from rfl, mul_pow,
    Nat.mul_div_mul_right _ _ (Nat.two_pow_pos _)]

theorem shiftedProduct_up (he : e < 1077) (hn : 0 < n) (hle : n ≤ scaledLimit) :
    shiftedProduct n (power (e - tensAbove e)) (upward e).shift = n * 5 ^ e / 10 ^ tensAbove e := by
  have hq := tensAbove_le e
  have hfive : n * 5 ^ e = n * 5 ^ (e - tensAbove e) * 5 ^ tensAbove e := by
    rw [mul_assoc, ← pow_add, Nat.sub_add_cancel hq]
  rw [shiftedProduct_power he hn hle, hfive, show 10 = 2 * 5 from rfl, mul_pow,
    Nat.mul_div_mul_right _ _ (Nat.pow_pos (by decide))]

theorem scaledPoint_eq_quotient (h : i.InRange) (hn : 0 < n) (hle : n ≤ scaledLimit) :
    i.scaledPoint n = i.quotient n := by
  have hge := h.exponent_ge
  have hmax := h.exponent_le
  unfold scaledPoint quotient multiplier shift
  split_ifs
  · exact shiftedProduct_down (by omega) hn hle
  · exact shiftedProduct_up (by omega) hn hle

theorem lossless_scaledPoint (h : i.InRange) (hle : n ≤ scaledLimit) :
    Lossless n i.multiplier i.shift := by
  have hge := h.exponent_ge
  have hmax := h.exponent_le
  unfold multiplier shift
  split_ifs
  · exact lossless_inverse (by omega) hle
  · exact lossless_power (by omega) hle

theorem rebuilding_spec (h : i.InRange) :
    ∀ x ∈ i.rebuilding?, x.Fits ∧ i.multiplier = .ofNat x.sum := by
  have hge := h.exponent_ge
  have hmax := h.exponent_le
  unfold rebuilding? multiplier
  split_ifs
  · obtain ⟨-, -, -, htens⟩ := fits_downward i.exponent.toNat (by omega)
    exact inverse_eq_sum _ htens
  · obtain ⟨-, -, -, htens⟩ := fits_upward (-i.exponent).toNat (by omega)
    exact power_eq_sum _ htens

/-! ## The start of the search -/

/-- The search starts with the scaled points. Of the flags only the one that shuts out the upper
halfway point changes a number. -/
structure StartsWith (i : Interval) (s : Search) : Prop where
  value_eq : s.value = i.scaledPoint i.value
  lower_eq : s.lower = i.scaledPoint i.lower
  upper_eq : s.upper = i.scaledPoint i.upper ∨ s.upper = i.scaledPoint i.upper - 1

theorem startsWith_scale (i : Interval) : i.StartsWith i.scale := by
  unfold scale
  split_ifs with hsign
  · have hpoint (n : Nat) : i.scaledPoint n = shiftedProduct n
        (inverse (tensBelow i.exponent.toNat)) (downward i.exponent.toNat).shift := by
      unfold scaledPoint multiplier shift
      rw [if_pos hsign, if_pos hsign]
    unfold scaleDown
    dsimp only
    split_ifs <;>
      exact ⟨(hpoint _).symm, (hpoint _).symm, by simp [hpoint, scaled, downward]⟩
  · have hpoint (n : Nat) : i.scaledPoint n = shiftedProduct n
        (power ((-i.exponent).toNat - tensAbove (-i.exponent).toNat))
        (upward (-i.exponent).toNat).shift := by
      unfold scaledPoint multiplier shift
      rw [if_neg hsign, if_neg hsign]
    unfold scaleUp
    dsimp only
    split_ifs <;>
      exact ⟨(hpoint _).symm, (hpoint _).symm, by simp [hpoint, scaled, upward]⟩

/-- A value and its halfway points come out as their exact quotients by the power of ten, rounded
down. No bit gets lost on the way, neither where the power is rebuilt nor where the points are
multiplied with it. -/
structure ScalesExactly (i : Interval) : Prop where
  scaledPoint_eq : ∀ n ∈ [i.value, i.upper, i.lower], i.scaledPoint n = i.quotient n
  lossless : ∀ n ∈ [i.value, i.upper, i.lower], Lossless n i.multiplier i.shift
  rebuilding_fits : ∀ x ∈ i.rebuilding?, x.Fits
  multiplier_eq : ∀ x ∈ i.rebuilding?, i.multiplier = .ofNat x.sum
  startsWith : i.StartsWith i.scale

theorem InRange.scalesExactly (h : i.InRange) : i.ScalesExactly := by
  have hbounds : ∀ n ∈ [i.value, i.upper, i.lower], 0 < n ∧ n ≤ scaledLimit := by
    have hlower := h.lower_pos
    have hlv := lower_lt_value h
    have hvu := i.value_lt_upper
    have hupper := h.upper_le
    intro n hn
    simp only [List.mem_cons, List.not_mem_nil, or_false] at hn
    rcases hn with rfl | rfl | rfl <;> omega
  constructor
  · intro n hn
    exact scaledPoint_eq_quotient h (hbounds n hn).1 (hbounds n hn).2
  · intro n hn
    exact lossless_scaledPoint h (hbounds n hn).2
  · intro x hx
    exact (rebuilding_spec h x hx).1
  · intro x hx
    exact (rebuilding_spec h x hx).2
  · exact i.startsWith_scale

end Interval

/-- Every finite value other than zero is scaled exactly. -/
theorem scaling_exact (fraction exponent : Nat) (hf : fraction < 2 ^ 52) (he : exponent ≤ 2046)
    (hpos : fraction ≠ 0 ∨ exponent ≠ 0) : (Interval.ofFields fraction exponent).ScalesExactly :=
  (Interval.inRange_ofFields hf he hpos).scalesExactly

/-- A third is scaled to 18 digits, although it is multiplied with a power that is not stored. -/
theorem scaling_exact_third :
    (Interval.ofFields 0x5555555555555 1021).scale.value = 333333333333333314 ∧
      ∃ x ∈ (Interval.ofFields 0x5555555555555 1021).rebuilding?, x.Fits := by
  have hexact := scaling_exact 0x5555555555555 1021 (by decide) (by decide) (by decide)
  have hquotient : (Interval.ofFields 0x5555555555555 1021).quotient
      (Interval.ofFields 0x5555555555555 1021).value = 333333333333333314 := by
    decide +kernel
  have hrebuilding : (Interval.ofFields 0x5555555555555 1021).rebuilding?.isSome = true := by
    decide +kernel
  obtain ⟨x, hx⟩ := Option.isSome_iff_exists.mp hrebuilding
  refine ⟨?_, x, hx, hexact.rebuilding_fits x hx⟩
  rw [hexact.startsWith.value_eq, hexact.scaledPoint_eq _ (List.mem_cons_self ..), hquotient]

end FormattedOutput
