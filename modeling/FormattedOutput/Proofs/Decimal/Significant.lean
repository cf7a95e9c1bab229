import FormattedOutput.Proofs.Decimal.Nearest

/-!
# Significant digits

A number is rounded to so many digits at the place of the last of them, and that place is told by
the exponent of its first digit. A carry gives the rounded number one digit more. Then it was also
rounded to the place of its own last digit, although that place is coarser.
-/

namespace FormattedOutput

namespace Decimal

/-- The exponent of the first digit of a number. Zero has the exponent 0. -/
def IsLeadingExponent (r : Rat) (e : Int) : Prop :=
  if r = 0 then e = 0 else 10 ^ e ≤ r ∧ r < 10 ^ (e + 1)

/-- A number is rounded to so many significant digits. -/
def RoundsToDigits (keep : Nat) (r s : Rat) : Prop :=
  ∃ e, IsLeadingExponent r e ∧ RoundsToGrid (e + 1 - keep) r s

variable {r s : Rat} {e e' : Int}

/-! ## The exponent of the first digit -/

/-- A power in a number is not above the last power in it. -/
theorem exponent_le {base : Rat} (hbase : 1 < base) (hle : base ^ e ≤ r)
    (hlt : r < base ^ (e' + 1)) : e ≤ e' := by
  have hexp := (zpow_lt_zpow_iff_right₀ hbase).mp (hle.trans_lt hlt)
  omega

theorem IsLeadingExponent.unique (h : IsLeadingExponent r e) (h' : IsLeadingExponent r e') :
    e = e' := by
  unfold IsLeadingExponent at *
  by_cases hzero : r = 0
  · rw [if_pos hzero] at h h'
    rw [h, h']
  · rw [if_neg hzero] at h h'
    exact (exponent_le (by norm_num) h.1 h'.2).antisymm (exponent_le (by norm_num) h'.1 h.2)

theorem RoundsToDigits.unique {keep : Nat} {s' : Rat} (h : RoundsToDigits keep r s)
    (h' : RoundsToDigits keep r s') : s = s' := by
  obtain ⟨e, he, hgrid⟩ := h
  obtain ⟨e', he', hgrid'⟩ := h'
  rw [← he.unique he'] at hgrid'
  exact hgrid.unique hgrid'

theorem toRat_eq_zero_iff (d : Decimal) : d.toRat = 0 ↔ d.mantissa = 0 := by
  constructor
  · intro h
    have hpow : (10 : Rat) ^ d.exponent ≠ 0 := by positivity
    unfold toRat at h
    simpa [hpow] using h
  · exact toRat_eq_zero

theorem isLeadingExponent_toRat (d : Decimal) : IsLeadingExponent d.toRat d.leadingExponent := by
  unfold IsLeadingExponent leadingExponent
  simp only [toRat_eq_zero_iff]
  by_cases hzero : d.mantissa = 0
  · simp [hzero]
  · have hle := le_toRat (Nat.pos_of_ne_zero hzero)
    have hlt := d.toRat_lt
    rw [if_neg hzero, if_neg hzero]
    constructor
    · rwa [show d.exponent + d.digits - 1 = d.digits - 1 + d.exponent by omega]
    · rwa [show d.exponent + d.digits - 1 + 1 = d.digits + d.exponent by omega]

theorem mantissa_trim_eq_zero (d : Decimal) : d.trim.mantissa = 0 ↔ d.mantissa = 0 := by
  rw [← toRat_eq_zero_iff, toRat_trim, toRat_eq_zero_iff]

theorem leadingExponent_trim (d : Decimal) : d.trim.leadingExponent = d.leadingExponent := by
  have h := d.trim.isLeadingExponent_toRat
  rw [toRat_trim] at h
  exact h.unique d.isLeadingExponent_toRat

/-! ## Rounding to a coarser place -/

/-- What is rounded to a point of a coarser grid was nearest to it on that grid as well. -/
theorem RoundsToGrid.coarsen {n : Nat} (h : RoundsToGrid e r s) (hs : s = n * 10 ^ (e + 1)) :
    RoundsToGrid (e + 1) r s := by
  obtain ⟨m, hm, hsm⟩ := h
  refine ⟨n, nearestEven_of_lt_half ?_, hs⟩
  have hpow : (10 : Rat) ^ (e + 1) = 10 ^ e * 10 := zpow_add_one₀ (by norm_num) e
  have hne : (10 : Rat) ^ e ≠ 0 := by positivity
  -- The step of the coarser grid is ten times as long, so the distance is a tenth of what it was.
  have hmn : (m : Rat) = n * 10 := by
    have heq : (m : Rat) * 10 ^ e = n * 10 * 10 ^ e := by
      rw [← hsm, hs, hpow]
      ring
    exact mul_right_cancel₀ hne heq
  have htenth : r / 10 ^ (e + 1) - n = (r / 10 ^ e - m) / 10 := by
    rw [hpow, hmn]
    field_simp
  have hnear := hm.near
  rw [htenth, abs_div, abs_of_pos (by norm_num : (0 : Rat) < 10)]
  linarith

theorem roundsToGrid_zero (e : Int) : RoundsToGrid e 0 0 := by
  have hpoint := roundsToGrid_point e 0
  rwa [Nat.cast_zero, zero_mul] at hpoint

/-! ## Keeping digits -/

variable {d : Decimal} {keep : Nat}

/-- Only zero is rounded to zero. -/
theorem RoundsToDigits.eq_zero_iff (h : RoundsToDigits keep r s) (hkeep : 1 ≤ keep) :
    s = 0 ↔ r = 0 := by
  obtain ⟨e, he, hgrid⟩ := h
  constructor
  · intro hs
    by_contra hr
    unfold IsLeadingExponent at he
    rw [if_neg hr] at he
    have hle := (roundsToGrid_pow (by omega)).mono hgrid he.1
    have hpow : (0 : Rat) < 10 ^ e := by positivity
    linarith
  · intro hr
    rw [hr] at hgrid
    exact hgrid.unique (roundsToGrid_zero _)

/-- A decimal has no digit before its first one. -/
theorem leadingExponent_lt (h : d.mantissa = 0 → d.exponent = 0) :
    d.leadingExponent < d.exponent + d.digits := by
  have hpos : 1 ≤ d.digits := digitCount_pos d.mantissa
  unfold leadingExponent
  by_cases hzero : d.mantissa = 0
  · rw [if_pos hzero, h hzero]
    omega
  · rw [if_neg hzero]
    omega

theorem keepDigits_of_mantissa_eq_zero {keep : Int} (hkeep : 1 ≤ keep) (h : d.mantissa = 0) :
    d.keepDigits keep = d := by
  apply keepDigits_of_le
  unfold digits
  rw [h, digitCount_of_lt (by decide)]
  omega

theorem exponent_keepDigits_eq_zero {keep : Int} (hkeep : 1 ≤ keep)
    (h : d.mantissa = 0 → d.exponent = 0) (hzero : (d.keepDigits keep).mantissa = 0) :
    (d.keepDigits keep).exponent = 0 := by
  rcases Nat.eq_zero_or_pos d.mantissa with hm | hm
  · rw [keepDigits_of_mantissa_eq_zero hkeep hm]
    exact h hm
  · exact absurd hzero (mantissa_keepDigits_pos hkeep hm).ne'

/-- To keep some digits is to round to so many. -/
theorem roundsToDigits_keepDigits (d : Decimal) (hkeep : 1 ≤ keep) :
    RoundsToDigits keep d.toRat (d.keepDigits keep).toRat := by
  refine ⟨d.leadingExponent, d.isLeadingExponent_toRat, ?_⟩
  by_cases hzero : d.mantissa = 0
  · rw [keepDigits_of_mantissa_eq_zero (by omega) hzero, toRat_eq_zero hzero]
    exact roundsToGrid_zero _
  · have hgrid := d.keepDigits_roundsToGrid keep
    unfold leadingExponent
    rwa [if_neg hzero, show d.exponent + d.digits - 1 + 1 - keep =
      d.exponent + d.digits - keep by omega]

/-- What is kept is rounded to the place of its own last digit. -/
theorem roundsToGrid_keepDigits (d : Decimal) (hkeep : 1 ≤ keep) :
    RoundsToGrid ((d.keepDigits keep).leadingExponent + 1 - keep) d.toRat
      (d.keepDigits keep).toRat := by
  by_cases hzero : d.mantissa = 0
  · rw [keepDigits_of_mantissa_eq_zero (by omega) hzero, toRat_eq_zero hzero]
    exact roundsToGrid_zero _
  · have hgrid := d.keepDigits_roundsToGrid keep
    obtain ⟨hlower, hupper⟩ :=
      @toRat_keepDigits_between d keep (by omega) (Nat.pos_of_ne_zero hzero)
    have hleading := (d.keepDigits keep).isLeadingExponent_toRat
    have hne : (d.keepDigits keep).toRat ≠ 0 := by
      have hpow : (0 : Rat) < 10 ^ (d.exponent + d.digits - 1) := by positivity
      linarith
    rcases hupper.lt_or_eq with hlt | heq
    · -- Without a carry the first digit is where it was.
      have hsame : IsLeadingExponent (d.keepDigits keep).toRat (d.exponent + d.digits - 1) := by
        unfold IsLeadingExponent
        rw [if_neg hne]
        exact ⟨hlower, by rwa [sub_add_cancel]⟩
      rwa [hleading.unique hsame, show d.exponent + d.digits - 1 + 1 - keep =
        d.exponent + d.digits - keep by omega]
    · have hnext : IsLeadingExponent (d.keepDigits keep).toRat (d.exponent + d.digits) := by
        unfold IsLeadingExponent
        rw [if_neg hne, heq]
        exact ⟨le_refl _, zpow_lt_zpow_right₀ (by norm_num) (by omega)⟩
      rw [hleading.unique hnext, show d.exponent + d.digits + 1 - (keep : Int) =
        d.exponent + d.digits - keep + 1 by omega]
      apply hgrid.coarsen (n := 10 ^ (keep - 1))
      rw [heq, Nat.cast_pow, Nat.cast_ofNat, ← zpow_natCast, ← zpow_add₀ (by norm_num)]
      congr 1
      omega

end Decimal

end FormattedOutput
