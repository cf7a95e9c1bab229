import FormattedOutput.Proofs.Binary64.Rounding
import FormattedOutput.Proofs.Decimal.Values
import Mathlib.Data.Rat.Floor

/-!
# The coarsest grid of decimals

Decimals of one exponent are a grid. Of all decimals between two halfway points the shortest ones
lie on the coarsest grid that has a point there. So it is enough to look at two grids: the one of
the decimal, and the next one, on which no point may be left. There is one shortest decimal, since
what lies between two of them would be nearer.
-/

namespace FormattedOutput

namespace Decimal

open Binary64

/-! ## What the shortest decimal is -/

/-- A decimal reads back as the magnitude at a place, is as short as such a decimal can be, and of
the decimals of that length none is nearer. -/
structure IsShortest (d : Decimal) (k : Nat) : Prop where
  between : Between k d.toRat
  readsBack : RoundsTo d.toRat k
  positive : 1 ≤ d.mantissa
  small : d.mantissa < 10 ^ 17
  trimmed : ¬10 ∣ d.mantissa
  fewest : ∀ c : Decimal, Between k c.toRat → d.digits ≤ c.digits
  nearest : ∀ c : Decimal, Between k c.toRat → c.digits = d.digits →
    |d.toRat - magnitudeAt k| ≤ |c.toRat - magnitudeAt k|
  even : ∀ c : Decimal, Between k c.toRat → c.digits = d.digits →
    |d.toRat - magnitudeAt k| = |c.toRat - magnitudeAt k| → c.toRat ≠ d.toRat →
    d.mantissa % 2 = 0

/-- A decimal on the coarsest grid with a point between the halfway points of a place. -/
structure IsCoarsest (d : Decimal) (k : Nat) : Prop where
  between : Between k d.toRat
  coarsest : ∀ n : Nat, ¬Between k (n * 10 ^ (d.exponent + 1))
  nearest : ∀ n : Nat, Between k (n * 10 ^ d.exponent) →
    |d.toRat - magnitudeAt k| ≤ |n * 10 ^ d.exponent - magnitudeAt k| ∧
    (|d.toRat - magnitudeAt k| = |n * 10 ^ d.exponent - magnitudeAt k| →
      n = d.mantissa ∨ d.mantissa % 2 = 0)
  /-- Below a power of ten the grid gets finer. A point there is no nearer. -/
  power : d.mantissa = 1 → Between k (9 * 10 ^ (d.exponent - 1)) →
    19 * 10 ^ (d.exponent - 1) < 2 * magnitudeAt k

namespace IsCoarsest

variable {d c : Decimal} {k : Nat}

theorem trimmed (h : d.IsCoarsest k) : ¬10 ∣ d.mantissa := by
  rintro ⟨n, hn⟩
  apply h.coarsest n
  have heq : d.toRat = n * 10 ^ (d.exponent + 1) := by
    unfold toRat
    rw [hn, zpow_add_one₀ (by norm_num)]
    push_cast
    ring
  rw [← heq]
  exact h.between

theorem positive (h : d.IsCoarsest k) : 0 < d.mantissa := by
  apply Nat.pos_of_ne_zero
  intro hzero
  exact h.trimmed (hzero ▸ dvd_zero 10)

/-- No decimal with a larger exponent lies between the halfway points. -/
theorem exponent_le (h : d.IsCoarsest k) (hc : Between k c.toRat) : c.exponent ≤ d.exponent := by
  by_contra hlt
  -- A point of any coarser grid is a point of the next one.
  obtain ⟨n, hn⟩ := exists_toRat_eq (show d.exponent + 1 ≤ c.exponent by omega)
  rw [hn] at hc
  exact h.coarsest n hc

/-- A power of ten between the halfway points is on no next grid. -/
theorem pow_not_between (h : d.IsCoarsest k) {e : Int} (he : d.exponent < e) :
    ¬Between k (10 ^ e) := by
  intro hbetween
  have hle := h.exponent_le (c := ⟨1, e⟩) (by simpa [toRat] using hbetween)
  simp only at hle
  omega

/-- With a smaller exponent and no more digits a decimal is below the first power of ten that is
not above `d`. -/
theorem toRat_lt_pow (hexp : c.exponent < d.exponent) (hdigits : c.digits ≤ d.digits) :
    c.toRat < 10 ^ (d.digits - 1 + d.exponent) := by
  apply lt_of_lt_of_le c.toRat_lt
  exact zpow_le_zpow_right₀ (by norm_num) (by omega)

theorem pow_between (h : d.IsCoarsest k) (hc : Between k c.toRat)
    (hexp : c.exponent < d.exponent) (hdigits : c.digits ≤ d.digits) :
    Between k (10 ^ (d.digits - 1 + d.exponent)) :=
  hc.convex h.between (toRat_lt_pow hexp hdigits).le (le_toRat h.positive)

/-- So a decimal with a smaller exponent and no more digits is there beside a single digit only. -/
theorem digits_eq_one (h : d.IsCoarsest k) (hc : Between k c.toRat)
    (hexp : c.exponent < d.exponent) (hdigits : c.digits ≤ d.digits) : d.digits = 1 := by
  have hpos : 0 < d.digits := digitCount_pos d.mantissa
  by_contra hne
  exact h.pow_not_between (by omega) (h.pow_between hc hexp hdigits)

theorem fewest (h : d.IsCoarsest k) (hc : Between k c.toRat) : d.digits ≤ c.digits := by
  have hpos : 0 < c.digits := digitCount_pos c.mantissa
  rcases lt_or_eq_of_le (h.exponent_le hc) with hexp | hexp
  · by_contra hlt
    have hone := h.digits_eq_one hc hexp (by omega)
    omega
  · -- On the grid of `d` a point with fewer digits leaves a power of ten between the two.
    by_contra hlt
    have hclt : c.toRat < 10 ^ (d.digits - 1 + d.exponent) := by
      apply lt_of_lt_of_le c.toRat_lt
      exact zpow_le_zpow_right₀ (by norm_num) (by omega)
    exact h.pow_not_between (by omega) (hc.convex h.between hclt.le (le_toRat h.positive))

/-- Beside a single digit, a single digit with a smaller exponent is farther away. -/
theorem lt_of_exponent_lt (h : d.IsCoarsest k) (hc : Between k c.toRat)
    (hexp : c.exponent < d.exponent) (hdigits : c.digits = d.digits) :
    |d.toRat - magnitudeAt k| < |c.toRat - magnitudeAt k| := by
  have hone := h.digits_eq_one hc hexp hdigits.le
  have hclt : c.toRat < 10 ^ d.exponent := by
    have hlt := toRat_lt_pow hexp hdigits.le
    rw [hone] at hlt
    simpa using hlt
  have hpow : Between k (10 ^ d.exponent) := by
    have hbetween := h.pow_between hc hexp hdigits.le
    rw [hone] at hbetween
    simpa using hbetween
  have hnear := (h.nearest 1 (by simpa using hpow)).1
  rw [Nat.cast_one, one_mul] at hnear
  rcases le_or_gt (10 ^ d.exponent) (magnitudeAt k) with hle | hgt
  · -- The power of ten stands between the two.
    apply lt_of_le_of_lt hnear
    rw [abs_of_nonpos (by linarith), abs_of_nonpos (by linarith)]
    linarith
  · -- The value is below the power of ten, so no other point of the grid is as near.
    have hmantissa : d.mantissa = 1 := by
      by_contra hne
      have htwo : (2 : Rat) ≤ d.mantissa := by
        have := h.positive
        exact_mod_cast (by omega : 2 ≤ d.mantissa)
      have hfar : 10 ^ d.exponent < d.toRat := by
        unfold toRat
        have hpos : (0 : Rat) < 10 ^ d.exponent := by positivity
        nlinarith
      rw [abs_of_nonneg (by linarith), abs_of_nonneg (by linarith)] at hnear
      linarith
    have hd : d.toRat = 10 ^ d.exponent := by
      unfold toRat
      rw [hmantissa, Nat.cast_one, one_mul]
    have hten : (10 : Rat) ^ d.exponent = 10 * 10 ^ (d.exponent - 1) := by
      rw [zpow_sub_one₀ (by norm_num)]
      ring
    have hnine : c.toRat ≤ 9 * 10 ^ (d.exponent - 1) :=
      toRat_le_nine (hdigits.trans hone) hexp
    have hbetween : Between k (9 * 10 ^ (d.exponent - 1)) := by
      refine hc.convex hpow hnine ?_
      have hpos : (0 : Rat) < 10 ^ (d.exponent - 1) := by positivity
      linarith
    have hbelow := h.power hmantissa hbetween
    rw [hd, abs_of_nonneg (by linarith), abs_of_nonpos (by linarith)]
    linarith

/-- The gaps are nowhere so narrow that `10 ^ (-324)` is too coarse a grid. -/
theorem exponent_ge (h : d.IsCoarsest k) : -324 ≤ d.exponent := by
  by_contra hlt
  have hstep : (10 : Rat) ^ (d.exponent + 1) ≤ 10 ^ (-324 : Int) :=
    zpow_le_zpow_right₀ (by norm_num) (by omega)
  -- The narrowest gap is that of the subnormal numbers.
  have hgap : (2 : Rat) ^ (-1074 : Int) ≤ 2 ^ exponentAt k := by
    apply zpow_le_zpow_right₀ (by norm_num)
    unfold exponentAt
    split_ifs <;> omega
  have hroom : (10 : Rat) ^ (-324 : Int) < 2 ^ (-1074 : Int) / 2 := by
    have hnat : 2 * 2 ^ 1074 < 10 ^ 324 := by decide +kernel
    have hcast : (2 : Rat) * 2 ^ 1074 < 10 ^ 324 := by exact_mod_cast hnat
    change ((10 : Rat) ^ 324)⁻¹ < (2 ^ 1074)⁻¹ / 2
    rw [div_eq_inv_mul, ← mul_inv]
    exact inv_strictAnti₀ (by positivity) hcast
  have hpos : (0 : Rat) < 10 ^ (d.exponent + 1) := by positivity
  have hlowpos : 0 ≤ lowerHalfway k := by
    unfold lowerHalfway magnitudeAt
    positivity
  have hpred : magnitudeAt (k - 1) ≤ magnitudeAt k :=
    strictMono_magnitudeAt.monotone (by omega)
  have hsucc := magnitudeAt_succ k
  -- The first grid point above the lower halfway point would lie between them.
  have hfloor := Nat.floor_le (div_nonneg hlowpos hpos.le)
  have hceil := Nat.lt_floor_add_one (lowerHalfway k / 10 ^ (d.exponent + 1))
  rw [le_div_iff₀ hpos] at hfloor
  rw [div_lt_iff₀ hpos] at hceil
  apply h.coarsest (⌊lowerHalfway k / 10 ^ (d.exponent + 1)⌋₊ + 1)
  push_cast
  have hbelow : (⌊lowerHalfway k / 10 ^ (d.exponent + 1)⌋₊ + 1 : Rat) * 10 ^ (d.exponent + 1) <
      upperHalfway k := by
    have hwidth : lowerHalfway k + 2 ^ exponentAt k / 2 ≤ upperHalfway k := by
      unfold lowerHalfway upperHalfway
      linarith
    linarith
  unfold Between
  split_ifs
  · exact ⟨hceil.le, hbelow.le⟩
  · exact ⟨hceil, hbelow⟩

/-- A decimal on the coarsest grid, the nearest one to the value, is the shortest decimal. -/
theorem isShortest (h : d.IsCoarsest k) (hk : k < overflow) (hsmall : d.mantissa < 10 ^ 17) :
    d.IsShortest k where
  between := h.between
  readsBack := roundsTo_of_between hk h.between
  positive := h.positive
  small := hsmall
  trimmed := h.trimmed
  fewest _ hc := h.fewest hc
  nearest c hc hdigits := by
    rcases lt_or_eq_of_le (h.exponent_le hc) with hexp | hexp
    · exact (h.lt_of_exponent_lt hc hexp hdigits).le
    · have hgrid : c.toRat = c.mantissa * 10 ^ d.exponent := by
        unfold toRat
        rw [hexp]
      rw [hgrid] at hc ⊢
      exact (h.nearest c.mantissa hc).1
  even c hc hdigits heq hne := by
    rcases lt_or_eq_of_le (h.exponent_le hc) with hexp | hexp
    · exact absurd heq (h.lt_of_exponent_lt hc hexp hdigits).ne
    · have hgrid : c.toRat = c.mantissa * 10 ^ d.exponent := by
        unfold toRat
        rw [hexp]
      rw [hgrid] at hc heq
      rcases (h.nearest c.mantissa hc).2 heq with hsame | heven
      · rw [hgrid, hsame] at hne
        exact absurd rfl hne
      · exact heven

end IsCoarsest

/-! ## There is one shortest decimal -/

section

variable {c d x : Decimal} {k : Nat}

/-- A decimal without zeros at its end is known by its number. -/
theorem eq_of_toRat_eq (hc : ¬10 ∣ c.mantissa) (hd : ¬10 ∣ d.mantissa) (h : c.toRat = d.toRat) :
    c = d := by
  have hexp : c.exponent = d.exponent := by
    by_contra hne
    wlog hlt : c.exponent < d.exponent generalizing c d
    · exact this hd hc h.symm (Ne.symm hne) (by omega)
    obtain ⟨n, hn⟩ := exists_toRat_eq (show c.exponent + 1 ≤ d.exponent by omega)
    have hmul : c.toRat = (n * 10 : Nat) * 10 ^ c.exponent := by
      rw [h, hn, zpow_add_one₀ (by norm_num)]
      push_cast
      ring
    exact hc ⟨n, by rw [← mantissa_eq_of_toRat_eq hmul, mul_comm]⟩
  have hgrid : c.toRat = d.mantissa * 10 ^ c.exponent := by
    rw [h, hexp]
    rfl
  have hmantissa := mantissa_eq_of_toRat_eq hgrid
  obtain ⟨n, e⟩ := c
  obtain ⟨m, f⟩ := d
  simp only at hexp hmantissa
  rw [hexp, hmantissa]

theorem IsShortest.digits_eq (hc : c.IsShortest k) (hd : d.IsShortest k) : c.digits = d.digits :=
  (hc.fewest d hd.between).antisymm (hd.fewest c hc.between)

/-- Two shortest decimals are equally near. Between them a decimal would be nearer, so it has more
digits. -/
theorem IsShortest.digits_lt (hc : c.IsShortest k) (hd : d.IsShortest k) (hcx : c.toRat < x.toRat)
    (hxd : x.toRat < d.toRat) : d.digits < x.digits := by
  have hdigits := hc.digits_eq hd
  have hx : Between k x.toRat := hc.between.convex hd.between hcx.le hxd.le
  have heq : |c.toRat - magnitudeAt k| = |d.toRat - magnitudeAt k| :=
    (hc.nearest d hd.between hdigits.symm).antisymm (hd.nearest c hc.between hdigits)
  apply lt_of_le_of_ne (hd.fewest x hx)
  intro hsame
  have hnear := hd.nearest x hx hsame.symm
  rcases abs_cases (c.toRat - magnitudeAt k) with ⟨h1, _⟩ | ⟨h1, _⟩ <;>
    rcases abs_cases (d.toRat - magnitudeAt k) with ⟨h2, _⟩ | ⟨h2, _⟩ <;>
    rcases abs_cases (x.toRat - magnitudeAt k) with ⟨h3, _⟩ | ⟨h3, _⟩ <;>
    linarith

/-- If there were two shortest decimals, both would be even. -/
theorem IsShortest.even_of_lt (hc : c.IsShortest k) (hd : d.IsShortest k)
    (hlt : c.toRat < d.toRat) : c.mantissa % 2 = 0 ∧ d.mantissa % 2 = 0 := by
  have hdigits := hc.digits_eq hd
  have heq : |c.toRat - magnitudeAt k| = |d.toRat - magnitudeAt k| :=
    (hc.nearest d hd.between hdigits.symm).antisymm (hd.nearest c hc.between hdigits)
  exact ⟨hc.even d hd.between hdigits.symm heq hlt.ne',
    hd.even c hc.between hdigits heq.symm hlt.ne⟩

/-- Decimals with one exponent are in the order of their mantissas. -/
theorem toRat_lt_iff (h : c.exponent = d.exponent) :
    c.toRat < d.toRat ↔ c.mantissa < d.mantissa := by
  have hpow : (0 : Rat) < 10 ^ d.exponent := by positivity
  unfold toRat
  rw [h, mul_lt_mul_iff_left₀ hpow, Nat.cast_lt]

theorem IsShortest.not_toRat_lt (hc : c.IsShortest k) (hd : d.IsShortest k) :
    ¬c.toRat < d.toRat := by
  intro hlt
  have hdigits := hc.digits_eq hd
  have hone : 1 ≤ d.digits := digitCount_pos d.mantissa
  obtain ⟨hevenc, hevend⟩ := hc.even_of_lt hd hlt
  rcases lt_trichotomy c.exponent d.exponent with hexp | hexp | hexp
  · -- A power of ten is not even, so it is not one of the two but stands between them.
    obtain ⟨power, hpower⟩ : ∃ power : Decimal, power = ⟨1, d.digits - 1 + d.exponent⟩ := ⟨_, rfl⟩
    have hm : power.mantissa = 1 := by rw [hpower]
    have hrat : power.toRat = 10 ^ (d.digits - 1 + d.exponent : Int) := by simp [hpower, toRat]
    have hne : power.toRat ≠ d.toRat := by
      intro heq
      rw [← eq_of_toRat_eq (by rw [hm]; decide) hd.trimmed heq, hm] at hevend
      contradiction
    have hbelow : power.toRat < d.toRat := lt_of_le_of_ne (hrat ▸ le_toRat hd.positive) hne
    have habove : c.toRat < power.toRat := hrat ▸ IsCoarsest.toRat_lt_pow hexp hdigits.le
    have hmore := hc.digits_lt hd habove hbelow
    have hsingle : power.digits = 1 := digitCount_of_lt (by rw [hm]; decide)
    omega
  · -- An odd number stands between two even ones.
    have hmantissa := (toRat_lt_iff hexp).mp hlt
    obtain ⟨odd, hodd⟩ : ∃ odd : Decimal, odd = ⟨c.mantissa + 1, c.exponent⟩ := ⟨_, rfl⟩
    have hm : odd.mantissa = c.mantissa + 1 := by rw [hodd]
    have he : odd.exponent = c.exponent := by rw [hodd]
    have hmore := hc.digits_lt hd ((toRat_lt_iff he.symm).mpr (by omega))
      ((toRat_lt_iff (he.trans hexp)).mpr (by omega))
    have hfew : odd.digits ≤ d.digits := by
      have hlast : d.mantissa < 10 ^ d.digits := lt_pow_digitCount d.mantissa
      exact (digitCount_le_iff hone).mpr (by omega)
    omega
  · have hpow := IsCoarsest.toRat_lt_pow hexp hdigits.ge
    have hle := le_toRat hc.positive
    linarith

/-- There is one shortest decimal only. -/
theorem IsShortest.unique (hc : c.IsShortest k) (hd : d.IsShortest k) : c = d :=
  eq_of_toRat_eq hc.trimmed hd.trimmed
    (le_antisymm (not_lt.mp (hd.not_toRat_lt hc)) (not_lt.mp (hc.not_toRat_lt hd)))

end

end Decimal

end FormattedOutput
