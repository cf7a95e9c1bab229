import FormattedOutput.Proofs.Decimal.Coarsest
import FormattedOutput.Proofs.Decimal.Scaling

/-!
# The shortest decimal is right

The scaled points of the search are the magnitude and its halfway points. So what the search ends
with is a decimal on the coarsest grid, and that makes it the shortest one. A whole number takes a
quicker way to the same decimal.
-/

namespace FormattedOutput

open Binary64

/-! ## Points as numbers -/

namespace Points

/-- What the number 1 of the points stands for. -/
def worth (x : Points) : Rat := 10 ^ x.exponent / x.unit

variable {x : Points}

theorem worth_pos (hx : x.Valid) : 0 < x.worth := by
  have hunit : (0 : Rat) < x.unit := by exact_mod_cast hx.unit_pos
  unfold worth
  positivity

theorem step_mul_worth (hx : x.Valid) (t : Nat) :
    (x.step t : Rat) * x.worth = 10 ^ (x.exponent + t) := by
  have hunit : (x.unit : Rat) ≠ 0 := by exact_mod_cast hx.unit_pos.ne'
  unfold worth step
  rw [zpow_add₀ (by norm_num), zpow_natCast]
  push_cast
  field_simp

end Points

/-! ## The interval of a place -/

namespace Interval

variable {fraction exponent : Nat}

theorem significandAt_place (hf : fraction < 2 ^ 52) :
    significandAt (place fraction exponent) = (ofFields fraction exponent).significand := by
  unfold significandAt place ofFields
  simp only
  split_ifs <;> omega

theorem exponentAt_place (hf : fraction < 2 ^ 52) :
    exponentAt (place fraction exponent) = (ofFields fraction exponent).exponent + 2 := by
  unfold exponentAt place ofFields
  simp only
  split_ifs <;> omega

/-- The gap below a magnitude is half as wide where the exponent goes up. -/
theorem exponentAt_pred_place (hf : fraction < 2 ^ 52) :
    exponentAt (place fraction exponent - 1) = (ofFields fraction exponent).exponent + 1 +
      (ofFields fraction exponent).lowerShift := by
  unfold exponentAt place ofFields
  simp only
  split_ifs <;> omega

theorem magnitudeAt_place (hf : fraction < 2 ^ 52) :
    magnitudeAt (place fraction exponent) = (ofFields fraction exponent).value *
      2 ^ (ofFields fraction exponent).exponent := by
  unfold magnitudeAt value
  rw [significandAt_place hf, exponentAt_place hf, zpow_add₀ (by norm_num)]
  push_cast
  ring

theorem upperHalfway_place (hf : fraction < 2 ^ 52) :
    upperHalfway (place fraction exponent) = (ofFields fraction exponent).upper *
      2 ^ (ofFields fraction exponent).exponent := by
  unfold upperHalfway
  rw [magnitudeAt_succ, magnitudeAt_place hf, exponentAt_place hf, zpow_add₀ (by norm_num)]
  unfold value upper
  push_cast
  ring

theorem lowerHalfway_place (hf : fraction < 2 ^ 52) (he : exponent ≤ 2046)
    (hpos : fraction ≠ 0 ∨ exponent ≠ 0) :
    lowerHalfway (place fraction exponent) = (ofFields fraction exponent).lower *
      2 ^ (ofFields fraction exponent).exponent := by
  have hsucc := magnitudeAt_succ (place fraction exponent - 1)
  rw [Nat.sub_add_cancel (by unfold place; omega), magnitudeAt_place hf,
    exponentAt_pred_place hf, zpow_add₀ (by norm_num), zpow_add₀ (by norm_num)] at hsucc
  have hrange := inRange_ofFields hf he hpos
  unfold lowerHalfway
  rw [magnitudeAt_place hf]
  generalize ofFields fraction exponent = i at *
  have hlower : i.lower + 1 + i.lowerShift = i.value := by
    have := hrange.significand_pos
    have := hrange.lowerShift_le
    unfold lower value
    omega
  have hcast : (i.lower : Rat) + 1 + i.lowerShift = i.value := by exact_mod_cast hlower
  have hshift : (2 : Rat) ^ (i.lowerShift : Int) = 1 + i.lowerShift := by
    have := hrange.lowerShift_le
    interval_cases i.lowerShift <;> norm_num
  rw [hshift] at hsucc
  linear_combination (-1 / 2) * hsucc - (2 : Rat) ^ i.exponent * hcast

/-! ## The scaled points of an interval -/

variable {i : Interval} {e : Nat}

theorem worth_pointsDown (i : Interval) (e : Nat) :
    ((2 ^ (e - tensBelow e) : Nat) : Rat) * (i.pointsDown e).worth = 2 ^ (e : Int) := by
  have hle := tensBelow_le e
  have hexp : (e : Int) = (e - tensBelow e : Nat) + (tensBelow e : Nat) := by omega
  -- The scale divides by the power of five, and the shift has the power of two in it.
  have hten : (10 : Rat) ^ tensBelow e = 2 ^ tensBelow e * 5 ^ tensBelow e := by
    rw [← mul_pow]
    norm_num
  unfold Points.worth pointsDown pointsBy
  simp only
  rw [hexp, zpow_add₀ (by norm_num), zpow_natCast, zpow_natCast, zpow_natCast, hten]
  push_cast
  field_simp

theorem worth_pointsUp (i : Interval) (e : Nat) :
    ((5 ^ (e - tensAbove e) : Nat) : Rat) * (i.pointsUp e).worth = 2 ^ (-(e : Int)) := by
  have hle := tensAbove_le e
  have hexp : (e : Int) = (e - tensAbove e : Nat) + (tensAbove e : Nat) := by omega
  have hten : (tensAbove e : Int) - e = -((e - tensAbove e : Nat) : Int) := by omega
  have hpow : (10 : Rat) ^ (e - tensAbove e) = 2 ^ (e - tensAbove e) * 5 ^ (e - tensAbove e) := by
    rw [← mul_pow]
    norm_num
  unfold Points.worth pointsUp pointsBy
  simp only
  rw [hten, hexp, zpow_neg, zpow_neg, zpow_add₀ (by norm_num), zpow_natCast, zpow_natCast,
    zpow_natCast, hpow]
  push_cast
  field_simp

/-- The scaled points are the points of the interval, times one number. -/
theorem exists_numerator (i : Interval) : ∃ n : Nat, 0 < n ∧ i.points.lower = i.lower * n ∧
    i.points.value = i.value * n ∧ i.points.upper = i.upper * n ∧
    (n : Rat) * i.points.worth = 2 ^ i.exponent := by
  unfold points
  split_ifs with hsign
  · refine ⟨2 ^ (i.exponent.toNat - tensBelow i.exponent.toNat), by positivity, rfl, rfl, rfl, ?_⟩
    rw [worth_pointsDown, Int.toNat_of_nonneg hsign]
  · refine ⟨5 ^ ((-i.exponent).toNat - tensAbove (-i.exponent).toNat), by positivity, rfl, rfl, rfl,
      ?_⟩
    rw [worth_pointsUp, Int.toNat_of_nonneg (by omega), neg_neg]

/-! ## The search for a place -/

variable (hf : fraction < 2 ^ 52) (he : exponent ≤ 2046) (hpos : fraction ≠ 0 ∨ exponent ≠ 0)
include hf

theorem magnitudeAt_eq_worth : magnitudeAt (place fraction exponent) =
    (ofFields fraction exponent).points.value * (ofFields fraction exponent).points.worth := by
  obtain ⟨n, _, _, hvalue, _, hworth⟩ := (ofFields fraction exponent).exists_numerator
  rw [magnitudeAt_place hf, hvalue, ← hworth]
  push_cast
  ring

include he hpos

/-- Between the halfway points of a place is what the scaled points admit. -/
theorem between_iff_admits (n : Nat) :
    Between (place fraction exponent) (n * (ofFields fraction exponent).points.worth) ↔
      (ofFields fraction exponent).points.Admits n := by
  have hworthpos := Points.worth_pos (valid_points (inRange_ofFields hf he hpos))
  have hlower := lowerHalfway_place hf he hpos
  have hupper := @upperHalfway_place fraction exponent hf
  obtain ⟨numerator, _, hl, _, hu, hworth⟩ := (ofFields fraction exponent).exists_numerator
  rw [← hworth, ← mul_assoc] at hlower hupper
  have hl' : ((ofFields fraction exponent).lower : Rat) * numerator =
      (ofFields fraction exponent).points.lower := by
    rw [hl]
    push_cast
    rfl
  have hu' : ((ofFields fraction exponent).upper : Rat) * numerator =
      (ofFields fraction exponent).points.upper := by
    rw [hu]
    push_cast
    rfl
  have hclosed : significandAt (place fraction exponent) % 2 = 0 ↔
      (ofFields fraction exponent).points.closed = true := by
    rw [closed_points, significandAt_place hf]
    unfold closed
    rw [decide_eq_true_eq]
  -- The common factor is positive, so it can be taken off both sides.
  unfold Between Points.Admits
  rw [hlower, hupper, hl', hu', mul_le_mul_iff_left₀ hworthpos, mul_le_mul_iff_left₀ hworthpos,
    mul_lt_mul_iff_left₀ hworthpos, mul_lt_mul_iff_left₀ hworthpos, Nat.cast_le, Nat.cast_le,
    Nat.cast_lt, Nat.cast_lt]
  exact iff_of_eq (if_congr hclosed rfl rfl)

end Interval

namespace Decimal

/-! ## The search ends on the coarsest grid -/

variable {fraction exponent : Nat}

/-- The smallest magnitudes have a decimal of one digit, but 1 only once. -/
theorem ofInterval_smallest : ∀ fraction < 10, 0 < fraction → fraction ≠ 2 →
    (ofInterval fraction 0).mantissa ≠ 1 := by
  decide +kernel

theorem ofInterval_two : ofInterval 2 0 = ⟨1, -323⟩ := by
  decide +kernel

variable (hf : fraction < 2 ^ 52) (he : exponent ≤ 2046) (hpos : fraction ≠ 0 ∨ exponent ≠ 0)
include hf he hpos

/-- Only the smallest magnitudes have two points of a grid around them of which one is `9 / 10` of
the other. -/
theorem smallest_of_between {r : Rat} (hnine : Between (place fraction exponent) (9 * r))
    (hten : Between (place fraction exponent) (10 * r)) : exponent = 0 ∧ fraction < 10 := by
  have hlow := hnine.bounds.1
  have hhigh := hten.bounds.2
  rw [Interval.lowerHalfway_place hf he hpos] at hlow
  rw [Interval.upperHalfway_place hf] at hhigh
  have hrange := Interval.inRange_ofFields hf he hpos
  have hpow : (0 : Rat) < 2 ^ (Interval.ofFields fraction exponent).exponent := by positivity
  have hcast : (10 * (Interval.ofFields fraction exponent).lower : Rat) ≤
      9 * (Interval.ofFields fraction exponent).upper := by
    rw [← mul_le_mul_iff_left₀ hpow]
    linarith
  have hle : 10 * (Interval.ofFields fraction exponent).lower ≤
      9 * (Interval.ofFields fraction exponent).upper := by exact_mod_cast hcast
  have hshift := hrange.lowerShift_le
  have hsignificand := hrange.significand_eq
  unfold Interval.lower Interval.upper at hle
  have hsmall : (Interval.ofFields fraction exponent).significand < 10 := by omega
  unfold Interval.ofFields at hsmall
  simp only at hsmall
  split_ifs at hsmall <;> omega

theorem power_ofInterval (hmantissa : (ofInterval fraction exponent).mantissa = 1)
    (hten : Between (place fraction exponent) (ofInterval fraction exponent).toRat)
    (hnine : Between (place fraction exponent)
      (9 * 10 ^ ((ofInterval fraction exponent).exponent - 1))) :
    19 * 10 ^ ((ofInterval fraction exponent).exponent - 1) <
      2 * magnitudeAt (place fraction exponent) := by
  have hrat : (ofInterval fraction exponent).toRat =
      10 * 10 ^ ((ofInterval fraction exponent).exponent - 1) := by
    unfold toRat
    rw [hmantissa, zpow_sub_one₀ (by norm_num)]
    push_cast
    ring
  rw [hrat] at hten
  obtain ⟨rfl, hsmall⟩ := smallest_of_between hf he hpos hnine hten
  -- Of the smallest magnitudes only the second one is written with the digit 1.
  have htwo : fraction = 2 := by
    by_contra hne
    exact ofInterval_smallest fraction hsmall (by omega) hne hmantissa
  rw [htwo, ofInterval_two]
  have hmagnitude : magnitudeAt (place 2 0) = 2 * 2 ^ (-1074 : Int) := rfl
  rw [hmagnitude]
  have hnat : 19 * 2 ^ 1074 < 4 * 10 ^ 324 := by decide +kernel
  have hcast : (19 : Rat) * 2 ^ 1074 < 4 * 10 ^ 324 := by exact_mod_cast hnat
  change (19 : Rat) * (10 ^ 324)⁻¹ < 2 * (2 * (2 ^ 1074)⁻¹)
  have htwopos : (0 : Rat) < 2 ^ 1074 := by positivity
  have htenpos : (0 : Rat) < 10 ^ 324 := by positivity
  generalize (2 : Rat) ^ 1074 = a at *
  generalize (10 : Rat) ^ 324 = b at *
  rw [← div_eq_mul_inv, ← mul_assoc, ← div_eq_mul_inv, div_lt_div_iff₀ htenpos htwopos]
  linarith

/-- The search ends on the coarsest grid. -/
theorem isCoarsest_ofInterval :
    (ofInterval fraction exponent).IsCoarsest (place fraction exponent) := by
  have hrange := Interval.inRange_ofFields hf he hpos
  have hx := Interval.valid_points hrange
  have hadmits := Interval.between_iff_admits hf he hpos
  have hvalue := @Interval.magnitudeAt_eq_worth fraction exponent hf
  have hpower := power_ofInterval hf he hpos
  obtain ⟨t, hfinished⟩ := finished_settled hx (Interval.starts_scale hrange)
  have heq : ofInterval fraction exponent =
      ⟨(Interval.ofFields fraction exponent).scale.settled.roundExact
        (Interval.ofFields fraction exponent).points.closed,
        (Interval.ofFields fraction exponent).points.exponent + t⟩ := by
    unfold ofInterval
    rw [Search.shortest_eq, ← hfinished.exponent, Interval.closed_points]
  rw [heq] at hpower ⊢
  generalize (Interval.ofFields fraction exponent).points = x at *
  generalize (Interval.ofFields fraction exponent).scale.settled = s at *
  -- The points of a grid are the multiples of a step, and distances are counted in units.
  have hgrid : ∀ n u : Nat, (n : Rat) * 10 ^ (x.exponent + u) =
      ((n * x.step u : Nat) : Rat) * x.worth := by
    intro n u
    rw [← Points.step_mul_worth hx]
    push_cast
    ring
  have hdistance : ∀ n : Nat, |(n : Rat) * x.worth - x.value * x.worth| =
      (|(n : Int) - x.value| : Int) * x.worth := by
    intro n
    rw [← sub_mul, abs_mul, abs_of_pos (Points.worth_pos hx)]
    push_cast
    rfl
  have hbetween : Between (place fraction exponent)
      (toRat ⟨s.roundExact x.closed, x.exponent + t⟩) := by
    unfold toRat
    rw [hgrid, hadmits]
    exact hfinished.admits_roundExact hx
  refine ⟨hbetween, ?_, ?_, ?_⟩
  · intro n
    have hnext : x.exponent + t + 1 = x.exponent + (t + 1 : Nat) := by
      push_cast
      ring
    simp only
    rw [hnext, hgrid, hadmits]
    exact hfinished.not_admits_coarser hx n
  · intro n hn
    simp only at hn ⊢
    rw [hgrid, hadmits] at hn
    obtain ⟨hle, heven⟩ := hfinished.roundExact_nearest hx hn
    unfold toRat
    rw [hgrid, hgrid, hvalue, hdistance, hdistance, mul_le_mul_iff_left₀ (Points.worth_pos hx),
      mul_left_inj' (Points.worth_pos hx).ne', Int.cast_le, Int.cast_inj]
    exact ⟨hle, heven⟩
  · intro hone hnine
    exact hpower hone hbetween hnine

theorem ofInterval_lt : (ofInterval fraction exponent).mantissa < 10 ^ 17 := by
  have hrange := Interval.inRange_ofFields hf he hpos
  have hx := Interval.valid_points hrange
  obtain ⟨t, hfinished⟩ := finished_settled hx (Interval.starts_scale hrange)
  have hwidth := hfinished.roundExact_mul_width_le hx
  obtain ⟨n, hn, hlower, _, hupper, _⟩ := (Interval.ofFields fraction exponent).exists_numerator
  unfold ofInterval
  rw [Search.shortest_eq, ← Interval.closed_points]
  rw [hlower, hupper, ← Nat.sub_mul] at hwidth
  generalize (Interval.ofFields fraction exponent).scale.settled.roundExact
    (Interval.ofFields fraction exponent).points.closed = m at *
  have hle : m * ((Interval.ofFields fraction exponent).upper -
      (Interval.ofFields fraction exponent).lower) ≤
      10 * (Interval.ofFields fraction exponent).upper := by
    apply Nat.le_of_mul_le_mul_right _ hn
    linarith
  -- Three units or four stand between the halfway points. That bounds the mantissa.
  have hwide : (Interval.ofFields fraction exponent).upper -
      (Interval.ofFields fraction exponent).lower =
      3 + (Interval.ofFields fraction exponent).lowerShift := by
    have := hrange.significand_pos
    have := hrange.lowerShift_le
    unfold Interval.upper Interval.lower
    omega
  rw [hwide] at hle
  have hlt := hrange.significand_lt
  have hshift := hrange.lowerShift_le
  have hsignificand := hrange.significand_eq
  unfold Interval.upper at hle
  rcases Nat.le_one_iff_eq_zero_or_eq_one.mp hshift with hzero | hone
  · rw [hzero] at hle
    rw [hsignificand hzero] at hle
    simp only
    omega
  · rw [hone] at hle
    simp only
    omega

/-! ## Whole numbers -/

omit hf he hpos

/-- Where the gaps are no wider than 1, the halfway points are no farther away than `1 / 2`. -/
theorem abs_sub_le_half {k : Nat} {r : Rat} (hk : 0 < k) (hgap : exponentAt k ≤ 0)
    (hgap' : exponentAt (k - 1) ≤ 0) (h : Between k r) : |r - magnitudeAt k| ≤ 1 / 2 := by
  obtain ⟨hlow, hhigh⟩ := h.bounds
  have hsucc := magnitudeAt_succ k
  have hpred := magnitudeAt_succ (k - 1)
  rw [Nat.sub_add_cancel hk] at hpred
  have hone : (2 : Rat) ^ exponentAt k ≤ 1 := zpow_le_one_of_nonpos₀ (by norm_num) hgap
  have hone' : (2 : Rat) ^ exponentAt (k - 1) ≤ 1 := zpow_le_one_of_nonpos₀ (by norm_num) hgap'
  unfold lowerHalfway at hlow
  unfold upperHalfway at hhigh
  rw [abs_le]
  constructor <;> linarith

theorem natCast_eq_of_abs_sub_le {m n : Nat} (h : |(m : Rat) - n| ≤ 1 / 2) : m = n := by
  have hlt : |(m : Rat) - n| < 1 := lt_of_le_of_lt h (by norm_num)
  have hint : |(m : Int) - n| < 1 := by exact_mod_cast hlt
  have hzero := Int.abs_lt_one_iff.mp hint
  omega

/-- Where the gaps are no wider than 1, a whole number without its zeros is on the coarsest
grid. -/
theorem isCoarsest_trim {k n : Nat} (hk : 0 < k) (hgap : exponentAt k ≤ 0)
    (hgap' : exponentAt (k - 1) ≤ 0) (hn : 0 < n) (hvalue : magnitudeAt k = n) :
    (trim ⟨n, 0⟩).IsCoarsest k := by
  have hrat : (trim ⟨n, 0⟩).toRat = n := by
    rw [toRat_trim]
    unfold toRat
    rw [zpow_zero, mul_one]
  have htrimmed : ¬10 ∣ (trim ⟨n, 0⟩).mantissa := not_ten_dvd_trim hn
  have hexp : 0 ≤ (trim ⟨n, 0⟩).exponent := le_exponent_trim ⟨n, 0⟩
  generalize trim ⟨n, 0⟩ = d at *
  refine ⟨?_, ?_, ?_, ?_⟩
  · rw [hrat, ← hvalue]
    exact between_magnitudeAt hk
  · intro m hm
    -- A point of the next grid is a whole number. So near to `n` it would be `n`.
    obtain ⟨e, he⟩ := Int.eq_ofNat_of_zero_le hexp
    have hcast : (m : Rat) * 10 ^ (d.exponent + 1) = ((m * 10 ^ (e + 1) : Nat) : Rat) := by
      rw [he, ← Nat.cast_succ, zpow_natCast]
      push_cast
      rfl
    have hnear := abs_sub_le_half hk hgap hgap' hm
    rw [hcast, hvalue] at hnear
    have heq := natCast_eq_of_abs_sub_le hnear
    apply htrimmed
    have hten : 10 * m = d.mantissa := by
      apply mantissa_eq_of_toRat_eq
      rw [hrat, ← heq, he, zpow_natCast]
      push_cast
      ring
    exact Dvd.intro m hten
  · intro m hm
    rw [hrat, hvalue, sub_self, abs_zero]
    refine ⟨abs_nonneg _, fun hzero => Or.inl (mantissa_eq_of_toRat_eq ?_)⟩
    rw [hrat]
    exact (sub_eq_zero.mp (abs_eq_zero.mp hzero.symm)).symm
  · intro hone _
    have hpos : (0 : Rat) < 10 ^ (d.exponent - 1) := by positivity
    have hten : (n : Rat) = 10 * 10 ^ (d.exponent - 1) := by
      rw [← hrat]
      unfold toRat
      rw [hone, zpow_sub_one₀ (by norm_num)]
      push_cast
      ring
    rw [hvalue, hten]
    linarith

/-- The quick way gives a whole number without its zeros. -/
theorem ofWholeNumber?_eq_some {d : Decimal} (hf : fraction < 2 ^ 52)
    (h : ofWholeNumber? fraction exponent = some d) : ∃ n : Nat, 0 < n ∧ n < 2 ^ 53 ∧
      magnitudeAt (place fraction exponent) = n ∧ d = trim ⟨n, 0⟩ ∧
      1023 ≤ exponent ∧ exponent ≤ 1075 := by
  unfold ofWholeNumber? at h
  simp only at h
  split_ifs at h with hcond
  obtain ⟨hge, hle, hzero⟩ := hcond
  obtain ⟨n, hn⟩ := Nat.dvd_of_mod_eq_zero hzero
  have hpow : 0 < 2 ^ (1075 - exponent) := Nat.pow_pos (by decide)
  have hnpos : 0 < n := by
    apply Nat.pos_of_ne_zero
    rintro rfl
    omega
  refine ⟨n, hnpos, ?_, ?_, ?_, hge, hle⟩
  · have hmul : n ≤ 2 ^ (1075 - exponent) * n := Nat.le_mul_of_pos_left n hpow
    omega
  · have hsignificand : significandAt (place fraction exponent) = 2 ^ 52 + fraction := by
      unfold significandAt place
      split_ifs <;> omega
    have hexponent : exponentAt (place fraction exponent) = -((1075 - exponent : Nat) : Int) := by
      unfold exponentAt place
      split_ifs <;> omega
    unfold magnitudeAt
    rw [hsignificand, hexponent, hn, zpow_neg, zpow_natCast]
    push_cast
    field_simp
  · rw [hn, Nat.mul_div_cancel_left _ hpow] at h
    exact (Option.some.inj h).symm

/-! ## The main result -/

theorem isCoarsest_shortest (hf : fraction < 2 ^ 52) (he : exponent ≤ 2046)
    (hpos : fraction ≠ 0 ∨ exponent ≠ 0) :
    (shortest fraction exponent).IsCoarsest (place fraction exponent) ∧
      (shortest fraction exponent).mantissa < 10 ^ 17 := by
  unfold shortest
  cases hwhole : ofWholeNumber? fraction exponent with
  | none => exact ⟨isCoarsest_ofInterval hf he hpos, ofInterval_lt hf he hpos⟩
  | some d =>
    obtain ⟨n, hn, hlt, hvalue, rfl, hge, hle⟩ := ofWholeNumber?_eq_some hf hwhole
    rw [Option.getD_some]
    constructor
    · apply isCoarsest_trim _ _ _ hn hvalue
      · unfold place
        omega
      · unfold exponentAt place
        split_ifs <;> omega
      · unfold exponentAt place
        split_ifs <;> omega
    · apply lt_of_le_of_lt (mantissa_trim_le ⟨n, 0⟩)
      exact lt_trans hlt (by norm_num)

/-- The shortest decimal of a finite magnitude other than zero reads back as that magnitude, no
shorter decimal does, and of the decimals of its length it is the nearest one. -/
theorem shortest_isShortest (fraction exponent : Nat) (hf : fraction < 2 ^ 52)
    (he : exponent ≤ 2046) (hpos : fraction ≠ 0 ∨ exponent ≠ 0) :
    (shortest fraction exponent).IsShortest (place fraction exponent) := by
  obtain ⟨hcoarsest, hsmall⟩ := isCoarsest_shortest hf he hpos
  apply hcoarsest.isShortest _ hsmall
  unfold place overflow
  omega

/-- One third, for one. -/
theorem shortest_isShortest_third :
    (shortest 0x5555555555555 1021).IsShortest (place 0x5555555555555 1021) :=
  shortest_isShortest 0x5555555555555 1021 (by decide) (by decide) (Or.inl (by decide))

end Decimal

end FormattedOutput
