import FormattedOutput.Proofs.Decimal.Cutting
import FormattedOutput.Proofs.Decimal.Divisors
import FormattedOutput.Proofs.PowerTable.Products
import Mathlib.Data.Nat.GCD.Basic
import Mathlib.Tactic.IntervalCases

/-!
# Scaling a value and its halfway points

A value and its halfway points are scaled by a power of ten, and cut down to whole numbers. What
the search starts with is true of the scaled points: the numbers are exact, and the flags say
whether something was cut off, wherever that can matter.
-/

namespace FormattedOutput

open PowerTable

/-! ## The intervals of binary64 values -/

namespace Interval

/-- An interval with the bounds that a finite value other than zero gives it. -/
structure InRange (i : Interval) : Prop where
  significand_pos : 0 < i.significand
  significand_lt : i.significand < 2 ^ 53
  lowerShift_le : i.lowerShift ≤ 1
  significand_eq : i.lowerShift = 0 → i.significand = 2 ^ 52
  exponent_ge : -1076 ≤ i.exponent
  exponent_le : i.exponent ≤ 969

theorem inRange_ofFields {fraction exponent : Nat} (hf : fraction < 2 ^ 52)
    (he : exponent ≤ 2046) (hpos : fraction ≠ 0 ∨ exponent ≠ 0) :
    (ofFields fraction exponent).InRange := by
  unfold ofFields
  constructor
  · simp only
    split_ifs <;> omega
  · simp only
    split_ifs <;> omega
  · simp only
    split_ifs <;> omega
  · simp only
    intro h
    split_ifs at h ⊢ <;> omega
  · simp only
    split_ifs <;> omega
  · simp only
    split_ifs <;> omega

variable {i : Interval} {e : Nat}

theorem InRange.lower_pos (h : i.InRange) : 0 < i.lower := by
  have := h.significand_pos
  have := h.lowerShift_le
  unfold lower
  omega

theorem InRange.upper_le (h : i.InRange) : i.upper ≤ scaledLimit := by
  have := h.significand_lt
  unfold upper scaledLimit
  omega

theorem lower_lt_value (h : i.InRange) : i.lower < i.value := by
  have := h.significand_pos
  unfold lower value
  omega

theorem value_lt_upper (i : Interval) : i.value < i.upper := by
  unfold value upper
  omega

/-! ## The scaled points -/

theorem tensBelow_le (e : Nat) : tensBelow e ≤ e := by
  unfold tensBelow floorLog10Two
  rw [Nat.shiftRight_eq_div_pow]
  omega

theorem tensAbove_le (e : Nat) : tensAbove e ≤ e := by
  unfold tensAbove floorLog10Five
  rw [Nat.shiftRight_eq_div_pow]
  omega

/-- The points, one unit of which is `numerator / denominator` times a power of ten. -/
def pointsBy (i : Interval) (numerator denominator : Nat) (exponent : Int) : Points where
  lower := i.lower * numerator
  value := i.value * numerator
  upper := i.upper * numerator
  unit := denominator
  exponent := exponent
  closed := i.closed

/-- The points of an interval whose unit is `2 ^ e`. -/
def pointsDown (i : Interval) (e : Nat) : Points :=
  i.pointsBy (2 ^ (e - tensBelow e)) (5 ^ tensBelow e) (tensBelow e)

/-- The points of an interval whose unit is `2 ^ (-e)`. -/
def pointsUp (i : Interval) (e : Nat) : Points :=
  i.pointsBy (5 ^ (e - tensAbove e)) (2 ^ tensAbove e) ((tensAbove e : Int) - e)

theorem valid_pointsBy (h : i.InRange) {numerator denominator : Nat} (hn : 0 < numerator)
    (hd : 0 < denominator) (exponent : Int) :
    (i.pointsBy numerator denominator exponent).Valid where
  unit_pos := hd
  lower_pos := Nat.mul_pos h.lower_pos hn
  lower_lt := Nat.mul_lt_mul_of_pos_right (lower_lt_value h) hn
  lt_upper := Nat.mul_lt_mul_of_pos_right i.value_lt_upper hn
  balanced := by
    have hle : 2 * i.value ≤ i.lower + i.upper := by
      have := h.significand_pos
      have := h.lowerShift_le
      unfold value lower upper
      omega
    calc 2 * (i.value * numerator) = 2 * i.value * numerator := by ring
      _ ≤ (i.lower + i.upper) * numerator := Nat.mul_le_mul_right _ hle
      _ = i.lower * numerator + i.upper * numerator := by ring

/-- The halfway points are three units apart, or four. -/
theorem three_mul_le_width (h : i.InRange) (numerator denominator : Nat) (exponent : Int) :
    (i.pointsBy numerator denominator exponent).lower + 3 * numerator ≤
      (i.pointsBy numerator denominator exponent).upper := by
  have hle : i.lower + 3 ≤ i.upper := by
    have := h.significand_pos
    unfold lower upper
    omega
  calc i.lower * numerator + 3 * numerator = (i.lower + 3) * numerator := by ring
    _ ≤ i.upper * numerator := Nat.mul_le_mul_right _ hle

end Interval

/-! ## The start of the search -/

namespace Points

/-- The points as whole multiples of their unit, without flags. -/
def start (x : Points) : Search where
  value := x.value / x.unit
  upper := x.upper / x.unit
  lower := x.lower / x.unit
  exponent := x.exponent

variable {x : Points}

theorem step_zero (x : Points) : x.step 0 = x.unit := by
  unfold step
  rw [pow_zero, mul_one]

/-- Whatever the flags are, they have to be right only where the next digit makes them matter. -/
theorem follows_start {upper : Nat} {lowerZeros valueZeros : Bool}
    (hupper : upper / 10 = x.last / 10)
    (hlower : 10 ∣ x.lower / x.unit → (lowerZeros = true ↔ x.LowerOnGrid 0))
    (hvalue : 5 ∣ x.value / x.unit → (valueZeros = true ↔ x.unit ∣ x.value)) :
    Follows x 0 { x.start with upper, lowerZeros, valueZeros } where
  exponent := by simp [start]
  value := by rw [step_zero]; rfl
  lower := by rw [step_zero]; rfl
  upper_div := hupper
  lowerZeros := hlower
  valueZeros := by
    rw [step_zero]
    simpa [start] using hvalue

theorem last_of_closed (h : x.closed = true) : x.last = x.upper / x.unit := by
  unfold last
  rw [if_pos h]

theorem upper_div_unit (hx : x.Valid) :
    x.upper / x.unit = (x.upper - 1) / x.unit + if x.unit ∣ x.upper then 1 else 0 := by
  have hpos : x.upper - 1 + 1 = x.upper := Nat.sub_add_cancel (Nat.zero_lt_of_lt hx.lt_upper)
  conv_lhs => rw [← hpos]
  rw [Nat.succ_div, hpos]

/-- The upper halfway point is the last point, unless it is on the grid and not inside. -/
theorem last_of_not_dvd (hx : x.Valid) (h : ¬x.unit ∣ x.upper) : x.last = x.upper / x.unit := by
  unfold last
  split_ifs
  · rfl
  · rw [upper_div_unit hx, if_neg h, add_zero]

theorem last_of_dvd (hx : x.Valid) (hopen : x.closed = false) (h : x.unit ∣ x.upper) :
    x.last = x.upper / x.unit - 1 := by
  unfold last
  rw [hopen, upper_div_unit hx, if_pos h]
  rfl

/-- For the next grid it does not matter what the upper halfway point is on the grid of units. -/
theorem last_div_ten (hx : x.Valid) (h : x.closed = true ∨ ¬x.unit * 10 ∣ x.upper) :
    x.last / 10 = x.upper / x.unit / 10 := by
  rcases h with hclosed | hten
  · rw [last_of_closed hclosed]
  · by_cases hopen : x.closed = true
    · rw [last_of_closed hopen]
    · by_cases hdvd : x.unit ∣ x.upper
      · rw [last_of_dvd hx (by simpa using hopen) hdvd]
        have hnot : ¬10 ∣ x.upper / x.unit := by
          intro hten'
          apply hten
          obtain ⟨k, hk⟩ := hdvd
          rw [hk, Nat.mul_div_cancel_left _ hx.unit_pos] at hten'
          rw [hk]
          exact Nat.mul_dvd_mul_left _ hten'
        generalize x.upper / x.unit = n at hnot
        omega
      · rw [last_of_not_dvd hx hdvd]

/-- Points that are more than one step of the next grid apart let the search cut a digit off. -/
theorem apart_of_width (hx : x.Valid) {s : Search} (h : Follows x 0 s)
    (hwidth : x.lower + 10 * x.unit < x.upper) : Apart s := by
  have hstep : x.step 1 = 10 * x.unit := by rw [step_succ, step_zero, mul_comm]
  have hle : x.lower / x.step 1 + 1 ≤ x.last / 10 ^ 1 := by
    have hmul := Nat.div_mul_le_self x.lower (x.step 1)
    rw [le_last_div_iff hx, add_mul, one_mul]
    split_ifs <;> omega
  have hlow : s.lower / 10 = x.lower / x.step 1 := by
    rw [h.lower]
    exact (div_step_succ x x.lower 0).symm
  have hhigh := h.upper_div
  unfold Apart
  rw [hlow, hhigh]
  exact hle

/-- So does a value that is on the next grid itself. -/
theorem apart_of_dvd (hx : x.Valid) {s : Search} (h : Follows x 0 s)
    (hdvd : x.unit * 10 ∣ x.value) : Apart s := by
  have hstep : x.step 1 = x.unit * 10 := by rw [step_succ, step_zero]
  have hlow : s.lower / 10 = x.lower / x.step 1 := by
    rw [h.lower]
    exact (div_step_succ x x.lower 0).symm
  have hlt : x.lower / x.step 1 < x.value / x.step 1 := by
    rw [hstep]
    exact Nat.div_lt_div_of_lt_of_dvd hdvd hx.lower_lt
  unfold Apart
  rw [hlow, h.upper_div]
  exact lt_of_lt_of_le hlt (value_div_le_last hx 1)

/-- On a grid of whole numbers nothing was cut off. -/
theorem shows_of_unit (hunit : x.unit = 1) {s : Search} (h : Follows x 0 s)
    (hupper : s.upper = x.last) (hzeros : s.lowerZeros = x.closed) (hdigit : s.lastDigit = 0) :
    Shows x 0 s where
  toFollows := h
  upper := by rw [hupper, pow_zero, Nat.div_one]
  lowerZeros_iff := by
    unfold LowerOnGrid
    rw [step_zero, hunit, hzeros]
    simp
  half_le := by
    rw [step_zero, hunit, hdigit, Nat.mod_one]
    simp
  half_eq := by
    rw [step_zero, hunit, hdigit, Nat.mod_one]
    simp

/-- No flag is needed for a lower halfway point that is not on the next grid. -/
theorem lowerZeros_of_not_dvd (h : x.closed = true → ¬x.unit * 10 ∣ x.lower)
    (hten : 10 ∣ x.lower / x.unit) : false = true ↔ x.LowerOnGrid 0 := by
  unfold LowerOnGrid
  rw [step_zero]
  constructor
  · intro hfalse
    contradiction
  · rintro ⟨hclosed, hdvd⟩
    exact absurd (Nat.mul_dvd_of_dvd_div hdvd hten) (h hclosed)

/-- No flag is needed for a value that can be no half of a step. -/
theorem valueZeros_of_not_dvd (h : ¬x.unit * 5 ∣ x.value) (hfive : 5 ∣ x.value / x.unit) :
    false = true ↔ x.unit ∣ x.value := by
  constructor
  · intro hfalse
    contradiction
  · intro hdvd
    exact absurd (Nat.mul_dvd_of_dvd_div hdvd hfive) h

end Points

/-! ## Scaling down -/

namespace Interval

open Points

variable {i : Interval} {e : Nat}

theorem five_pow_dvd_mul_iff (n q k : Nat) : 5 ^ q ∣ n * 2 ^ k ↔ 5 ^ q ∣ n :=
  Nat.Coprime.dvd_mul_right (Nat.Coprime.pow _ _ (by decide))

theorem five_pow_succ_dvd {n q k c : Nat} (h : 5 ^ q * (5 * c) ∣ n * 2 ^ k) :
    5 ^ (q + 1) ∣ n := by
  rw [← five_pow_dvd_mul_iff n (q + 1) k]
  apply dvd_trans _ h
  rw [pow_succ, ← mul_assoc]
  exact Dvd.intro _ rfl

/-- A power of five that is too large for a flag, or one more factor 5 beside a value that has
one. -/
def Crowded (i : Interval) (q : Nat) : Prop := 21 < q ∨ 5 ∣ i.value

theorem Crowded.dvd {q n : Nat} (h : i.Crowded q) (hdvd : 5 ^ (q + 1) ∣ n) :
    11920928955078125 ∣ n ∨ 5 ∣ i.value ∧ 5 ∣ n := by
  rcases h with hq | hfive
  · left
    rw [show 11920928955078125 = 5 ^ 23 by norm_num]
    exact dvd_trans (Nat.pow_dvd_pow 5 (by omega)) hdvd
  · exact Or.inr ⟨hfive, dvd_trans (dvd_pow_self 5 (Nat.succ_ne_zero q)) hdvd⟩

/-- The upper halfway point could be on the next grid for one significand only, and that one is
even. -/
theorem not_five_pow_dvd_upper (h : i.InRange) {q : Nat} (hq : i.Crowded q)
    (hopen : i.closed = false) : ¬5 ^ (q + 1) ∣ i.upper := by
  intro hdvd
  have hlt := h.significand_lt
  have hodd : i.significand % 2 = 1 := by simpa [closed] using hopen
  rcases hq.dvd hdvd with ⟨c, hc⟩ | ⟨hvalue, hupper⟩
  · clear hdvd
    unfold upper at hc
    have hsmall : c < 4 := by linarith
    -- No more than four multiples are small enough to be tried.
    interval_cases c <;> omega
  · unfold upper at hupper
    unfold value at hvalue
    omega

/-- The lower halfway point could be on the next grid for one significand only, and that one is
odd. -/
theorem not_five_pow_dvd_lower (h : i.InRange) {q : Nat} (hq : i.Crowded q)
    (hclosed : i.closed = true) : ¬5 ^ (q + 1) ∣ i.lower := by
  intro hdvd
  have hlt := h.significand_lt
  have hpos := h.significand_pos
  have hshift := h.lowerShift_le
  have heq := h.significand_eq
  have heven : i.significand % 2 = 0 := by simpa [closed] using hclosed
  rcases hq.dvd hdvd with ⟨c, hc⟩ | ⟨hvalue, hlower⟩
  · clear hdvd
    unfold lower at hc
    have hle : 11920928955078125 * c ≤ 4 * i.significand := by omega
    have hsmall : c < 4 := by linarith
    interval_cases c <;> omega
  · clear hdvd
    unfold lower at hlower
    unfold value at hvalue
    omega

theorem not_five_pow_dvd_value (h : i.InRange) {q : Nat} (hq : 21 < q) :
    ¬5 ^ (q + 1) ∣ i.value := by
  intro hdvd
  have hlt := h.significand_lt
  have hpos := h.significand_pos
  have hpow : 5 ^ 23 ∣ i.value := dvd_trans (Nat.pow_dvd_pow 5 (by omega)) hdvd
  obtain ⟨c, hc⟩ := hpow
  clear hdvd
  unfold value at hc
  have hsmall : c < 4 := by linarith
  interval_cases c <;> omega

theorem scaled_inverse (h : i.InRange) (he : e < 970) :
    i.scaled (inverse (tensBelow e)) (downward e).shift (tensBelow e) =
      (i.pointsDown e).start := by
  have hlower := h.lower_pos
  have hlv := lower_lt_value h
  have hvu := i.value_lt_upper
  have hlimit := h.upper_le
  unfold scaled
  rw [shiftedProduct_inverse he (by omega) (by omega), shiftedProduct_inverse he (by omega) hlimit,
    shiftedProduct_inverse he hlower (by omega)]
  rfl

theorem valid_pointsDown (h : i.InRange) (e : Nat) : (i.pointsDown e).Valid :=
  valid_pointsBy h (Nat.pow_pos (by decide)) (Nat.pow_pos (by decide)) _

/-- The upper halfway point counts, or it is not on the next grid. -/
theorem closed_or_not_dvd_upper (h : i.InRange) (hq : i.Crowded (tensBelow e)) :
    (i.pointsDown e).closed = true ∨ ¬(i.pointsDown e).unit * 10 ∣ (i.pointsDown e).upper := by
  by_cases hclosed : i.closed = true
  · exact Or.inl hclosed
  · right
    intro hdvd
    exact not_five_pow_dvd_upper h hq (by simpa using hclosed) (@five_pow_succ_dvd _ _ _ 2 hdvd)

/-- A lower halfway point that counts is not on the next grid. -/
theorem not_dvd_lower_of_crowded (h : i.InRange) (hq : i.Crowded (tensBelow e))
    (hclosed : (i.pointsDown e).closed = true) :
    ¬(i.pointsDown e).unit * 10 ∣ (i.pointsDown e).lower := by
  intro hdvd
  exact not_five_pow_dvd_lower h hq hclosed (@five_pow_succ_dvd _ _ _ 2 hdvd)

/-- A value without a factor 5 is in the middle between no two points of a grid. -/
theorem not_dvd_value_of_mod_five (hfive : ¬i.value % 5 = 0) :
    ¬(i.pointsDown e).unit * 5 ∣ (i.pointsDown e).value := by
  intro hdvd
  have hdvd' : 5 ^ (tensBelow e + 1) ∣ i.value := @five_pow_succ_dvd _ _ _ 1 hdvd
  exact hfive (Nat.mod_eq_zero_of_dvd (dvd_trans (dvd_pow_self 5 (Nat.succ_ne_zero _)) hdvd'))

/-- The search by a product with an inverse power starts at the points, rounded down, with flags
that are right where they matter. -/
theorem follows_scaleDown (h : i.InRange) (he : e < 970) :
    Follows (i.pointsDown e) 0 (i.scaleDown e) := by
  have hx := valid_pointsDown h e
  have hlower := h.lower_pos
  have hlv := lower_lt_value h
  have hvu := i.value_lt_upper
  have hlimit : i.upper < 2 ^ 64 := lt_of_le_of_lt h.upper_le (by decide)
  unfold scaleDown
  simp only
  rw [show i.scaled (inverse (tensBelow e))
    (tensBelow e + (storedBits + powerBits (tensBelow e) - 1) - e) (tensBelow e) =
      (i.pointsDown e).start from scaled_inverse h he]
  -- Each case tries one of the three points for its fives. The others need no flag there.
  split_ifs with hq hfive hclosed hfives
  · have hcrowded : i.Crowded (tensBelow e) := Or.inr (Nat.dvd_of_mod_eq_zero hfive)
    apply follows_start
    · exact (last_div_ten hx (closed_or_not_dvd_upper h hcrowded)).symm
    · exact lowerZeros_of_not_dvd (not_dvd_lower_of_crowded h hcrowded)
    · intro _
      rw [hasFives_iff (by omega) (by omega)]
      exact (five_pow_dvd_mul_iff _ _ _).symm
  · apply follows_start
    · rw [last_of_closed hclosed]
      rfl
    · intro _
      unfold LowerOnGrid
      rw [hasFives_iff hlower (by omega), step_zero]
      exact (five_pow_dvd_mul_iff _ _ _).symm.trans (iff_and_self.mpr fun _ => hclosed)
    · exact valueZeros_of_not_dvd (not_dvd_value_of_mod_five hfive)
  · have hopen : i.closed = false := by simpa using hclosed
    have hdvd : (i.pointsDown e).unit ∣ (i.pointsDown e).upper := by
      rw [hasFives_iff (by omega) hlimit] at hfives
      exact (five_pow_dvd_mul_iff _ _ _).mpr hfives
    apply follows_start
    · rw [last_of_dvd hx hopen hdvd]
      rfl
    · exact lowerZeros_of_not_dvd fun h => absurd h hclosed
    · exact valueZeros_of_not_dvd (not_dvd_value_of_mod_five hfive)
  · have hdvd : ¬(i.pointsDown e).unit ∣ (i.pointsDown e).upper := by
      intro hdvd
      rw [hasFives_iff (by omega) hlimit] at hfives
      exact hfives ((five_pow_dvd_mul_iff _ _ _).mp hdvd)
    apply follows_start
    · rw [last_of_not_dvd hx hdvd]
    · exact lowerZeros_of_not_dvd fun h => absurd h hclosed
    · exact valueZeros_of_not_dvd (not_dvd_value_of_mod_five hfive)
  · have hcrowded : i.Crowded (tensBelow e) := Or.inl (by omega)
    apply follows_start
    · exact (last_div_ten hx (closed_or_not_dvd_upper h hcrowded)).symm
    · exact lowerZeros_of_not_dvd (not_dvd_lower_of_crowded h hcrowded)
    · apply valueZeros_of_not_dvd
      intro hdvd
      exact not_five_pow_dvd_value h (by omega) (@five_pow_succ_dvd _ _ _ 1 hdvd)

/-- From the exponent 4 on the power of ten leaves room for two digits between the halfway
points. -/
theorem tensBelow_room : ∀ e < 970, 4 ≤ e → 10 * 5 ^ tensBelow e < 3 * 2 ^ (e - tensBelow e) := by
  decide +kernel

/-- The smallest exponents need no power of ten. The value is a multiple of 10 then, or all the
flags are right at once. -/
theorem shows_scaleDown (h : i.InRange) (he : e < 4) :
    Apart (i.scaleDown e) ∨
      Shows (i.pointsDown e) 0 (i.scaleDown e) ∧ Nonempty (i.scaleDown e) := by
  have hx := valid_pointsDown h e
  have hfollows := follows_scaleDown h (show e < 970 by omega)
  have hzero : tensBelow e = 0 := by
    interval_cases e <;> rfl
  have hunit : (i.pointsDown e).unit = 1 := by
    change 5 ^ tensBelow e = 1
    rw [hzero, pow_zero]
  have hinside : (i.pointsDown e).lower < (i.pointsDown e).last := by
    have hle := value_div_le_last hx 0
    rw [step_zero, hunit, pow_zero, Nat.div_one, Nat.div_one] at hle
    exact lt_of_lt_of_le hx.lower_lt hle
  -- A value that is a multiple of 10 lets the search cut a digit off.
  by_cases hfive : i.value % 5 = 0
  · left
    apply apart_of_dvd hx hfollows
    rw [hunit, one_mul]
    apply Dvd.dvd.mul_right
    unfold value at hfive ⊢
    omega
  · right
    have hlowerNat : (i.scaleDown e).lower = (i.pointsDown e).lower := by
      rw [hfollows.lower, step_zero, hunit, Nat.div_one]
    have hflags : (i.scaleDown e).upper = (i.pointsDown e).last ∧
        (i.scaleDown e).lowerZeros = i.closed ∧ (i.scaleDown e).lastDigit = 0 := by
      unfold scaleDown
      simp only
      rw [show i.scaled (inverse (tensBelow e))
        (tensBelow e + (storedBits + powerBits (tensBelow e) - 1) - e) (tensBelow e) =
          (i.pointsDown e).start from scaled_inverse h (by omega),
        if_pos (by omega : tensBelow e ≤ 21), if_neg hfive]
      split_ifs with hclosed hfives
      · refine ⟨(last_of_closed hclosed).symm, ?_, rfl⟩
        rw [hclosed, hzero]
        rfl
      · have hopen : i.closed = false := by simpa using hclosed
        refine ⟨(last_of_dvd hx hopen ?_).symm, hopen.symm, rfl⟩
        rw [hunit]
        exact one_dvd _
      · rw [hzero] at hfives
        exact absurd rfl hfives
    refine ⟨shows_of_unit hunit hfollows hflags.1 hflags.2.1 hflags.2.2, Or.inl ?_⟩
    rw [hlowerNat, hflags.1]
    exact hinside

theorem starts_scaleDown (h : i.InRange) (he : e < 970) :
    Follows (i.pointsDown e) 0 (i.scaleDown e) ∧ Apart (i.scaleDown e) ∨
      Shows (i.pointsDown e) 0 (i.scaleDown e) ∧ Nonempty (i.scaleDown e) := by
  have hfollows := follows_scaleDown h he
  rcases Nat.lt_or_ge e 4 with hsmall | hlarge
  · rcases shows_scaleDown h hsmall with hapart | hshows
    · exact Or.inl ⟨hfollows, hapart⟩
    · exact Or.inr hshows
  · left
    refine ⟨hfollows, apart_of_width (valid_pointsDown h e) hfollows ?_⟩
    have hwidth := three_mul_le_width h (2 ^ (e - tensBelow e)) (5 ^ tensBelow e) (tensBelow e)
    have hroom := tensBelow_room e he hlarge
    exact lt_of_lt_of_le (Nat.add_lt_add_left hroom _) hwidth

/-! ## Scaling up -/

theorem two_pow_dvd_mul_iff (n q k : Nat) : 2 ^ q ∣ n * 5 ^ k ↔ 2 ^ q ∣ n :=
  Nat.Coprime.dvd_mul_right (Nat.Coprime.pow _ _ (by decide))

theorem valid_pointsUp (h : i.InRange) (e : Nat) : (i.pointsUp e).Valid :=
  valid_pointsBy h (Nat.pow_pos (by decide)) (Nat.pow_pos (by decide)) _

theorem scaled_power (h : i.InRange) (he : e < 1077) :
    i.scaled (power (e - tensAbove e)) (upward e).shift ((tensAbove e : Int) - e) =
      (i.pointsUp e).start := by
  have hlower := h.lower_pos
  have hlv := lower_lt_value h
  have hvu := i.value_lt_upper
  have hlimit := h.upper_le
  unfold scaled
  rw [shiftedProduct_power he (by omega) (by omega), shiftedProduct_power he (by omega) hlimit,
    shiftedProduct_power he hlower (by omega)]
  rfl

/-- A higher power of two divides neither halfway point. -/
theorem not_four_dvd (h : i.InRange) : ¬4 ∣ i.upper ∧ ¬4 ∣ i.lower := by
  have := h.significand_pos
  have := h.lowerShift_le
  unfold upper lower
  omega

theorem not_two_pow_dvd {n : Nat} (hq : 2 ≤ tensAbove e) (hn : ¬4 ∣ n) :
    ¬2 ^ tensAbove e ∣ n * 5 ^ (e - tensAbove e) := by
  intro hdvd
  rw [two_pow_dvd_mul_iff] at hdvd
  exact hn (dvd_trans (Nat.pow_dvd_pow 2 hq) hdvd)

theorem two_pow_dvd {n : Nat} (hq : tensAbove e ≤ 1) (hn : 2 ∣ n) :
    2 ^ tensAbove e ∣ n * 5 ^ (e - tensAbove e) := by
  rw [two_pow_dvd_mul_iff]
  exact dvd_trans (Nat.pow_dvd_pow 2 hq) hn

theorem last_pointsUp (h : i.InRange) (hq : 2 ≤ tensAbove e) :
    (i.pointsUp e).last = (i.pointsUp e).start.upper :=
  last_of_not_dvd (valid_pointsUp h e) (not_two_pow_dvd hq (not_four_dvd h).1)

theorem not_dvd_lower_pointsUp (h : i.InRange) (hq : 2 ≤ tensAbove e) :
    ¬(i.pointsUp e).unit * 10 ∣ (i.pointsUp e).lower := by
  intro hdvd
  exact not_two_pow_dvd hq (not_four_dvd h).2 (dvd_trans (Dvd.intro _ rfl) hdvd)

/-- With a unit of at most 2 only a whole gap puts the lower halfway point on the next grid. -/
theorem lowerShift_eq_iff (h : i.InRange) (hq : tensAbove e ≤ 1) (hclosed : i.closed = true)
    (hten : 10 ∣ (i.pointsUp e).lower / (i.pointsUp e).unit) :
    i.lowerShift = 1 ↔ (i.pointsUp e).LowerOnGrid 0 := by
  have := h.significand_pos
  have := h.lowerShift_le
  unfold LowerOnGrid
  rw [step_zero]
  constructor
  · intro hshift
    refine ⟨hclosed, two_pow_dvd hq ?_⟩
    unfold lower
    omega
  · rintro ⟨_, hdvd⟩
    -- A half gap makes the lower halfway point odd, and an odd number is on no next grid.
    have heven : 2 ∣ i.lower := by
      rw [← pow_one 2, ← two_pow_dvd_mul_iff i.lower 1 (e - tensAbove e), pow_one]
      exact dvd_trans (by decide) (dvd_trans (Dvd.intro_left _ rfl)
        (Nat.mul_dvd_of_dvd_div hdvd hten))
    unfold lower at heven
    omega

/-- A power of two beyond 62 is too large to divide a value. -/
theorem not_dvd_value_pointsUp (h : i.InRange) (hlarge : 63 ≤ tensAbove e) :
    ¬(i.pointsUp e).unit * 5 ∣ (i.pointsUp e).value := by
  intro hdvd
  have hpow : 2 ^ tensAbove e ∣ i.value :=
    (two_pow_dvd_mul_iff _ _ _).mp (dvd_trans (Dvd.intro _ rfl) hdvd)
  have hpos : 0 < i.value := by
    have := h.significand_pos
    unfold value
    omega
  have hle := Nat.le_of_dvd hpos (dvd_trans (Nat.pow_dvd_pow 2 hlarge) hpow)
  have hlt := h.significand_lt
  unfold value at hle
  omega

/-- The search by a product with a power starts at the points, rounded down, with flags that are
right where they matter. -/
theorem follows_scaleUp (h : i.InRange) (he : e < 1077) :
    Follows (i.pointsUp e) 0 (i.scaleUp e) := by
  have hx := valid_pointsUp h e
  have hvalue : 2 ∣ i.value := by
    unfold value
    omega
  have hupper : 2 ∣ i.upper := by
    unfold upper
    omega
  unfold scaleUp
  simp only
  rw [show i.scaled (power (e - tensAbove e))
    (tensAbove e + storedBits - powerBits (e - tensAbove e)) ((tensAbove e : Int) - e) =
      (i.pointsUp e).start from scaled_power h he]
  -- A unit of 1 or 2 divides the upper halfway point, any other divides neither of the two.
  split_ifs with hq hclosed hlarge
  · apply follows_start
    · rw [last_of_closed hclosed]
      rfl
    · intro hten
      rw [decide_eq_true_eq]
      exact lowerShift_eq_iff h hq hclosed hten
    · intro _
      exact iff_of_true rfl (two_pow_dvd hq hvalue)
  · have hopen : i.closed = false := by simpa using hclosed
    apply follows_start
    · rw [last_of_dvd hx hopen (two_pow_dvd hq hupper)]
      rfl
    · exact lowerZeros_of_not_dvd fun h => absurd h hclosed
    · intro _
      exact iff_of_true rfl (two_pow_dvd hq hvalue)
  · have htwo : 2 ≤ tensAbove e := by omega
    apply follows_start
    · rw [last_pointsUp h htwo]
    · exact lowerZeros_of_not_dvd fun _ => not_dvd_lower_pointsUp h htwo
    · intro _
      rw [hasTwos_iff]
      exact (two_pow_dvd_mul_iff _ _ _).symm
  · have htwo : 2 ≤ tensAbove e := by omega
    apply follows_start
    · rw [last_pointsUp h htwo]
      rfl
    · exact lowerZeros_of_not_dvd fun _ => not_dvd_lower_pointsUp h htwo
    · exact valueZeros_of_not_dvd (not_dvd_value_pointsUp h (by omega))

/-- The power of ten leaves room for a digit between the halfway points. -/
theorem tensAbove_room : ∀ e < 1077, 0 < e → 10 * 2 ^ tensAbove e < 3 * 5 ^ (e - tensAbove e) := by
  decide +kernel

theorem apart_scaleUp (h : i.InRange) (hpos : 0 < e) (he : e < 1077) : Apart (i.scaleUp e) := by
  apply apart_of_width (valid_pointsUp h e) (follows_scaleUp h he)
  have hwidth := three_mul_le_width h (5 ^ (e - tensAbove e)) (2 ^ tensAbove e)
    ((tensAbove e : Int) - e)
  have hroom := tensAbove_room e he hpos
  exact lt_of_lt_of_le (Nat.add_lt_add_left hroom _) hwidth

/-! ## Both ways -/

/-- The scaled points of an interval. -/
def points (i : Interval) : Points :=
  if 0 ≤ i.exponent then i.pointsDown i.exponent.toNat else i.pointsUp (-i.exponent).toNat

theorem valid_points (h : i.InRange) : i.points.Valid := by
  unfold points
  split_ifs
  · exact valid_pointsDown h _
  · exact valid_pointsUp h _

theorem closed_points (i : Interval) : i.points.closed = i.closed := by
  unfold points
  split_ifs <;> rfl

/-- The search starts out true of the scaled points. -/
theorem starts_scale (h : i.InRange) :
    Follows i.points 0 i.scale ∧ Apart i.scale ∨ Shows i.points 0 i.scale ∧ Nonempty i.scale := by
  have hge := h.exponent_ge
  have hle := h.exponent_le
  unfold points scale
  split_ifs
  · exact starts_scaleDown h (by omega)
  · exact Or.inl ⟨follows_scaleUp h (by omega), apart_scaleUp h (by omega) (by omega)⟩

end Interval

end FormattedOutput
