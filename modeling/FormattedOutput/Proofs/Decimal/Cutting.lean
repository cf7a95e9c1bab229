import FormattedOutput.Decimal.Shortest
import Mathlib.Tactic.Linarith
import Mathlib.Tactic.Ring

/-!
# Cutting digits off three points

A value and its halfway points are whole numbers over one unit. The search cuts digits off all
three and keeps flags about what it has cut off. However many digits are gone, its numbers and
flags tell the truth about the three points. So in the end it has the coarsest decimal grid with a
point between the halfway points, and of these points the nearest one to the value.
-/

namespace FormattedOutput

/-- A value and its halfway points as whole numbers. A `unit` of them is `10 ^ exponent`. -/
structure Points where
  lower : Nat
  value : Nat
  upper : Nat
  unit : Nat
  exponent : Int
  /-- The halfway points are inside. -/
  closed : Bool

namespace Points

/-- The value lies between its halfway points, and the upper one is at least as far away. -/
structure Valid (x : Points) : Prop where
  unit_pos : 0 < x.unit
  lower_pos : 0 < x.lower
  lower_lt : x.lower < x.value
  lt_upper : x.value < x.upper
  balanced : 2 * x.value ≤ x.lower + x.upper

/-- A number is inside. -/
def Admits (x : Points) (n : Nat) : Prop :=
  if x.closed then x.lower ≤ n ∧ n ≤ x.upper else x.lower < n ∧ n < x.upper

/-- One step of the grid that is left when `t` digits are cut off. -/
def step (x : Points) (t : Nat) : Nat := x.unit * 10 ^ t

/-- The last multiple of the unit that is not above the inside. -/
def last (x : Points) : Nat :=
  if x.closed then x.upper / x.unit else (x.upper - 1) / x.unit

/-- The lower halfway point is inside and on the grid. -/
def LowerOnGrid (x : Points) (t : Nat) : Prop :=
  x.closed = true ∧ x.step t ∣ x.lower

variable {x : Points} {t n : Nat}

/-! ## The grids -/

theorem step_pos (h : x.Valid) (t : Nat) : 0 < x.step t :=
  Nat.mul_pos h.unit_pos (Nat.pow_pos (by decide))

theorem step_succ (x : Points) (t : Nat) : x.step (t + 1) = x.step t * 10 := by
  unfold step
  rw [pow_succ, mul_assoc]

theorem div_step_succ (x : Points) (n t : Nat) : n / x.step (t + 1) = n / x.step t / 10 := by
  rw [step_succ, Nat.div_div_eq_div_mul]

theorem div_unit_div (x : Points) (n t : Nat) : n / x.unit / 10 ^ t = n / x.step t := by
  rw [Nat.div_div_eq_div_mul]
  rfl

theorem step_succ_dvd_iff (h : x.Valid) :
    x.step (t + 1) ∣ n ↔ x.step t ∣ n ∧ 10 ∣ n / x.step t := by
  rw [step_succ]
  constructor
  · rintro ⟨k, rfl⟩
    refine ⟨Dvd.intro (10 * k) (by ring), ?_⟩
    rw [mul_assoc, Nat.mul_div_cancel_left _ (step_pos h t)]
    exact Dvd.intro k rfl
  · rintro ⟨⟨k, rfl⟩, hten⟩
    rw [Nat.mul_div_cancel_left _ (step_pos h t)] at hten
    exact Nat.mul_dvd_mul_left _ hten

/-- The digit that a cut takes off is 5 or more just if what is cut off is half a step or more. -/
theorem five_le_digit_iff (h : x.Valid) (n t : Nat) :
    5 ≤ n / x.step t % 10 ↔ x.step (t + 1) ≤ 2 * (n % x.step (t + 1)) := by
  have hsmall : n % x.step t < x.step t := Nat.mod_lt _ (step_pos h t)
  rw [step_succ, Nat.mod_mul]
  generalize n / x.step t % 10 = digit
  constructor
  · intro hdigit
    have hmul : x.step t * 5 ≤ x.step t * digit := Nat.mul_le_mul_left _ hdigit
    omega
  · intro hle
    by_contra hdigit
    have hmul : x.step t * digit ≤ x.step t * 4 := Nat.mul_le_mul_left _ (by omega)
    omega

/-- It is half a step exactly if the digit is 5 and nothing but zeros was cut off before. -/
theorem half_step_iff (h : x.Valid) (n t : Nat) :
    x.step (t + 1) = 2 * (n % x.step (t + 1)) ↔ x.step t ∣ n ∧ n / x.step t % 10 = 5 := by
  have hsmall : n % x.step t < x.step t := Nat.mod_lt _ (step_pos h t)
  rw [step_succ, Nat.mod_mul, Nat.dvd_iff_mod_eq_zero]
  generalize n / x.step t % 10 = digit
  constructor
  · intro heq
    have hfive : digit = 5 := by
      -- Any other digit misses the half by more than the rest can make up for.
      rcases Nat.lt_trichotomy digit 5 with hlt | heq' | hgt
      · have hmul : x.step t * digit ≤ x.step t * 4 := Nat.mul_le_mul_left _ (by omega)
        omega
      · exact heq'
      · have hmul : x.step t * 6 ≤ x.step t * digit := Nat.mul_le_mul_left _ (by omega)
        omega
    subst hfive
    omega
  · rintro ⟨hrest, rfl⟩
    omega

theorem lowerOnGrid_succ_iff (h : x.Valid) :
    x.LowerOnGrid (t + 1) ↔ x.LowerOnGrid t ∧ 10 ∣ x.lower / x.step t := by
  unfold LowerOnGrid
  rw [step_succ_dvd_iff h]
  tauto

/-- A grid point is not above the inside just if it is not above the last one. -/
theorem le_last_div_iff (h : x.Valid) :
    n ≤ x.last / 10 ^ t ↔
      if x.closed then n * x.step t ≤ x.upper else n * x.step t < x.upper := by
  have hupper : 0 < x.upper := by have := h.lt_upper; omega
  unfold last
  split_ifs
  · rw [div_unit_div, Nat.le_div_iff_mul_le (step_pos h t)]
  · rw [div_unit_div, Nat.le_div_iff_mul_le (step_pos h t), Nat.lt_iff_le_pred hupper]

/-- The grid points inside, told by what is left of the points when `t` digits are cut off. -/
theorem admits_mul_step_iff (h : x.Valid) :
    x.Admits (n * x.step t) ↔
      (x.lower / x.step t < n ∨ x.LowerOnGrid t ∧ n = x.lower / x.step t) ∧
        n ≤ x.last / 10 ^ t := by
  rw [le_last_div_iff h, Nat.div_lt_iff_lt_mul (step_pos h t)]
  -- The lower halfway point is inside only as a point of the grid.
  have heq : x.step t ∣ x.lower ∧ n = x.lower / x.step t ↔ n * x.step t = x.lower := by
    constructor
    · rintro ⟨hdvd, rfl⟩
      exact Nat.div_mul_cancel hdvd
    · intro hn
      refine ⟨Dvd.intro_left n hn, ?_⟩
      rw [← hn, Nat.mul_div_cancel _ (step_pos h t)]
  unfold Admits LowerOnGrid
  rw [and_assoc, heq]
  cases x.closed
  · simp
  · simp only [if_true, true_and]
    refine and_congr_left fun _ => ?_
    omega

/-- What is left of the value is not above the last grid point. -/
theorem value_div_le_last (h : x.Valid) (t : Nat) :
    x.value / x.step t ≤ x.last / 10 ^ t := by
  rw [le_last_div_iff h]
  have hmul := Nat.div_mul_le_self x.value (x.step t)
  have hlt := h.lt_upper
  split_ifs <;> omega

/-- If the grid point below the value is inside and not nearer than the one above it, that one is
inside as well. -/
theorem succ_le_last (h : x.Valid) (hadmits : x.Admits (x.value / x.step t * x.step t))
    (hhalf : x.step t ≤ 2 * (x.value % x.step t)) :
    x.value / x.step t + 1 ≤ x.last / 10 ^ t := by
  rw [le_last_div_iff h, add_mul, one_mul]
  have hdiv := Nat.div_add_mod' x.value (x.step t)
  have hbalanced := h.balanced
  unfold Admits at hadmits
  split_ifs at hadmits ⊢ <;> omega

end Points

/-! ## What the search shows of the points -/

open Points

/-- The search has cut `t` digits off the points. What it has in front of the next cut is enough to
know the truth after it. -/
structure Follows (x : Points) (t : Nat) (s : Search) : Prop where
  exponent : s.exponent = x.exponent + t
  value : s.value = x.value / x.step t
  lower : s.lower = x.lower / x.step t
  upper_div : s.upper / 10 = x.last / 10 ^ (t + 1)
  lowerZeros : 10 ∣ s.lower → (s.lowerZeros = true ↔ x.LowerOnGrid t)
  valueZeros : 5 ∣ s.value → (s.valueZeros = true ∧ s.lastDigit = 0 ↔ x.step t ∣ x.value)

/-- All that the search has is true of the points. -/
structure Shows (x : Points) (t : Nat) (s : Search) : Prop extends Follows x t s where
  upper : s.upper = x.last / 10 ^ t
  lowerZeros_iff : s.lowerZeros = true ↔ x.LowerOnGrid t
  half_le : 5 ≤ s.lastDigit ↔ x.step t ≤ 2 * (x.value % x.step t)
  half_eq : s.valueZeros = true ∧ s.lastDigit = 5 ↔ x.step t = 2 * (x.value % x.step t)

/-- The search has a grid with a point inside. -/
def Nonempty (s : Search) : Prop := s.lower < s.upper ∨ s.lowerZeros = true

/-- The next grid has no point above the lower halfway point. -/
def Apart (s : Search) : Prop := s.lower / 10 < s.upper / 10

variable {x : Points} {t : Nat} {s : Search}

/-- After a cut everything is true of the points. -/
theorem Follows.cutDigit (hx : x.Valid) (h : Follows x t s) : Shows x (t + 1) s.cutDigit := by
  have hlowerZeros : (s.lowerZeros && s.lower % 10 == 0) = true ↔ x.LowerOnGrid (t + 1) := by
    rw [lowerOnGrid_succ_iff hx, ← h.lower, Bool.and_eq_true, beq_iff_eq,
      ← Nat.dvd_iff_mod_eq_zero]
    exact and_congr_left h.lowerZeros
  -- A flag has to be right only where the digit that is cut off is a 0 or a 5.
  refine { exponent := ?_, value := ?_, lower := ?_, upper_div := ?_, lowerZeros := ?_,
           valueZeros := ?_, upper := ?_, lowerZeros_iff := hlowerZeros, half_le := ?_,
           half_eq := ?_ }
  · simp only [Search.cutDigit, h.exponent]
    push_cast
    ring
  · simp only [Search.cutDigit, h.value, div_step_succ]
  · simp only [Search.cutDigit, h.lower, div_step_succ]
  · simp only [Search.cutDigit, h.upper_div]
    rw [Nat.div_div_eq_div_mul, ← pow_succ]
  · exact fun _ => hlowerZeros
  · intro _
    simp only [Search.cutDigit, Bool.and_eq_true, beq_iff_eq]
    rw [step_succ_dvd_iff hx, ← h.value, ← Nat.dvd_iff_mod_eq_zero]
    exact and_congr_left fun hten => h.valueZeros (Dvd.dvd.trans (by decide) hten)
  · simp only [Search.cutDigit, h.upper_div]
  · simp only [Search.cutDigit, h.value]
    exact five_le_digit_iff hx x.value t
  · simp only [Search.cutDigit, Bool.and_eq_true, beq_iff_eq]
    rw [half_step_iff hx, ← h.value]
    exact and_congr_left fun hfive => h.valueZeros (by omega)

/-! ## The two loops -/

theorem Shows.cutApart (hx : x.Valid) (h : Shows x t s) (hne : Nonempty s) :
    ∃ u, Shows x u s.cutApart ∧ Nonempty s.cutApart ∧ ¬Apart s.cutApart := by
  -- The induction is on the turns of the loop. A cut is made only if a point stays inside.
  induction s using Search.cutApart.induct generalizing t with
  | case1 s hapart ih =>
    rw [Search.cutApart, if_pos hapart]
    exact ih (h.toFollows.cutDigit hx) (Or.inl hapart)
  | case2 s hapart =>
    rw [Search.cutApart, if_neg hapart]
    exact ⟨t, h, hne, hapart⟩

/-- A lower point that is on the grid leaves something there. -/
theorem Shows.lower_pos (hx : x.Valid) (h : Shows x t s) (hzeros : s.lowerZeros = true) :
    0 < s.lower := by
  have hdvd := (h.lowerZeros_iff.mp hzeros).2
  rw [h.lower]
  exact Nat.div_pos (Nat.le_of_dvd hx.lower_pos hdvd) (step_pos hx t)

/-- Where the lower halfway point is inside, its zeros are cut off to the last one. Its own
multiples are then the only points that are left. -/
theorem Shows.cutLowerZeros (hx : x.Valid) (h : Shows x t s) (hzeros : s.lowerZeros = true)
    (hapart : ¬Apart s) :
    ∃ u, Shows x u s.cutLowerZeros ∧ s.cutLowerZeros.lowerZeros = true ∧
      ¬Apart s.cutLowerZeros ∧ ¬10 ∣ s.cutLowerZeros.lower := by
  induction s using Search.cutLowerZeros.induct generalizing t with
  | case1 s hten ih =>
    rw [Search.cutLowerZeros, if_pos hten]
    refine ih (h.toFollows.cutDigit hx) ?_ ?_
    · simp only [Search.cutDigit, hzeros, hten.2]
      rfl
    · unfold Apart at hapart ⊢
      simp only [Search.cutDigit]
      omega
  | case2 s hten =>
    rw [Search.cutLowerZeros, if_neg hten]
    refine ⟨t, h, hzeros, hapart, ?_⟩
    have hpos := h.lower_pos hx hzeros
    omega

namespace Search

/-- The search when no more digits can be cut off. -/
def settled (s : Search) : Search :=
  if s.cutApart.lowerZeros then s.cutApart.cutLowerZeros else s.cutApart

/-- A pair of digits is cut off like two digits. -/
theorem cutApart_cutPair (s : Search) (hl : s.lowerZeros = false) (hv : s.valueZeros = false) :
    s.cutPair.cutApart = s.cutApart := by
  unfold cutPair
  split_ifs with h
  · -- Where a pair can be cut off, both single cuts would be made.
    have hfirst : s.lower / 10 < s.upper / 10 := by omega
    have hsecond : s.cutDigit.lower / 10 < s.cutDigit.upper / 10 := by
      simp only [cutDigit]
      omega
    rw [cutApart.eq_1 s, if_pos hfirst, cutApart.eq_1 s.cutDigit, if_pos hsecond]
    congr 1
    simp only [cutDigit, hl, hv, Nat.div_div_eq_div_mul, Bool.false_and, add_assoc]
    rfl
  · rfl

theorem flags_cutApart (s : Search) (hl : s.lowerZeros = false) (hv : s.valueZeros = false) :
    s.cutApart.lowerZeros = false ∧ s.cutApart.valueZeros = false := by
  induction s using cutApart.induct with
  | case1 s hapart ih =>
    rw [cutApart, if_pos hapart]
    apply ih <;> simp [cutDigit, hl, hv]
  | case2 s hapart =>
    rw [cutApart, if_neg hapart]
    exact ⟨hl, hv⟩

theorem roundPlain_eq (s : Search) (closed : Bool) (hl : s.lowerZeros = false)
    (hv : s.valueZeros = false) : s.roundPlain = s.roundExact closed := by
  unfold roundPlain roundExact
  simp [hl, hv]

/-- The shortest decimal is the rounded value of the settled search. The way without flags is only
quicker. -/
theorem shortest_eq (s : Search) (closed : Bool) :
    s.shortest closed = ⟨s.settled.roundExact closed, s.settled.exponent⟩ := by
  unfold shortest
  split_ifs with hflags
  · rfl
  · obtain ⟨hl, hv⟩ : s.lowerZeros = false ∧ s.valueZeros = false := by simpa using hflags
    obtain ⟨hl', hv'⟩ := flags_cutApart s hl hv
    have hsettled : s.settled = s.cutApart := by
      unfold settled
      simp [hl']
    simp only [cutApart_cutPair s hl hv, hsettled]
    rw [roundPlain_eq _ closed hl' hv']

end Search

/-! ## The result -/

/-- A search that is at its end. -/
structure Finished (x : Points) (t : Nat) (s : Search) : Prop extends Shows x t s where
  nonempty : Nonempty s
  not_apart : ¬Apart s
  lower_trimmed : s.lowerZeros = true → ¬10 ∣ s.lower

/-- When the halfway points have come together, the search is true of the points. If its first cut
is certain, it need not be all true before. -/
theorem shows_cutApart (hx : x.Valid) (h : Follows x 0 s ∧ Apart s ∨ Shows x 0 s ∧ Nonempty s) :
    ∃ t, Shows x t s.cutApart ∧ Nonempty s.cutApart ∧ ¬Apart s.cutApart := by
  rcases h with ⟨h, hapart⟩ | ⟨h, hne⟩
  · unfold Apart at hapart
    rw [Search.cutApart, if_pos hapart]
    exact (h.cutDigit hx).cutApart hx (Or.inl hapart)
  · exact h.cutApart hx hne

/-- A search that starts out true of the points ends true of them. -/
theorem finished_settled (hx : x.Valid)
    (h : Follows x 0 s ∧ Apart s ∨ Shows x 0 s ∧ Nonempty s) :
    ∃ t, Finished x t s.settled := by
  obtain ⟨t, hshows, hne, hapart⟩ := shows_cutApart hx h
  unfold Search.settled
  split_ifs with hzeros
  · obtain ⟨u, hshows', hzeros', hapart', htrim⟩ := hshows.cutLowerZeros hx hzeros hapart
    exact ⟨u, hshows', Or.inr hzeros', hapart', fun _ => htrim⟩
  · exact ⟨t, hshows, hne, hapart, fun h => absurd h hzeros⟩

namespace Finished

theorem lower_le_value (hx : x.Valid) (h : Finished x t s) : s.lower ≤ s.value := by
  rw [h.lower, h.value]
  exact Nat.div_le_div_right hx.lower_lt.le

theorem value_le_upper (hx : x.Valid) (h : Finished x t s) : s.value ≤ s.upper := by
  rw [h.value, h.upper]
  exact value_div_le_last hx t

/-- No point of the next grid is inside. -/
theorem not_admits_coarser (hx : x.Valid) (h : Finished x t s) (n : Nat) :
    ¬x.Admits (n * x.step (t + 1)) := by
  rw [admits_mul_step_iff hx, lowerOnGrid_succ_iff hx, div_step_succ, ← h.lower, ← h.upper_div,
    ← h.lowerZeros_iff]
  have hapart := h.not_apart
  unfold Apart at hapart
  rintro ⟨hlt | ⟨⟨hzeros, hten⟩, _⟩, hle⟩
  · omega
  · exact h.lower_trimmed hzeros hten

theorem admits_iff (hx : x.Valid) (h : Finished x t s) :
    x.Admits (n * x.step t) ↔
      (s.lower < n ∨ s.lowerZeros = true ∧ n = s.lower) ∧ n ≤ s.upper := by
  rw [admits_mul_step_iff hx, ← h.lower, ← h.upper, h.lowerZeros_iff]

/-- The value without its last digits is inside, unless it has become the lower point. -/
theorem admits_value_iff (hx : x.Valid) (h : Finished x t s) :
    x.Admits (s.value * x.step t) ↔ ¬(s.value = s.lower ∧ s.lowerZeros = false) := by
  rw [h.admits_iff hx]
  have hlow := h.lower_le_value hx
  have hhigh := h.value_le_upper hx
  cases s.lowerZeros
  · simp only [Bool.false_eq_true, false_and, or_false, and_true]
    omega
  · simp only [true_and, Bool.true_eq_false, and_false, not_false_eq_true, iff_true]
    omega

theorem closed_of_lowerZeros (h : Finished x t s) (hzeros : s.lowerZeros = true) :
    x.closed = true :=
  (h.lowerZeros_iff.mp hzeros).1

/-- The value is raised if it is not inside, if it is nearer to the point above, or if it is in the
middle and odd. -/
theorem roundExact_eq (hx : x.Valid) (h : Finished x t s) :
    s.roundExact x.closed = s.value + 1 ∧
        (¬x.Admits (s.value * x.step t) ∨ x.step t ≤ 2 * (x.value % x.step t) ∧
          ¬(x.step t = 2 * (x.value % x.step t) ∧ s.value % 2 = 0)) ∨
      s.roundExact x.closed = s.value ∧ x.Admits (s.value * x.step t) ∧
        (2 * (x.value % x.step t) < x.step t ∨
          x.step t = 2 * (x.value % x.step t) ∧ s.value % 2 = 0) := by
  have hround :
      (!(s.valueZeros && s.lastDigit == 5 && s.value % 2 == 0) && 5 ≤ s.lastDigit) = true ↔
      5 ≤ s.lastDigit ∧ ¬((s.valueZeros = true ∧ s.lastDigit = 5) ∧ s.value % 2 = 0) := by
    cases s.valueZeros
    · simp
    · simp
      omega
  have hlower : (!(x.closed && s.lowerZeros)) = true ↔ s.lowerZeros = false := by
    have hclosed := h.closed_of_lowerZeros
    cases hzeros : s.lowerZeros
    · simp
    · simp [hclosed hzeros]
  have hraise : (s.value = s.lower ∧ !(x.closed && s.lowerZeros)) ∨
      (!(s.valueZeros && s.lastDigit == 5 && s.value % 2 == 0) && 5 ≤ s.lastDigit) = true ↔
      ¬x.Admits (s.value * x.step t) ∨ x.step t ≤ 2 * (x.value % x.step t) ∧
        ¬(x.step t = 2 * (x.value % x.step t) ∧ s.value % 2 = 0) := by
    rw [h.admits_value_iff hx, ← h.half_le, ← h.half_eq, not_not, hround, hlower]
  unfold Search.roundExact
  simp only
  split_ifs with hcond
  · exact Or.inl ⟨rfl, hraise.mp hcond⟩
  · have hnot := mt hraise.mpr hcond
    push Not at hnot
    refine Or.inr ⟨rfl, hnot.1, ?_⟩
    rcases Nat.lt_or_ge (2 * (x.value % x.step t)) (x.step t) with hlt | hge
    · exact Or.inl hlt
    · exact Or.inr (hnot.2 hge)

/-- The rounded value is a grid point inside. -/
theorem admits_roundExact (hx : x.Valid) (h : Finished x t s) :
    x.Admits (s.roundExact x.closed * x.step t) := by
  rcases h.roundExact_eq hx with ⟨heq, hraise⟩ | ⟨heq, hadmits, _⟩
  · rw [heq, h.admits_iff hx]
    have hlow := h.lower_le_value hx
    refine ⟨Or.inl (by omega), ?_⟩
    by_cases hadmits : x.Admits (s.value * x.step t)
    · rcases hraise with hnot | ⟨hhalf, _⟩
      · exact absurd hadmits hnot
      · rw [h.value, h.upper]
        rw [h.value] at hadmits
        exact succ_le_last hx hadmits hhalf
    · -- The value has become the lower point and does not count. The one above it does.
      rw [h.admits_value_iff hx, not_not] at hadmits
      rcases h.nonempty with hlt | hzeros
      · omega
      · rw [hadmits.2] at hzeros
        contradiction
  · rw [heq]
    exact hadmits

/-- No grid point inside is nearer to the value, and of two that are equally near the even one is
taken. -/
theorem roundExact_nearest (hx : x.Valid) (h : Finished x t s) (hn : x.Admits (n * x.step t)) :
    |((s.roundExact x.closed * x.step t : Nat) : Int) - x.value| ≤
        |((n * x.step t : Nat) : Int) - x.value| ∧
      (|((s.roundExact x.closed * x.step t : Nat) : Int) - x.value| =
          |((n * x.step t : Nat) : Int) - x.value| →
        n = s.roundExact x.closed ∨ s.roundExact x.closed % 2 = 0) := by
  have hdiv : s.value * x.step t + x.value % x.step t = x.value := by
    rw [h.value]
    exact Nat.div_add_mod' _ _
  have hrest : x.value % x.step t < x.step t := Nat.mod_lt _ (step_pos hx t)
  have hsucc : (s.value + 1) * x.step t = s.value * x.step t + x.step t := by ring
  -- A point that is not above the value is at least the rest away, any other the rest of the step.
  have hside : n ≤ s.value ∧ n * x.step t ≤ s.value * x.step t ∨
      s.value + 1 ≤ n ∧ (s.value + 1) * x.step t ≤ n * x.step t := by
    rcases Nat.lt_or_ge s.value n with hlt | hge
    · exact Or.inr ⟨hlt, Nat.mul_le_mul_right _ hlt⟩
    · exact Or.inl ⟨hge, Nat.mul_le_mul_right _ hge⟩
  have hsame : n * x.step t = s.value * x.step t → n = s.value :=
    Nat.eq_of_mul_eq_mul_right (step_pos hx t)
  have hsame' : n * x.step t = (s.value + 1) * x.step t → n = s.value + 1 :=
    Nat.eq_of_mul_eq_mul_right (step_pos hx t)
  rcases h.roundExact_eq hx with ⟨heq, hraise⟩ | ⟨heq, hadmits, hkeep⟩
  · rw [heq]
    have hcases : s.value + 1 ≤ n ∨ x.step t ≤ 2 * (x.value % x.step t) ∧
        ¬(x.step t = 2 * (x.value % x.step t) ∧ s.value % 2 = 0) := by
      rcases hraise with hnot | hround
      · left
        rw [h.admits_value_iff hx, not_not] at hnot
        rw [h.admits_iff hx] at hn
        rcases hn.1 with hlt | ⟨hzeros, _⟩
        · omega
        · rw [hnot.2] at hzeros
          contradiction
      · exact Or.inr hround
    -- The products are only names from here on, and the rest is linear.
    generalize n * x.step t = point at *
    generalize s.value * x.step t = base at *
    generalize x.value % x.step t = rest at *
    generalize (s.value + 1) * x.step t = next at *
    simp only [Int.abs_eq_natAbs]
    constructor
    · omega
    · intro htie
      omega
  · rw [heq]
    generalize n * x.step t = point at *
    generalize s.value * x.step t = base at *
    generalize x.value % x.step t = rest at *
    generalize (s.value + 1) * x.step t = next at *
    simp only [Int.abs_eq_natAbs]
    constructor
    · omega
    · intro htie
      omega

/-- The halfway points are no more than one step of the next grid apart. -/
theorem width_le (hx : x.Valid) (h : Finished x t s) : x.upper - x.lower ≤ x.step (t + 1) := by
  by_contra hwidth
  -- The first point of the next grid above the lower halfway point would be inside.
  have hlow := Nat.lt_div_mul_add (a := x.lower) (step_pos hx (t + 1))
  have hhigh := Nat.div_mul_le_self x.lower (x.step (t + 1))
  apply h.not_admits_coarser hx (x.lower / x.step (t + 1) + 1)
  unfold Admits
  rw [add_mul, one_mul]
  split_ifs <;> omega

/-- The rounded value is not large against what the halfway points are apart. -/
theorem roundExact_mul_width_le (hx : x.Valid) (h : Finished x t s) :
    s.roundExact x.closed * (x.upper - x.lower) ≤ 10 * x.upper := by
  have hle : s.roundExact x.closed * x.step t ≤ x.upper := by
    have hadmits := h.admits_roundExact hx
    unfold Admits at hadmits
    split_ifs at hadmits
    · exact hadmits.2
    · exact hadmits.2.le
  calc s.roundExact x.closed * (x.upper - x.lower)
      ≤ s.roundExact x.closed * (x.step t * 10) := by
        rw [← step_succ]
        exact Nat.mul_le_mul_left _ (h.width_le hx)
    _ = 10 * (s.roundExact x.closed * x.step t) := by ring
    _ ≤ 10 * x.upper := Nat.mul_le_mul_left _ hle

end Finished

end FormattedOutput
