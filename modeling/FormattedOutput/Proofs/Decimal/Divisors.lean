import FormattedOutput.Decimal.Shortest
import FormattedOutput.Proofs.Loop
import Mathlib.Order.Bounds.Defs
import Mathlib.Tactic.Ring

/-!
# Powers of five and of two that divide a word

The factors 5 of a word are counted with products that wrap around. The count is right, so the
tests for powers of five and of two say what they are meant to say. The loop that counts would go
on for ever with zero, and it ends with every other word.
-/

namespace FormattedOutput

/-- A product with the inverse of 5 is the quotient, for a multiple of 5. -/
theorem word_mul_inverseOfFive {k : Nat} (hk : 5 * k < 2 ^ 64) :
    word (5 * k * inverseOfFive) = k := by
  have h : 5 * k * inverseOfFive = k + 2 ^ 64 * (4 * k) := by
    unfold inverseOfFive
    ring
  unfold word
  rw [h, Nat.add_mul_mod_self_left]
  exact Nat.mod_eq_of_lt (by omega)

/-- The product is small just for the multiples of 5. -/
theorem word_mul_inverseOfFive_le_iff {n : Nat} (hn : n < 2 ^ 64) :
    word (n * inverseOfFive) ≤ largestFifth ↔ 5 ∣ n := by
  constructor
  · unfold word inverseOfFive largestFifth
    intro hle
    -- Five times the product is `n` again, up to whole turns of the word. There is room for none.
    generalize ht : n * 14757395258967641293 / 2 ^ 64 = t
    have hturns : 5 * t = 4 * n := by omega
    omega
  · rintro ⟨k, rfl⟩
    rw [word_mul_inverseOfFive hn]
    unfold largestFifth
    omega

/-- The count of factors 5 is the largest power of five that divides the word. -/
theorem le_fiveFactor_iff {n p : Nat} (hpos : 0 < n) (hn : n < 2 ^ 64) :
    p ≤ fiveFactor n ↔ 5 ^ p ∣ n := by
  induction n using fiveFactor.induct generalizing p with
  | case1 n h ih =>
    have hfive : 5 ∣ n := (word_mul_inverseOfFive_le_iff hn).mp h.2
    have hlt := word_mul_inverseOfFive_lt h.1 h.2
    rw [fiveFactor, dif_pos h]
    cases p with
    | zero => simp
    | succ p =>
      obtain ⟨k, rfl⟩ := hfive
      rw [word_mul_inverseOfFive hn] at ih ⊢
      rw [Nat.add_le_add_iff_right, ih (by omega) (by omega), pow_succ',
        Nat.mul_dvd_mul_iff_left (by decide)]
  | case2 n h =>
    rw [fiveFactor, dif_neg h]
    cases p with
    | zero => simp
    | succ p =>
      have hfive : ¬5 ∣ n := fun hdvd => h ⟨hpos, (word_mul_inverseOfFive_le_iff hn).mpr hdvd⟩
      constructor
      · intro hle
        omega
      · intro hdvd
        exact absurd (dvd_trans (dvd_pow_self 5 (Nat.succ_ne_zero p)) hdvd) hfive

theorem hasFives_iff {n p : Nat} (hpos : 0 < n) (hn : n < 2 ^ 64) :
    hasFives n p = true ↔ 5 ^ p ∣ n := by
  unfold hasFives
  rw [decide_eq_true_eq]
  exact le_fiveFactor_iff hpos hn

theorem hasTwos_iff (n p : Nat) : hasTwos n p = true ↔ 2 ^ p ∣ n := by
  unfold hasTwos
  rw [decide_eq_true_eq, Nat.one_shiftLeft, Nat.and_two_pow_sub_one_eq_mod,
    Nat.dvd_iff_mod_eq_zero]

/-! ## The loop that counts -/

/-- What is left of a word, and how many factors 5 were taken off it. -/
structure FiveCount where
  rest : Nat
  count : Nat

/-- Takes a factor 5 off the rest if the product with the inverse of 5 is small. Nothing is said
about a rest of zero. -/
def takeFive? (state : FiveCount) : Option FiveCount :=
  let product := word (state.rest * inverseOfFive)
  if product ≤ largestFifth then some ⟨product, state.count + 1⟩ else none

/-- The number of factors 5 in a word, if the loop that counts them ends. -/
noncomputable def fiveFactor? (n : Nat) : Option Nat :=
  (loop? takeFive? ⟨n, 0⟩).map FiveCount.count

theorem exists_loop?_takeFive {n : Nat} (hpos : 0 < n) (hn : n < 2 ^ 64) (count : Nat) :
    ∃ rest, loop? takeFive? ⟨n, count⟩ = some ⟨rest, count + fiveFactor n⟩ := by
  induction n using fiveFactor.induct generalizing count with
  | case1 n h ih =>
    have hturn : takeFive? ⟨n, count⟩ = some ⟨word (n * inverseOfFive), count + 1⟩ :=
      if_pos h.2
    have hlt := word_mul_inverseOfFive_lt h.1 h.2
    obtain ⟨k, rfl⟩ := (word_mul_inverseOfFive_le_iff hn).mp h.2
    rw [fiveFactor, dif_pos h, loop?_of_some hturn]
    rw [word_mul_inverseOfFive hn] at ih ⊢
    obtain ⟨rest, hrest⟩ := ih (by omega) (by omega) (count + 1)
    exact ⟨rest, by rw [hrest, Nat.add_right_comm, Nat.add_assoc]⟩
  | case2 n h =>
    have hturn : takeFive? ⟨n, count⟩ = none := if_neg fun hle => h ⟨hpos, hle⟩
    rw [fiveFactor, dif_neg h, loop?_of_none hturn]
    exact ⟨n, rfl⟩

theorem fiveFactor?_eq {n : Nat} (hpos : 0 < n) (hn : n < 2 ^ 64) :
    fiveFactor? n = some (fiveFactor n) := by
  obtain ⟨rest, hrest⟩ := exists_loop?_takeFive hpos hn 0
  unfold fiveFactor?
  rw [hrest, Option.map_some, Nat.zero_add]

/-- The loop never comes to a rest of zero, because zero would stay zero. -/
theorem rest_ne_zero_of_tests {n : Nat} (hpos : 0 < n) (hn : n < 2 ^ 64) {state : FiveCount}
    (h : Tests takeFive? ⟨n, 0⟩ state) : state.rest ≠ 0 := by
  obtain ⟨rest, hrest⟩ := exists_loop?_takeFive hpos hn 0
  refine not_of_tests (fun state => state.rest = 0) ?_ hrest h
  intro state hzero
  have hproduct : word (state.rest * inverseOfFive) = 0 := by
    rw [hzero, Nat.zero_mul]
    rfl
  refine ⟨⟨0, state.count + 1⟩, ?_, rfl⟩
  unfold takeFive?
  rw [hproduct]
  rfl

/-! ## Both tests -/

theorem isGreatest_fiveFactor {n : Nat} (hpos : 0 < n) (hn : n < 2 ^ 64) :
    IsGreatest {c | 5 ^ c ∣ n} (fiveFactor n) := by
  constructor
  · exact (le_fiveFactor_iff hpos hn).mp le_rfl
  · intro c hc
    exact (le_fiveFactor_iff hpos hn).mpr hc

/-- The factors 5 of a word other than zero are counted to the last one. So both tests say what
divides the word. -/
theorem word_divisors (n : Nat) (hpos : 0 < n) (hn : n < 2 ^ 64) :
    fiveFactor? n = some (fiveFactor n) ∧ IsGreatest {c | 5 ^ c ∣ n} (fiveFactor n) ∧
      (∀ p, hasFives n p = true ↔ 5 ^ p ∣ n) ∧ ∀ p < 64, hasTwos n p = true ↔ 2 ^ p ∣ n :=
  ⟨fiveFactor?_eq hpos hn, isGreatest_fiveFactor hpos hn, fun _ => hasFives_iff hpos hn,
    fun p _ => hasTwos_iff n p⟩

/-- The largest power of five that is a word has 27 factors 5, and no factor 2. -/
theorem word_divisors_largest :
    0 < 5 ^ 27 ∧ 5 ^ 27 < 2 ^ 64 ∧ hasFives (5 ^ 27) 27 = true ∧ ¬hasFives (5 ^ 27) 28 = true ∧
      ¬hasTwos (5 ^ 27) 1 = true := by
  obtain ⟨-, -, hfives, htwos⟩ := word_divisors (5 ^ 27) (by decide) (by decide)
  refine ⟨by decide, by decide, (hfives 27).mpr dvd_rfl, ?_, ?_⟩
  · rw [hfives, Nat.pow_dvd_pow_iff_le_right (by decide)]
    decide
  · rw [htwos 1 (by decide)]
    decide

end FormattedOutput
