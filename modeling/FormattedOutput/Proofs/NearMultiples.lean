import Mathlib.Tactic.Linarith
import Mathlib.Tactic.Ring
import Mathlib.Tactic.LinearCombination

/-!
# How near multiples come to each other

The multiples of `a` are compared with the multiples of `m`: how near can `n * a` come to a
multiple of `m` while `n` is small? Two fractions around `a / m` answer this as long as `n` is
less than the sum of their denominators. The search for such fractions narrows the two in turn,
and no step of it needs to look at `n`.
-/

namespace FormattedOutput

/-- Two fractions around `a / m`, by their denominators and by how far they miss `a / m`. -/
structure Enclosure where
  /-- The denominator of the lower fraction. -/
  below : Nat
  /-- How far `below * a` is above a multiple of `m`. -/
  excess : Nat
  /-- The denominator of the upper fraction. -/
  above : Nat
  /-- How far `above * a` is below a multiple of `m`. -/
  short : Nat
  deriving Repr

namespace Enclosure

/-! ## What two fractions tell -/

/-- The fractions `p / below` and `q / above` stand around `a / m`, and no fraction between them
has a smaller denominator than their sum. -/
def Encloses (e : Enclosure) (a m : Nat) : Prop :=
  ∃ p q : Nat, e.below * a = p * m + e.excess ∧ e.above * a + e.short = q * m ∧
    e.below * q = e.above * p + 1 ∧ 0 < e.short

variable {e : Enclosure} {a m n : Nat}

theorem modulus_pos (h : e.Encloses a m) : 0 < m := by
  obtain ⟨p, q, _, hs, _, hpos⟩ := h
  rcases Nat.eq_zero_or_pos m with rfl | hm
  · omega
  · exact hm

/-- Every `n` and every multiple of `m` is a combination of the two fractions, and the distance
of `n * a` from that multiple is the same combination of their misses. -/
theorem exists_combination (h : e.Encloses a m) (n k : Int) :
    ∃ c d : Int, n = c * e.below + d * e.above ∧ n * a - k * m = c * e.excess - d * e.short := by
  obtain ⟨p, q, hp, hq, hdet, _⟩ := h
  zify at hp hq hdet
  refine ⟨n * q - k * e.above, k * e.below - n * p, ?_, ?_⟩
  · linear_combination (-n) * hdet
  · linear_combination (-n * a + k * m) * hdet + (n * q - k * e.above) * hp +
      (k * e.below - n * p) * hq

/-- A small multiple that is not below a multiple of `m` is at least `excess` above it. -/
theorem excess_le (h : e.Encloses a m) (hn : 0 < n) (hlt : n < e.below + e.above) {k : Int}
    (hk : k * m ≤ n * a) : (e.excess : Int) ≤ n * a - k * m := by
  obtain ⟨c, d, hcd, hdist⟩ := exists_combination h n k
  obtain ⟨_, _, _, _, _, hshort⟩ := h
  zify at hn hlt hshort
  rw [hdist]
  -- Without a positive `c` the distance would be below 0.
  have hc : 0 < c := by
    by_contra hc
    have hd : 0 < d := by
      by_contra hd
      have h1 : c * e.below ≤ 0 := mul_nonpos_of_nonpos_of_nonneg (by omega) (by omega)
      have h2 : d * e.above ≤ 0 := mul_nonpos_of_nonpos_of_nonneg (by omega) (by omega)
      omega
    have h1 : c * e.excess ≤ 0 := mul_nonpos_of_nonpos_of_nonneg (by omega) (by omega)
    have h2 : 0 < d * e.short := mul_pos hd hshort
    omega
  -- With both of `c` and `d` positive, `n` would be too large.
  have hd : d ≤ 0 := by
    by_contra hd
    have h1 : (e.below : Int) ≤ c * e.below := le_mul_of_one_le_left (by omega) (by omega)
    have h2 : (e.above : Int) ≤ d * e.above := le_mul_of_one_le_left (by omega) (by omega)
    omega
  have h1 : (e.excess : Int) ≤ c * e.excess := le_mul_of_one_le_left (by omega) (by omega)
  have h2 : d * e.short ≤ 0 := mul_nonpos_of_nonpos_of_nonneg hd (by omega)
  omega

/-- A small multiple that is below a multiple of `m` is at least `short` below it. -/
theorem short_le (h : e.Encloses a m) (hn : 0 < n) (hlt : n < e.below + e.above) {k : Int}
    (hk : (n * a : Int) < k * m) : (e.short : Int) ≤ k * m - n * a := by
  obtain ⟨c, d, hcd, hdist⟩ := exists_combination h n k
  zify at hn hlt
  -- The same with the two fractions in each other's place.
  have hd : 0 < d := by
    by_contra hd
    have hc : 0 < c := by
      by_contra hc
      have h1 : c * e.below ≤ 0 := mul_nonpos_of_nonpos_of_nonneg (by omega) (by omega)
      have h2 : d * e.above ≤ 0 := mul_nonpos_of_nonpos_of_nonneg (by omega) (by omega)
      omega
    have h1 : 0 ≤ c * e.excess := mul_nonneg (by omega) (by omega)
    have h2 : d * e.short ≤ 0 := mul_nonpos_of_nonpos_of_nonneg (by omega) (by omega)
    omega
  have hc : c ≤ 0 := by
    by_contra hc
    have h1 : (e.below : Int) ≤ c * e.below := le_mul_of_one_le_left (by omega) (by omega)
    have h2 : (e.above : Int) ≤ d * e.above := le_mul_of_one_le_left (by omega) (by omega)
    omega
  have h1 : (e.short : Int) ≤ d * e.short := le_mul_of_one_le_left (by omega) (by omega)
  have h2 : c * e.excess ≤ 0 := mul_nonpos_of_nonpos_of_nonneg hc (by omega)
  omega

/-- The rest of a small multiple stays away from both ends. -/
theorem mod_bounds (h : e.Encloses a m) (hn : 0 < n) (hlt : n < e.below + e.above) :
    e.excess ≤ n * a % m ∧ n * a % m + e.short ≤ m := by
  have hdiv : n * a = m * (n * a / m) + n * a % m := (Nat.div_add_mod _ _).symm
  have hmod : n * a % m < m := Nat.mod_lt _ (modulus_pos h)
  generalize n * a / m = k at hdiv
  generalize n * a % m = t at hdiv hmod
  zify at hdiv
  have hlow : (k : Int) * m ≤ n * a := by linarith [mul_comm (k : Int) m]
  have hhigh : (n * a : Int) < (k + 1 : Int) * m := by
    linarith [mul_comm (k : Int) m, add_one_mul (k : Int) (m : Int)]
  -- `n * a` lies between the multiples `k * m` and `(k + 1) * m`.
  have h1 := excess_le h hn hlt hlow
  have h2 := short_le h hn hlt hhigh
  constructor
  · zify
    linarith [mul_comm (k : Int) m]
  · zify
    linarith [mul_comm (k : Int) m, add_one_mul (k : Int) (m : Int)]

/-! ## Narrowing the two fractions -/

/-- Moves the lower fraction up, `k` steps at once. -/
def raise (e : Enclosure) (k : Nat) : Enclosure :=
  { e with below := e.below + k * e.above, excess := e.excess - k * e.short }

/-- Moves the upper fraction down, `k` steps at once. -/
def lower (e : Enclosure) (k : Nat) : Enclosure :=
  { e with above := e.above + k * e.below, short := e.short - k * e.excess }

/-- Narrows two fractions until their denominators have a sum above the limit. Every turn of the
search takes one unit of fuel. -/
def narrow (limit : Nat) : Nat → Enclosure → Enclosure
  | 0, e => e
  | fuel + 1, e =>
    if limit < e.below + e.above then e
    else if e.short ≤ e.excess then
      narrow limit fuel (e.raise (min (e.excess / e.short) ((limit - e.below) / e.above)))
    else if e.excess = 0 then e.lower ((limit - e.above) / e.below)
    else
      narrow limit fuel
        (e.lower (min ((e.short - 1) / e.excess) ((limit - e.above) / e.below)))

/-- Two fractions around `a / m` that speak of every `n` up to the limit, if the fuel is enough. -/
def around (a m limit : Nat) : Enclosure :=
  narrow limit 200 ⟨1, a, 1, m - a⟩

theorem Encloses.raise (h : e.Encloses a m) {k : Nat} (hk : k * e.short ≤ e.excess) :
    (e.raise k).Encloses a m := by
  obtain ⟨p, q, hp, hq, hdet, hpos⟩ := h
  refine ⟨p + k * q, q, ?_, hq, ?_, hpos⟩
  · simp only [Enclosure.raise]
    zify [hk] at hp hq ⊢
    linear_combination hp + k * hq
  · simp only [Enclosure.raise]
    linear_combination hdet

theorem Encloses.lower (h : e.Encloses a m) {k : Nat} (hk : k * e.excess < e.short) :
    (e.lower k).Encloses a m := by
  obtain ⟨p, q, hp, hq, hdet, hpos⟩ := h
  refine ⟨p, q + k * p, hp, ?_, ?_, ?_⟩
  · simp only [Enclosure.lower]
    zify [hk.le] at hp hq ⊢
    linear_combination hq + k * hp
  · simp only [Enclosure.lower]
    linear_combination hdet
  · simp only [Enclosure.lower]
    omega

theorem Encloses.narrow (limit fuel : Nat) (h : e.Encloses a m) :
    (narrow limit fuel e).Encloses a m := by
  -- Every turn keeps the two fractions around `a / m`, however many turns there are.
  induction fuel generalizing e with
  | zero => exact h
  | succ fuel ih =>
    unfold Enclosure.narrow
    split_ifs with hsum hle hzero
    · exact h
    · apply ih
      apply h.raise
      calc min (e.excess / e.short) ((limit - e.below) / e.above) * e.short
          ≤ e.excess / e.short * e.short := Nat.mul_le_mul_right _ (min_le_left _ _)
        _ ≤ e.excess := Nat.div_mul_le_self _ _
    · apply h.lower
      rw [hzero]
      omega
    · apply ih
      apply h.lower
      have hmul : min ((e.short - 1) / e.excess) ((limit - e.above) / e.below) * e.excess
          ≤ e.short - 1 :=
        calc min ((e.short - 1) / e.excess) ((limit - e.above) / e.below) * e.excess
            ≤ (e.short - 1) / e.excess * e.excess := Nat.mul_le_mul_right _ (min_le_left _ _)
          _ ≤ e.short - 1 := Nat.div_mul_le_self _ _
      omega

/-- The search starts from the fractions `0 / 1` and `1 / 1`. -/
theorem encloses_around (limit : Nat) (h : a < m) : (around a m limit).Encloses a m := by
  apply Encloses.narrow
  exact ⟨0, 1, by simp, by simp; omega, by simp, by simp; omega⟩

end Enclosure

end FormattedOutput
