import FormattedOutput.Decimal.Shortest
import FormattedOutput.PowerTable.Generated
import FormattedOutput.Proofs.NearMultiples

/-!
# Products with a rebuilt power

A product with a rebuilt power of five, shifted right, is the exact quotient that it stands for,
rounded down. A rebuilt power is only near to the power that it stands for. The quotient comes out
right all the same, because no product of a number of 55 bits comes so near to a whole number
that the difference could show.
-/

namespace FormattedOutput.PowerTable

/-! ## The rebuilt powers -/

/-- Every inverse power that is used comes out of the tables as the rule has it. -/
theorem inverse_eq_leadingInverse :
    ∀ q < 292, inverse q = .ofNat (leadingInverse q) ∧ leadingInverse q < 2 ^ 126 := by
  decide +kernel

/-- Every power that is used comes out of the tables as the rule has it. -/
theorem power_eq_leadingPower :
    ∀ i < 326, power i = .ofNat (leadingPower i) ∧ leadingPower i < 2 ^ 126 := by
  decide +kernel

/-- What a power between two stored ones is rebuilt from: a small power, a stored one, how far the
product of the two is shifted, and how much is added to it. -/
structure Rebuilding where
  factor : Nat
  stored : WordPair
  delta : Nat
  added : Nat

namespace Rebuilding

/-- The rebuilt power, if words were without end. -/
def sum (x : Rebuilding) : Nat :=
  (x.factor * x.stored.low) >>> x.delta + (x.factor * x.stored.high) <<< (64 - x.delta) + x.added

/-- No bit gets lost: all numbers on the way fit into two words. -/
def Fits (x : Rebuilding) : Prop :=
  x.factor * x.stored.low < 2 ^ 128 ∧ x.factor * x.stored.high < 2 ^ 128 ∧ x.delta ≤ 64 ∧
    (x.factor * x.stored.high) <<< (64 - x.delta) < 2 ^ 128 ∧ x.sum < 2 ^ 128

instance (x : Rebuilding) : Decidable x.Fits := inferInstanceAs (Decidable (_ ∧ _))

end Rebuilding

/-- What `5 ^ i` is rebuilt from, unless it is stored. -/
def powerRebuilding? (i : Nat) : Option Rebuilding :=
  let base := i / spacing
  if i = base * spacing then none
  else
    some ⟨smallPowers.getD (i - base * spacing) 0, splitPowers.getD base ⟨0, 0⟩,
      powerBits i - powerBits (base * spacing), correction powerCorrections i⟩

/-- What the inverse of `5 ^ i` is rebuilt from, unless it is stored. -/
def inverseRebuilding? (i : Nat) : Option Rebuilding :=
  let base := (i + spacing - 1) / spacing
  let stored := splitInverses.getD base ⟨0, 0⟩
  if base * spacing = i then none
  else
    some ⟨smallPowers.getD (base * spacing - i) 0, ⟨stored.low - 1, stored.high⟩,
      powerBits (base * spacing) - powerBits i, 1 + correction inverseCorrections i⟩

theorem power_eq_sum :
    ∀ i < 326, ∀ x ∈ powerRebuilding? i, x.Fits ∧ power i = .ofNat x.sum := by
  decide +kernel

theorem inverse_eq_sum :
    ∀ q < 292, ∀ x ∈ inverseRebuilding? q, x.Fits ∧ inverse q = .ofNat x.sum := by
  decide +kernel

/-! ## Shifted products -/

/-- No bit of a product gets lost: what is multiplied, added up and shifted fits into two words, and
what is left of it fits into one. -/
structure Lossless (n : Nat) (p : WordPair) (shift : Nat) : Prop where
  low_lt : n * p.low < 2 ^ 128
  high_lt : n * p.high < 2 ^ 128
  sum_lt : n * p.low / 2 ^ 64 + n * p.high < 2 ^ 128
  shift_ge : 64 ≤ shift
  shift_lt : shift - 64 < 128
  result_lt : (n * p.low / 2 ^ 64 + n * p.high) / 2 ^ (shift - 64) < 2 ^ 64

variable {n factor shift : Nat} {p : WordPair}

theorem mul_words_div (n : Nat) (p : WordPair) :
    n * p.low / 2 ^ 64 + n * p.high = n * p.toNat / 2 ^ 64 := by
  have h : n * p.toNat = n * p.low + n * p.high * 2 ^ 64 := by
    unfold WordPair.toNat
    ring
  rw [h, Nat.add_mul_div_right _ _ (by decide)]

/-- A product that loses no bit is the whole product, shifted right. -/
theorem Lossless.shiftedProduct_eq (h : Lossless n p shift) :
    shiftedProduct n p shift = n * p.toNat / 2 ^ shift := by
  have hshift : 64 + (shift - 64) = shift := Nat.add_sub_cancel' h.shift_ge
  unfold shiftedProduct
  rw [doubleWord_of_lt h.low_lt, doubleWord_of_lt h.high_lt]
  simp only [Nat.shiftRight_eq_div_pow]
  rw [doubleWord_of_lt h.sum_lt, word_of_lt h.result_lt, mul_words_div, Nat.div_div_eq_div_mul,
    ← pow_add, hshift]

/-- A number of 55 bits and a power of 126 bits leave the upper bits of two words free. -/
theorem lossless_ofNat (hn : n < 2 ^ 55) (hfactor : factor < 2 ^ 126) (hge : 117 ≤ shift)
    (hlt : shift < 192) : Lossless n (.ofNat factor) shift := by
  have hwhole : (WordPair.ofNat factor).toNat = factor :=
    WordPair.toNat_ofNat (lt_trans hfactor (by decide))
  have hsum := mul_words_div n (.ofNat factor)
  have hlow : n * (WordPair.ofNat factor).low < 2 ^ 55 * 2 ^ 64 :=
    Nat.mul_lt_mul'' hn (Nat.mod_lt _ (by decide))
  have hproduct : n * factor < 2 ^ 55 * 2 ^ 126 := Nat.mul_lt_mul'' hn hfactor
  rw [hwhole] at hsum
  constructor
  · exact lt_trans hlow (by decide)
  · omega
  · omega
  · omega
  · omega
  · rw [hsum, Nat.div_div_eq_div_mul, ← pow_add, Nat.add_sub_cancel' (by omega)]
    calc n * factor / 2 ^ shift ≤ n * factor / 2 ^ 117 :=
          Nat.div_le_div_left (Nat.pow_le_pow_right (by decide) hge) (by decide)
      _ < 2 ^ 64 := by omega

/-! ## Quotients by a factor that is only near -/

/-- A factor and a shift in place of a fraction. -/
structure Approximation where
  numerator : Nat
  denominator : Nat
  factor : Nat
  shift : Nat

namespace Approximation

variable {x : Approximation} {e : Enclosure} {limit n : Nat}

/-- The multiples of the numerator, compared with those of the denominator. -/
def enclosure (x : Approximation) (limit : Nat) : Enclosure :=
  .around (x.numerator % x.denominator) x.denominator limit

/-- The factor is too large by this, or not at all. -/
def excess (x : Approximation) : Nat :=
  x.denominator * x.factor - x.numerator * 2 ^ x.shift

/-- The factor is too small by this, or not at all. -/
def deficit (x : Approximation) : Nat :=
  x.numerator * 2 ^ x.shift - x.denominator * x.factor

/-- The factor is not too small, and so little too large that no multiple of the fraction up to
the limit is pushed up to the next whole number. -/
def FitsAbove (x : Approximation) (limit : Nat) : Bool :=
  let e := x.enclosure limit
  0 < x.denominator && x.numerator * 2 ^ x.shift ≤ x.denominator * x.factor &&
    limit < e.below + e.above && limit * x.excess < e.short * 2 ^ x.shift

/-- The factor is exact, or so little too small that no multiple of the fraction up to the limit
is pushed down below a whole number. -/
def FitsBelow (x : Approximation) (limit : Nat) : Bool :=
  0 < x.denominator && x.denominator * x.factor ≤ x.numerator * 2 ^ x.shift &&
    (x.deficit = 0 ||
      let e := x.enclosure limit
      limit < e.below + e.above && limit * x.deficit ≤ e.excess * 2 ^ x.shift)

/-- The shifted product lies between two whole numbers if the same multiples of both do. -/
theorem div_eq_of_between {k : Nat} (hd : 0 < x.denominator)
    (hlow : k * x.denominator * 2 ^ x.shift ≤ n * (x.denominator * x.factor))
    (hhigh : n * (x.denominator * x.factor) < (k + 1) * x.denominator * 2 ^ x.shift) :
    n * x.factor / 2 ^ x.shift = k := by
  apply Nat.div_eq_of_lt_le
  · apply Nat.le_of_mul_le_mul_left _ hd
    calc x.denominator * (k * 2 ^ x.shift) = k * x.denominator * 2 ^ x.shift := by ring
      _ ≤ n * (x.denominator * x.factor) := hlow
      _ = x.denominator * (n * x.factor) := by ring
  · apply Nat.lt_of_mul_lt_mul_left (a := x.denominator)
    calc x.denominator * (n * x.factor) = n * (x.denominator * x.factor) := by ring
      _ < (k + 1) * x.denominator * 2 ^ x.shift := hhigh
      _ = x.denominator * ((k + 1) * 2 ^ x.shift) := by ring

theorem mod_bounds (hd : 0 < x.denominator)
    (hlimit : limit < (x.enclosure limit).below + (x.enclosure limit).above) (hn : 0 < n)
    (hle : n ≤ limit) :
    (x.enclosure limit).excess ≤ n * x.numerator % x.denominator ∧
      n * x.numerator % x.denominator + (x.enclosure limit).short ≤ x.denominator := by
  have hencloses : (x.enclosure limit).Encloses (x.numerator % x.denominator) x.denominator :=
    Enclosure.encloses_around limit (Nat.mod_lt _ hd)
  have hmod : n * (x.numerator % x.denominator) % x.denominator =
      n * x.numerator % x.denominator := by
    rw [Nat.mul_mod, Nat.mod_mod, ← Nat.mul_mod]
  rw [← hmod]
  exact Enclosure.mod_bounds hencloses hn (by omega)

theorem div_eq_of_fitsAbove (h : x.FitsAbove limit) (hn : 0 < n) (hle : n ≤ limit) :
    n * x.factor / 2 ^ x.shift = n * x.numerator / x.denominator := by
  unfold FitsAbove at h
  simp only [Bool.and_eq_true, decide_eq_true_eq] at h
  obtain ⟨⟨⟨hd, hfactor⟩, hlimit⟩, hexcess⟩ := h
  -- A multiple leaves more room below the next whole number than the factor takes up.
  have hmod := (mod_bounds hd hlimit hn hle).2
  have hdiv := Nat.div_add_mod (n * x.numerator) x.denominator
  have hfull : x.denominator * x.factor = x.numerator * 2 ^ x.shift + x.excess := by
    unfold excess
    omega
  have hsmall : n * x.excess < (x.enclosure limit).short * 2 ^ x.shift :=
    lt_of_le_of_lt (Nat.mul_le_mul_right _ hle) hexcess
  generalize n * x.numerator / x.denominator = k at hdiv ⊢
  generalize n * x.numerator % x.denominator = rest at hdiv hmod
  have hsum : n * (x.denominator * x.factor) =
      k * x.denominator * 2 ^ x.shift + rest * 2 ^ x.shift + n * x.excess := by
    rw [hfull, mul_add, ← mul_assoc, ← hdiv]
    ring
  apply div_eq_of_between hd
  · omega
  · have hroom : (rest + (x.enclosure limit).short) * 2 ^ x.shift ≤
        x.denominator * 2 ^ x.shift := Nat.mul_le_mul_right _ hmod
    rw [hsum, add_mul, one_mul, add_mul]
    rw [add_mul] at hroom
    omega

theorem div_eq_of_fitsBelow (h : x.FitsBelow limit) (hn : 0 < n) (hle : n ≤ limit) :
    n * x.factor / 2 ^ x.shift = n * x.numerator / x.denominator := by
  unfold FitsBelow at h
  simp only [Bool.and_eq_true, Bool.or_eq_true, decide_eq_true_eq] at h
  obtain ⟨⟨hd, hfactor⟩, hdeficit⟩ := h
  have hdiv := Nat.div_add_mod (n * x.numerator) x.denominator
  have hfull : x.denominator * x.factor + x.deficit = x.numerator * 2 ^ x.shift := by
    unfold deficit
    omega
  -- What the factor lacks is no more than what the quotient leaves.
  have hsmall : n * x.deficit ≤ n * x.numerator % x.denominator * 2 ^ x.shift := by
    rcases hdeficit with hzero | ⟨hlimit, hsmall⟩
    · rw [hzero]
      exact Nat.zero_le _
    · calc n * x.deficit ≤ limit * x.deficit := Nat.mul_le_mul_right _ hle
        _ ≤ (x.enclosure limit).excess * 2 ^ x.shift := hsmall
        _ ≤ n * x.numerator % x.denominator * 2 ^ x.shift :=
          Nat.mul_le_mul_right _ (mod_bounds hd hlimit hn hle).1
  have hrest : n * x.numerator % x.denominator < x.denominator := Nat.mod_lt _ hd
  generalize n * x.numerator / x.denominator = k at hdiv ⊢
  generalize n * x.numerator % x.denominator = rest at hdiv hsmall hrest
  have hsum : n * (x.denominator * x.factor) + n * x.deficit =
      k * x.denominator * 2 ^ x.shift + rest * 2 ^ x.shift := by
    rw [← mul_add, hfull, ← mul_assoc, ← hdiv]
    ring
  apply div_eq_of_between hd
  · omega
  · have hroom : rest * 2 ^ x.shift < x.denominator * 2 ^ x.shift :=
      Nat.mul_lt_mul_of_pos_right hrest (by positivity)
    rw [add_mul, one_mul, add_mul]
    omega

end Approximation

/-! ## The two scales -/

/-- The largest number that is ever scaled: the upper halfway point of the largest significand. -/
def scaledLimit : Nat := 4 * (2 ^ 53 - 1) + 2

/-- How an exponent `e` of at least 0 is scaled down. -/
def downward (e : Nat) : Approximation where
  numerator := 2 ^ (e - Interval.tensBelow e)
  denominator := 5 ^ Interval.tensBelow e
  factor := leadingInverse (Interval.tensBelow e)
  shift := Interval.tensBelow e + (storedBits + powerBits (Interval.tensBelow e) - 1) - e

/-- How an exponent `-e` below 0 is scaled up. -/
def upward (e : Nat) : Approximation where
  numerator := 5 ^ (e - Interval.tensAbove e)
  denominator := 2 ^ Interval.tensAbove e
  factor := leadingPower (e - Interval.tensAbove e)
  shift := Interval.tensAbove e + storedBits - powerBits (e - Interval.tensAbove e)

/-- For every exponent the factor is near enough. -/
theorem fits_downward :
    ∀ e < 970, (downward e).FitsAbove scaledLimit = true ∧ 117 ≤ (downward e).shift ∧
      (downward e).shift < 192 ∧ Interval.tensBelow e < 292 := by
  -- There is one search for each exponent, and it looks at no significand.
  decide +kernel

theorem fits_upward :
    ∀ e < 1077, (upward e).FitsBelow scaledLimit = true ∧ 117 ≤ (upward e).shift ∧
      (upward e).shift < 192 ∧ e - Interval.tensAbove e < 326 := by
  decide +kernel

theorem lossless_inverse {e : Nat} (he : e < 970) (hle : n ≤ scaledLimit) :
    Lossless n (inverse (Interval.tensBelow e)) (downward e).shift := by
  obtain ⟨-, hge, hlt, htens⟩ := fits_downward e he
  obtain ⟨hinverse, hsmall⟩ := inverse_eq_leadingInverse _ htens
  rw [hinverse]
  exact lossless_ofNat (lt_of_le_of_lt hle (by decide)) hsmall hge hlt

theorem lossless_power {e : Nat} (he : e < 1077) (hle : n ≤ scaledLimit) :
    Lossless n (power (e - Interval.tensAbove e)) (upward e).shift := by
  obtain ⟨-, hge, hlt, htens⟩ := fits_upward e he
  obtain ⟨hpower, hsmall⟩ := power_eq_leadingPower _ htens
  rw [hpower]
  exact lossless_ofNat (lt_of_le_of_lt hle (by decide)) hsmall hge hlt

/-- Scaling down comes out exactly as the quotient by the power of ten, rounded down. -/
theorem shiftedProduct_inverse {e : Nat} (he : e < 970) (hn : 0 < n) (hle : n ≤ scaledLimit) :
    shiftedProduct n (inverse (Interval.tensBelow e)) (downward e).shift =
      n * 2 ^ (e - Interval.tensBelow e) / 5 ^ Interval.tensBelow e := by
  obtain ⟨hfits, -, -, htens⟩ := fits_downward e he
  obtain ⟨hinverse, hsmall⟩ := inverse_eq_leadingInverse _ htens
  rw [(lossless_inverse he hle).shiftedProduct_eq, hinverse,
    WordPair.toNat_ofNat (lt_trans hsmall (by decide))]
  exact Approximation.div_eq_of_fitsAbove hfits hn hle

/-- Scaling up comes out exactly as the product with the power of ten, rounded down. -/
theorem shiftedProduct_power {e : Nat} (he : e < 1077) (hn : 0 < n) (hle : n ≤ scaledLimit) :
    shiftedProduct n (power (e - Interval.tensAbove e)) (upward e).shift =
      n * 5 ^ (e - Interval.tensAbove e) / 2 ^ Interval.tensAbove e := by
  obtain ⟨hfits, -, -, htens⟩ := fits_upward e he
  obtain ⟨hpower, hsmall⟩ := power_eq_leadingPower _ htens
  rw [(lossless_power he hle).shiftedProduct_eq, hpower,
    WordPair.toNat_ofNat (lt_trans hsmall (by decide))]
  exact Approximation.div_eq_of_fitsBelow hfits hn hle

end FormattedOutput.PowerTable
