import FormattedOutput.Proofs.Number.Numeral

/-!
# The text of a layout

A layout counts its zeros and splits its digits. Put together, its parts are the spelled number:
the rounded decimal times a power of ten, with so many digits after the radix point.
-/

namespace FormattedOutput

namespace FloatParts

open Numeral

/-- The parts, one after the other, with the zeros between them. -/
def text (p : FloatParts) : Bytes :=
  p.front ++ List.replicate (-p.bodyZeros).toNat 48 ++ p.digits.reverse ++
    List.replicate p.bodyZeros.toNat 48 ++ p.back ++ List.replicate p.backZeros.toNat 48

variable {d r : Decimal} {precision : Int} {alternate : Bool}

/-! ## Spelled decimals -/

theorem reversed_decimal (uppercase : Bool) (n : Nat) :
    Digits.reversed (radix false) uppercase n =
      Digits.low 10 uppercase (Decimal.digitCount n) n := by
  rw [Digits.low_uppercase (by decide) (by decide)]
  exact Digits.decimal_eq n

/-- A number that ends in zeros is spelled with these zeros at the end. -/
theorem spelled_mul_pow {hex uppercase : Bool} (n zeros places : Nat) :
    spelled hex uppercase (n * base hex ^ zeros) (zeros + places) alternate =
      (Digits.reversed (radix hex) uppercase (n / base hex ^ places)).reverse ++
        point (zeros + places : Nat) alternate ++
        (Digits.low (base hex) uppercase places n).reverse ++ List.replicate zeros 48 := by
  unfold spelled
  rw [Digits.low_mul_pow (base_pos hex), pow_add, mul_comm (base hex ^ zeros),
    Nat.mul_div_mul_right _ _ (Nat.pow_pos (base_pos hex)), List.reverse_append,
    List.reverse_replicate, List.append_assoc _ _ (List.replicate zeros 48)]

/-- The digits of a number that stand before a radix point. -/
theorem digitCount_div {n places : Nat} (h : places < Decimal.digitCount n) :
    Decimal.digitCount n = places + Decimal.digitCount (n / 10 ^ places) := by
  rcases Nat.eq_zero_or_pos n with rfl | hpos
  · rw [Decimal.digitCount_of_lt (by decide)] at h
    obtain rfl : places = 0 := by omega
    rw [pow_zero, Nat.div_one, zero_add]
  · have hle : 10 ^ places ≤ n :=
      le_trans (Nat.pow_le_pow_right (by decide) (by omega)) (Decimal.pow_digitCount_le hpos)
    rw [Decimal.digitCount_div_pow hle, add_comm]

/-! ## Digits around a fixed radix point -/

/-- A rounded decimal is zero, or its exponent has gone up by the digits that were dropped. -/
theorem exponent_keepDigits_ge {keep : Int} (h : (d.keepDigits keep).mantissa ≠ 0) :
    d.exponent + d.digits - keep ≤ (d.keepDigits keep).exponent := by
  unfold Decimal.keepDigits at *
  simp only at *
  split_ifs at h ⊢ with hkeep hnegative hcarry
  · omega
  · contradiction
  · simp only
    omega
  · simp only
    omega

/-- Rounding to a place leaves nothing behind that place. -/
theorem exponent_roundPlaces_ge (d : Decimal) (hprecision : 0 ≤ precision) :
    0 ≤ (roundPlaces d precision).exponent + precision := by
  unfold roundPlaces
  simp only
  split_ifs with hzero
  · simp only [Decimal.zero]
    omega
  · have hge := exponent_keepDigits_ge hzero
    omega

theorem roundPlaces_eq_zero (h : (roundPlaces d precision).mantissa = 0) :
    roundPlaces d precision = .zero := by
  unfold roundPlaces at *
  simp only at *
  split_ifs at *
  · rfl
  · contradiction

theorem point_of_pos {fraction : Nat} (h : 0 < fraction) (alternate : Bool) :
    point fraction alternate = [46] := by
  unfold point
  rw [if_pos]
  rw [Bool.or_eq_true, decide_eq_true_eq]
  left
  omega

/-- A number whose last digits are a fraction is spelled as its whole part, these digits and
zeros. -/
theorem spelled_fraction {fraction : Nat} (h : 0 < fraction) (n zeros : Nat) (alternate : Bool) :
    spelled false false (n * 10 ^ zeros) (zeros + fraction) alternate =
      (Digits.low 10 false (Decimal.digitCount (n / 10 ^ fraction)) (n / 10 ^ fraction)).reverse ++
        [46] ++ (Digits.low 10 false fraction n).reverse ++ List.replicate zeros 48 := by
  have hspelled := @spelled_mul_pow alternate false false n zeros fraction
  rw [point_of_pos (by omega), reversed_decimal] at hspelled
  exact hspelled

/-- A whole number ends in the zeros of its exponent, and its fraction is all zeros. -/
theorem text_whole (hzero : r.mantissa = 0 → r = .zero) (h : 0 ≤ r.exponent) (precision : Nat)
    (alternate : Bool) :
    text { digits := Digits.decimal r.mantissa
           bodyZeros := r.exponent
           back := point precision alternate
           backZeros := precision } =
      spelled false false (r.mantissa * 10 ^ (r.exponent + precision).toNat) precision
        alternate := by
  obtain ⟨k, hk⟩ := Int.eq_ofNat_of_zero_le h
  have hdigits : Digits.reversed (radix false) false (r.mantissa * 10 ^ k) =
      List.replicate k 48 ++ Digits.decimal r.mantissa := by
    rw [reversed_decimal, Digits.decimal_eq]
    rcases Nat.eq_zero_or_pos r.mantissa with hm | hm
    · rw [hzero hm] at hk
      obtain rfl : k = 0 := by
        simp only [Decimal.zero] at hk
        omega
      simp
    · rw [Decimal.digitCount_mul_pow hm, add_comm]
      exact Digits.low_mul_pow (by decide) _ _ _
  have hpow : ((k : Int) + precision).toNat = k + precision := by omega
  have hspelled := @spelled_mul_pow alternate false false (r.mantissa * 10 ^ k) precision 0
  rw [pow_zero, Nat.div_one, hdigits, add_zero] at hspelled
  rw [hk, hpow, pow_add, ← mul_assoc]
  refine Eq.trans ?_ hspelled.symm
  unfold text
  simp [Digits.low]

/-- A pure fraction has zeros before its digits. -/
theorem text_pure {fraction zeros : Nat} (hpos : 0 < fraction) (hf : r.exponent = -fraction)
    (h : r.digits + r.exponent ≤ 0) (alternate : Bool) :
    text { front := latin ['0', '.']
           bodyZeros := r.digits + r.exponent
           digits := Digits.decimal r.mantissa
           backZeros := (zeros + fraction : Nat) + r.exponent } =
      spelled false false (r.mantissa * 10 ^ zeros) (zeros + fraction) alternate := by
  obtain ⟨k, hk⟩ : ∃ k, fraction = r.digits + k := ⟨fraction - r.digits, by omega⟩
  have hlt : r.mantissa < 10 ^ r.digits := Decimal.lt_pow_digitCount r.mantissa
  have hdigits : Digits.low 10 false fraction r.mantissa =
      Digits.decimal r.mantissa ++ List.replicate k 48 := by
    rw [hk, Digits.low_add, Digits.decimal_eq, Nat.div_eq_of_lt hlt, Digits.low_zero]
    rfl
  have hdiv : r.mantissa / 10 ^ fraction = 0 := by
    apply Nat.div_eq_of_lt
    apply lt_of_lt_of_le hlt
    apply Nat.pow_le_pow_right (by decide)
    omega
  have hbefore : (-((r.digits : Int) + r.exponent)).toNat = k := by omega
  have hafter : ((r.digits : Int) + r.exponent).toNat = 0 := by omega
  have hback : ((zeros + fraction : Nat) + r.exponent).toNat = zeros := by omega
  rw [spelled_fraction hpos, hdiv, hdigits]
  unfold text
  simp only [hbefore, hafter, hback]
  rw [Decimal.digitCount_of_lt (by decide)]
  simp [latin, Digits.low, Digits.ofDigit]

/-- Between the digits the radix point cuts them in two. -/
theorem text_mixed {fraction zeros : Nat} (hpos : 0 < fraction) (hf : r.exponent = -fraction)
    (h : ¬r.digits + r.exponent ≤ 0) (alternate : Bool) :
    text { digits := (Digits.decimal r.mantissa).take (-r.exponent).toNat ++
             46 :: (Digits.decimal r.mantissa).drop (-r.exponent).toNat
           backZeros := (zeros + fraction : Nat) + r.exponent } =
      spelled false false (r.mantissa * 10 ^ zeros) (zeros + fraction) alternate := by
  have hlt : fraction < Decimal.digitCount r.mantissa := by
    unfold Decimal.digits at h
    omega
  have hsplit : Digits.decimal r.mantissa = Digits.low 10 false fraction r.mantissa ++
      Digits.low 10 false (Decimal.digitCount (r.mantissa / 10 ^ fraction))
        (r.mantissa / 10 ^ fraction) := by
    rw [Digits.decimal_eq, digitCount_div hlt, Digits.low_add]
  have hcut : (-r.exponent).toNat = fraction := by omega
  have hback : ((zeros + fraction : Nat) + r.exponent).toNat = zeros := by omega
  rw [spelled_fraction hpos]
  unfold text
  simp only [hcut, hback]
  rw [hsplit, List.take_left' (Digits.length_low fraction _),
    List.drop_left' (Digits.length_low fraction _)]
  simp only [List.reverse_append, List.reverse_cons]
  simp

/-- A layout with a fixed radix point spells the rounded decimal. -/
theorem text_fixed (d : Decimal) (precision : Nat) (alternate : Bool) :
    (fixed d precision alternate).text =
      spelled false false ((roundPlaces d precision).mantissa *
        10 ^ ((roundPlaces d precision).exponent + precision).toNat) precision alternate := by
  have hexp := exponent_roundPlaces_ge d (Int.natCast_nonneg precision)
  have hzero := @roundPlaces_eq_zero d precision
  unfold fixed
  simp only
  generalize roundPlaces d precision = r at *
  by_cases hwhole : 0 ≤ r.exponent
  · rw [if_pos hwhole]
    exact text_whole hzero hwhole precision alternate
  · obtain ⟨fraction, hf⟩ := Int.exists_eq_neg_ofNat (le_of_lt (not_le.mp hwhole))
    have hpos : 0 < fraction := by omega
    obtain ⟨zeros, rfl⟩ : ∃ zeros, precision = zeros + fraction :=
      ⟨precision - fraction, by omega⟩
    have hpow : (r.exponent + (zeros + fraction : Nat)).toNat = zeros := by omega
    rw [if_neg hwhole, hpow]
    by_cases hpure : r.digits + r.exponent ≤ 0
    · rw [if_pos hpure]
      exact text_pure hpos hf hpure alternate
    · rw [if_neg hpure]
      exact text_mixed hpos hf hpure alternate

/-! ## One digit before the radix point -/

/-- The decimal digits of a number, the first one apart. -/
theorem decimal_eq_append (n : Nat) :
    Digits.decimal n = Digits.low 10 false (Decimal.digitCount n - 1) n ++
      [Digits.ofDigit false (n / 10 ^ (Decimal.digitCount n - 1))] := by
  have hpos := Decimal.digitCount_pos n
  have hfirst : n / 10 ^ (Decimal.digitCount n - 1) < 10 := by
    rw [Nat.div_lt_iff_lt_mul (Nat.pow_pos (by decide)), ← pow_succ', Nat.sub_add_cancel hpos]
    exact Decimal.lt_pow_digitCount n
  have hcount : Decimal.digitCount n = Decimal.digitCount n - 1 + 1 := by omega
  conv_lhs => rw [Digits.decimal_eq, hcount, Digits.low_add]
  rw [Digits.low, Digits.low, Nat.mod_eq_of_lt hfirst]

/-- A layout with an exponent spells the rounded decimal with its first digit apart. -/
theorem text_scientific (d : Decimal) (precision : Nat) (alternate uppercase : Bool)
    (hdigits : (d.keepDigits (precision + 1)).digits ≤ precision + 1) :
    (scientific d precision alternate uppercase).text =
      spelled false false ((d.keepDigits (precision + 1)).mantissa *
        10 ^ (precision + 1 - (d.keepDigits (precision + 1)).digits)) precision alternate ++
      exponentText (if uppercase then 69 else 101)
        (d.keepDigits (precision + 1)).leadingExponent 2 := by
  unfold scientific
  simp only
  generalize d.keepDigits (precision + 1) = r at *
  obtain ⟨places, hplaces⟩ : ∃ places, r.digits = places + 1 :=
    ⟨r.digits - 1, (Nat.sub_add_cancel (Decimal.digitCount_pos r.mantissa)).symm⟩
  -- The precision has a place for each digit but the first, and zeros after them.
  obtain ⟨zeros, rfl⟩ : ∃ zeros, precision = zeros + places := ⟨precision - places, by omega⟩
  have hsplit := decimal_eq_append r.mantissa
  have hcount : Decimal.digitCount r.mantissa - 1 = places := by
    unfold Decimal.digits at hplaces
    omega
  have hfirst : r.mantissa / 10 ^ places < 10 := by
    rw [Nat.div_lt_iff_lt_mul (Nat.pow_pos (by decide)), ← pow_succ', ← hplaces]
    exact Decimal.lt_pow_digitCount r.mantissa
  have hspelled := @spelled_mul_pow alternate false false r.mantissa zeros places
  rw [reversed_decimal, @Decimal.digitCount_of_lt (r.mantissa / base false ^ places) hfirst]
    at hspelled
  have hpow : zeros + places + 1 - r.digits = zeros := by omega
  have h1 : (((zeros + places : Nat) : Int) - ((r.digits : Int) - 1)).toNat = zeros := by omega
  have h2 : (-(((zeros + places : Nat) : Int) - ((r.digits : Int) - 1))).toNat = 0 := by omega
  rw [hpow]
  refine Eq.trans ?_ (congrArg (· ++ _) hspelled.symm)
  rw [hcount] at hsplit
  unfold text
  simp only [h1, h2]
  rw [hsplit, List.getLast?_concat, List.dropLast_concat]
  simp [Digits.low, base, radix, Radix.base, Nat.mod_eq_of_lt hfirst]

/-! ## The hexadecimal layout -/

/-- One hexadecimal digit is all of a number below 16. -/
theorem reversed_hex {n : Nat} (h : n < 16) (uppercase : Bool) :
    Digits.reversed .hex uppercase n = [Digits.ofDigit uppercase n] := by
  have hzero : n >>> (3 + 1) = 0 := by
    rw [Nat.shiftRight_eq_div_pow]
    omega
  unfold Digits.reversed
  rw [Digits.binary, dif_pos hzero, Nat.mod_eq_of_lt (by omega)]

/-- The hexadecimal layout spells the significand with its zeros, if there is one digit before the
radix point. -/
theorem text_hex (x : Binary64) (precision : Option Int) (alternate uppercase : Bool)
    {significand places zeros : Nat} {exponent : Int}
    (hnumber : HexNumber.ofValue x precision = ⟨significand, places, exponent⟩)
    (hrequested : precision.getD places = (zeros + places : Nat))
    (hlt : significand < 16 ^ (places + 1)) :
    (hex x precision alternate uppercase).text = marker true uppercase ++
      spelled true uppercase (significand * 16 ^ zeros) (zeros + places) alternate ++
      exponentText (if uppercase then 80 else 112) exponent 1 := by
  have hbits : (4 * (places : Int)).toNat = 4 * places := by omega
  have hpow : 2 ^ (4 * places) = 16 ^ places := pow_mul 2 4 places
  have hfirst : significand / 16 ^ places < 16 := by
    rw [Nat.div_lt_iff_lt_mul (Nat.pow_pos (by decide)), ← pow_succ']
    exact hlt
  have hzeros : (((zeros + places : Nat) : Int) - places).toNat = zeros := by omega
  have hnone : (-(((zeros + places : Nat) : Int) - places)).toNat = 0 := by omega
  have hlast : Digits.lastHex uppercase places (significand % 16 ^ places) =
      Digits.low (base true) uppercase places significand := by
    rw [Digits.lastHex_eq]
    exact Digits.low_mod _ _
  have hspelled := @spelled_mul_pow alternate true uppercase significand zeros places
  have hwhole := reversed_hex hfirst uppercase
  have hwhole' : Digits.reversed (radix true) uppercase (significand / base true ^ places) =
      [Digits.ofDigit uppercase (significand / 16 ^ places)] := hwhole
  rw [hwhole'] at hspelled
  refine Eq.trans ?_ (congrArg (fun spelled => marker true uppercase ++ spelled ++ _) hspelled.symm)
  unfold hex text
  simp only [hnumber, hrequested, hbits, hzeros, hnone, Int.toNat_natCast,
    Nat.shiftRight_eq_div_pow, hpow, hwhole, hlast]
  cases uppercase <;> simp [marker, latin]

end FloatParts

end FormattedOutput
