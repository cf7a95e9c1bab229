import FormattedOutput.Proofs.Decimal.Nearest
import FormattedOutput.Proofs.Number.Digits

/-!
# Rounding with a table of powers

A shortest decimal has 17 digits at most. So to keep some of them takes no power of ten above
`10 ^ 17`, and a table of the powers up to there is enough. What is kept is rounded to the place of
its last digit, rounding it once more changes nothing, and decimals on one grid keep their order.
-/

namespace FormattedOutput

namespace Decimal

variable {c d : Decimal}

/-! ## The exponent -/

theorem digits_le_of_lt {k : Nat} (hk : 0 < k) (h : d.mantissa < 10 ^ k) : d.digits ≤ k :=
  (digitCount_le_iff hk).mpr h

/-- The exponent grows by the digits that are dropped, and by one more at most. -/
theorem exponent_keepDigits_bounds (d : Decimal) (keep : Int) :
    d.exponent ≤ (d.keepDigits keep).exponent ∧
      (d.keepDigits keep).exponent ≤ d.exponent + d.digits := by
  by_cases hall : d.digits ≤ keep
  · rw [keepDigits_of_le hall]
    omega
  · rcases Int.lt_or_le keep 0 with hnegative | hnonneg
    · rw [keepDigits_of_neg hnegative]
      simp only
      omega
    · obtain ⟨k, rfl⟩ := Int.eq_ofNat_of_zero_le hnonneg
      rw [keepDigits_of_lt (by omega)]
      simp only
      split_ifs with hcarry <;> simp only <;> omega

/-! ## A table of powers -/

/-- The powers of ten that the table has. -/
def powersOfTen : List Nat := (List.range 18).map (10 ^ ·)

theorem getElem?_powersOfTen {n : Nat} (h : n ≤ 17) : powersOfTen[n]? = some (10 ^ n) := by
  unfold powersOfTen
  rw [List.getElem?_map, List.getElem?_range (by omega)]
  rfl

/-- Keeps the first digits with no power of ten but those of the table. There is no result if the
table does not have one. Half of a power is compared with what is divided off, and the carry is
looked for only after rounding up. -/
def keepDigitsByTable? (d : Decimal) (keep : Int) : Option Decimal :=
  let count : Int := d.digits
  if count ≤ keep then some d
  else if keep < 0 then some ⟨0, d.exponent + count⟩
  else
    let drop := (count - keep).toNat
    powersOfTen[drop]?.bind fun unit =>
      let quotient := d.mantissa / unit
      let rest := d.mantissa % unit
      if unit / 2 < rest ∨ (rest = unit / 2 ∧ quotient % 2 = 1) then
        if 0 < keep then
          powersOfTen[keep.toNat]?.map fun limit =>
            if quotient + 1 = limit then ⟨(quotient + 1) / 10, d.exponent + drop + 1⟩
            else ⟨quotient + 1, d.exponent + drop⟩
        else some ⟨quotient + 1, d.exponent + drop⟩
      else some ⟨quotient, d.exponent + drop⟩

/-- The number that is divided off is compared with half of an even number. -/
theorem divideToEven_of_even {n unit : Nat} (heven : unit % 2 = 0) :
    divideToEven n unit =
      if unit / 2 < n % unit ∨ (n % unit = unit / 2 ∧ n / unit % 2 = 1) then n / unit + 1
      else n / unit := by
  unfold divideToEven
  simp only
  congr 1
  rw [eq_iff_iff]
  constructor <;> rintro (hmore | ⟨hhalf, hodd⟩)
  · exact Or.inl (by omega)
  · exact Or.inr ⟨by omega, hodd⟩
  · exact Or.inl (by omega)
  · exact Or.inr ⟨by omega, hodd⟩

/-- With 17 digits at most every power that is looked up is in the table. -/
theorem keepDigitsByTable?_eq (hd : d.mantissa < 10 ^ 17) (keep : Int) :
    d.keepDigitsByTable? keep = some (d.keepDigits keep) := by
  have hdigits := digits_le_of_lt (by decide) hd
  unfold keepDigitsByTable?
  simp only
  by_cases hall : d.digits ≤ keep
  · rw [if_pos hall, keepDigits_of_le hall]
  rw [if_neg hall]
  rcases Int.lt_or_le keep 0 with hnegative | hnonneg
  · rw [if_pos hnegative, keepDigits_of_neg hnegative]
  obtain ⟨k, rfl⟩ := Int.eq_ofNat_of_zero_le hnonneg
  have hk : k < d.digits := by omega
  have hdrop : ((d.digits : Int) - k).toNat = d.digits - k := by omega
  have heven : 10 ^ (d.digits - k) % 2 = 0 := by
    rw [Nat.pow_mod, Nat.zero_pow (by omega)]
  have hlimit := d.div_lt_pow hk.le
  rw [if_neg (by omega), hdrop, getElem?_powersOfTen (by omega), Option.bind_some,
    Int.toNat_natCast, getElem?_powersOfTen (by omega), Option.map_some, keepDigits_of_lt hk,
    divideToEven_of_even heven]
  simp only [Int.natCast_pos]
  generalize d.mantissa / 10 ^ (d.digits - k) = quotient at *
  generalize d.mantissa % 10 ^ (d.digits - k) = rest
  generalize 10 ^ (d.digits - k) = unit
  by_cases hup : unit / 2 < rest ∨ (rest = unit / 2 ∧ quotient % 2 = 1)
  · rw [if_pos hup, if_pos hup]
    by_cases hpos : 0 < k
    · rw [if_pos hpos]
      simp only [hpos, true_and]
    · rw [if_neg hpos, if_neg fun hcarry => hpos hcarry.1]
  · -- Without rounding up there is no carry.
    rw [if_neg hup, if_neg hup, if_neg fun hcarry => hlimit.ne hcarry.2]

/-! ## Rounding once and twice -/

/-- On one grid rounding keeps the order. -/
theorem toRat_keepDigits_le (hexponent : c.exponent = d.exponent) (hdigits : c.digits = d.digits)
    (h : c.toRat ≤ d.toRat) (keep : Int) :
    (c.keepDigits keep).toRat ≤ (d.keepDigits keep).toRat := by
  have hgrid := c.keepDigits_roundsToGrid keep
  rw [hexponent, hdigits] at hgrid
  exact hgrid.mono (d.keepDigits_roundsToGrid keep) h

/-- A decimal of 17 digits at most is rounded to the place of the last digit that is kept, a half to
the even neighbour. It stays as it is if it has no more digits, and it is zero if less than no digit
is kept. What is left has no digit too many, so rounding it again changes nothing, and decimals on
one grid keep their order. The powers of the table are enough for all this, and the exponent grows
by 17 at most. -/
theorem keepDigits_rounds (hd : d.mantissa < 10 ^ 17) (keep : Int) :
    Digits.IsWhole 10 d.mantissa d.digits ∧
      (d.digits ≤ keep → d.keepDigits keep = d) ∧
      (0 ≤ keep → keep < d.digits →
        RoundsToGrid (d.exponent + d.digits - keep) d.toRat (d.keepDigits keep).toRat) ∧
      (keep < 0 → (d.keepDigits keep).toRat = 0) ∧
      (1 ≤ keep → (d.keepDigits keep).digits ≤ keep ∧
        (d.keepDigits keep).keepDigits keep = d.keepDigits keep) ∧
      (∀ c : Decimal, c.exponent = d.exponent → c.digits = d.digits → c.toRat ≤ d.toRat →
        (c.keepDigits keep).toRat ≤ (d.keepDigits keep).toRat) ∧
      d.keepDigitsByTable? keep = some (d.keepDigits keep) ∧
      d.exponent ≤ (d.keepDigits keep).exponent ∧
      (d.keepDigits keep).exponent ≤ d.exponent + 17 := by
  have hdigits := digits_le_of_lt (by decide) hd
  have hbounds := d.exponent_keepDigits_bounds keep
  refine ⟨Digits.isWhole_digitCount _, keepDigits_of_le, ?_, ?_, ?_, ?_,
    keepDigitsByTable?_eq hd keep, hbounds.1, by omega⟩
  · intro _ _
    exact d.keepDigits_roundsToGrid keep
  · intro hnegative
    rw [keepDigits_of_neg hnegative]
    exact toRat_eq_zero rfl
  · intro hkeep
    have hle : (d.keepDigits keep).digits ≤ keep := digits_keepDigits_le hkeep
    exact ⟨hle, keepDigits_of_le hle⟩
  · intro c hexponent hsame hle
    exact toRat_keepDigits_le hexponent hsame hle keep

/-- 9995 lies halfway between 999 and 1000 tens, and the carry gives its last digit to the
exponent. -/
theorem keepDigits_rounds_carry :
    9995 < 10 ^ 17 ∧
      (Decimal.mk 9995 (-2)).keepDigitsByTable? 3 = some ⟨100, 0⟩ ∧
      RoundsToGrid (-1) (Decimal.mk 9995 (-2)).toRat (Decimal.mk 100 0).toRat ∧
      (Decimal.mk 100 0).keepDigits 3 = ⟨100, 0⟩ := by
  have hkept : (Decimal.mk 9995 (-2)).keepDigits 3 = ⟨100, 0⟩ := by decide +kernel
  have hcount : (Decimal.mk 9995 (-2)).digits = 4 := by decide +kernel
  have hlt : (Decimal.mk 9995 (-2)).mantissa < 10 ^ 17 := by decide
  obtain ⟨-, -, hgrid, -, htwice, -, htable, -⟩ := keepDigits_rounds hlt 3
  rw [hkept] at hgrid htwice htable
  rw [hcount] at hgrid
  exact ⟨hlt, htable, hgrid (by decide) (by decide), (htwice (by decide)).2⟩

end Decimal

end FormattedOutput
