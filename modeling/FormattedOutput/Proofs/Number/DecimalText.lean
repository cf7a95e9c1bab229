import FormattedOutput.Proofs.Decimal.Significant
import FormattedOutput.Proofs.Number.Order
import FormattedOutput.Proofs.Number.Spelling

/-!
# The text of a decimal layout

A fixed radix point is followed by so many digits, and the number is rounded to the last of them.
With an exponent one digit stands before the radix point, and the number is rounded to so many
significant digits. The general layout is one of these two texts. The exponent of the number that
is rounded to all its significant digits says which one, and zeros at the end of the fraction are
cut off.
-/

namespace FormattedOutput

open Numeral

/-! ## What the texts are -/

/-- A spelled number has so many places, and a number is rounded to the last of them. -/
structure Numeral.Spelling.IsFixed (s : Spelling false false) (r : Rat) (places : Nat) : Prop where
  length_fraction : s.fraction.length = places
  rounded : Decimal.RoundsToGrid (-places) r s.value

/-- A spelled number has one digit and so many places, and together with its exponent it is a number
rounded to these digits. The digit is a zero for zero only. -/
structure Numeral.Spelling.IsScientific (s : Spelling false false) (exponent : Int) (r : Rat)
    (places : Nat) : Prop where
  length_whole : s.whole.length = 1
  whole_ne_zero : r ≠ 0 → s.whole ≠ [48]
  length_fraction : s.fraction.length = places
  exponent_eq_zero : r = 0 → exponent = 0
  rounded : Decimal.RoundsToDigits (places + 1) r (s.value * 10 ^ exponent)

/-- The text of a number with so many digits after a fixed radix point. -/
def FixedText (r : Rat) (places : Nat) (alternate trim : Bool) (text : Bytes) : Prop :=
  ∃ s : Spelling false false, s.IsFixed r places ∧
    text = (if trim then s.trimmed else s).text alternate

/-- The text of a number with so many digits after its first one, and an exponent. -/
def ScientificText (r : Rat) (places : Nat) (alternate uppercase trim : Bool) (text : Bytes) :
    Prop :=
  ∃ (s : Spelling false false) (e : ExponentSpelling (if uppercase then 69 else 101) 2),
    s.IsScientific e.value r places ∧
      text = (if trim then s.trimmed else s).text alternate ++ e.text

/-- The text of a number with so many significant digits. The radix point is fixed if the number,
rounded to these digits, has its first digit neither far behind the radix point nor too far before
it. Without the flag zeros at the end of the fraction are cut off. -/
def GeneralText (r : Rat) (digits : Nat) (alternate uppercase : Bool) (text : Bytes) : Prop :=
  ∃ rounded exponent, Decimal.RoundsToDigits digits r rounded ∧
    Decimal.IsLeadingExponent rounded exponent ∧
      if -4 ≤ exponent ∧ exponent < digits then
        FixedText r (digits - 1 - exponent).toNat alternate (!alternate) text
      else ScientificText r (digits - 1) alternate uppercase (!alternate) text

/-! ## One text for a number -/

section

variable {r : Rat} {places digits : Nat} {alternate uppercase trim : Bool} {text text' : Bytes}

theorem FixedText.unique (h : FixedText r places alternate trim text)
    (h' : FixedText r places alternate trim text') : text = text' := by
  obtain ⟨s, hs, rfl⟩ := h
  obtain ⟨t, ht, rfl⟩ := h'
  have hlength := hs.length_fraction.trans ht.length_fraction.symm
  rw [Spelling.eq_of_value_eq hlength (hs.rounded.unique ht.rounded)]

/-- The exponent of a number with one digit before the radix point is that of its first digit. -/
theorem Numeral.Spelling.IsScientific.isLeadingExponent {s : Spelling false false} {exponent : Int}
    (h : s.IsScientific exponent r places) :
    Decimal.IsLeadingExponent (s.value * 10 ^ exponent) exponent := by
  have hpow : (0 : Rat) < 10 ^ exponent := by positivity
  by_cases hr : r = 0
  · have hzero := (h.rounded.eq_zero_iff (Nat.le_add_left 1 places)).mpr hr
    rw [Decimal.IsLeadingExponent, if_pos hzero]
    exact h.exponent_eq_zero hr
  · obtain ⟨hone, hten⟩ := Spelling.value_bounds h.length_whole (h.whole_ne_zero hr)
    have hbase : (base false : Rat) = 10 := rfl
    rw [hbase] at hten
    rw [Decimal.IsLeadingExponent, if_neg (by positivity), zpow_add_one₀ (by norm_num),
      mul_comm ((10 : Rat) ^ exponent)]
    exact ⟨le_mul_of_one_le_left hpow.le hone, mul_lt_mul_of_pos_right hten hpow⟩

theorem ScientificText.unique (h : ScientificText r places alternate uppercase trim text)
    (h' : ScientificText r places alternate uppercase trim text') : text = text' := by
  obtain ⟨s, e, hs, rfl⟩ := h
  obtain ⟨t, f, ht, rfl⟩ := h'
  have hrounded := hs.rounded.unique ht.rounded
  have hexponent : e.value = f.value := by
    have hleading := hs.isLeadingExponent
    rw [hrounded] at hleading
    exact hleading.unique ht.isLeadingExponent
  have hlength := hs.length_fraction.trans ht.length_fraction.symm
  have hvalue : s.value = t.value := by
    rw [hexponent] at hrounded
    exact mul_right_cancel₀ (by positivity) hrounded
  rw [Spelling.eq_of_value_eq hlength hvalue, ExponentSpelling.eq_of_value_eq hexponent]

theorem GeneralText.unique (h : GeneralText r digits alternate uppercase text)
    (h' : GeneralText r digits alternate uppercase text') : text = text' := by
  obtain ⟨rounded, exponent, hround, hexponent, htext⟩ := h
  obtain ⟨rounded', exponent', hround', hexponent', htext'⟩ := h'
  obtain rfl := hround.unique hround'
  obtain rfl := hexponent.unique hexponent'
  by_cases hfixed : -4 ≤ exponent ∧ exponent < digits
  · rw [if_pos hfixed] at htext htext'
    exact htext.unique htext'
  · rw [if_neg hfixed] at htext htext'
    exact htext.unique htext'

end

/-! ## Whole units -/

namespace Decimal

/-- How many units of the last of some places a decimal is. -/
def units (d : Decimal) (places : Int) : Nat := d.mantissa * 10 ^ (d.exponent + places).toNat

variable {d : Decimal} {r : Rat}

theorem units_eq {places : Int} (h : 0 ≤ d.exponent + places) :
    (d.units places : Rat) = d.toRat * 10 ^ places := by
  obtain ⟨k, hk⟩ := Int.eq_ofNat_of_zero_le h
  have hsum : (k : Int) = d.exponent + places := hk.symm
  unfold units toRat
  rw [hk, Int.toNat_natCast, mul_assoc, ← zpow_add₀ (by norm_num), ← hsum, zpow_natCast]
  push_cast
  rfl

/-- So many more places have so many zeros more. -/
theorem units_add {places : Int} (h : 0 ≤ d.exponent + places) (zeros : Nat) :
    d.units (places + zeros) = d.units places * 10 ^ zeros := by
  unfold units
  rw [show (d.exponent + (places + zeros)).toNat = (d.exponent + places).toNat + zeros by omega,
    pow_add, mul_assoc]

theorem units_trim {places : Int} (h : 0 ≤ d.exponent + places) :
    d.trim.units places = d.units places := by
  have htrim := d.le_exponent_trim
  have heq : (d.trim.units places : Rat) = d.units places := by
    rw [units_eq h, units_eq (by omega), toRat_trim]
  exact_mod_cast heq

/-- A decimal with zeros at its end is spelled with these zeros, and without them once they are cut
off. -/
theorem trimmed_units {fewer more : Nat} {shift : Int} (hexp : 0 ≤ d.exponent + shift + more)
    (htrim : 0 ≤ d.trim.exponent + shift + fewer) (hle : fewer ≤ more)
    (hlast : fewer = 0 ∨ 0 < d.mantissa ∧ d.trim.exponent + shift + fewer = 0) :
    (Spelling.ofNumber false false (d.units (shift + more)) more).trimmed =
      Spelling.ofNumber false false (d.trim.units (shift + fewer)) fewer := by
  obtain ⟨zeros, rfl⟩ : ∃ zeros, more = zeros + fewer := ⟨more - fewer, by omega⟩
  have hunits : d.units (shift + (zeros + fewer : Nat)) =
      d.trim.units (shift + fewer) * 10 ^ zeros := by
    rw [← units_trim (by omega), ← units_add (by omega)]
    congr 1
    push_cast
    ring
  have hdigit : fewer = 0 ∨ d.trim.units (shift + fewer) % 10 ≠ 0 := by
    rcases hlast with hnone | ⟨hpos, hsum⟩
    · exact Or.inl hnone
    · right
      have hten := not_ten_dvd_trim hpos
      unfold units
      rw [show (d.trim.exponent + (shift + fewer)).toNat = 0 by omega, pow_zero, mul_one]
      omega
  rw [hunits]
  exact @Spelling.trimmed_ofNumber false false _ _ hdigit zeros

/-! ## Spelled decimals -/

/-- Units of the last place are spelled with a fixed radix point. -/
theorem isFixed_units {places : Nat} (hexp : 0 ≤ d.exponent + places)
    (hround : RoundsToGrid (-places) r d.toRat) :
    (Spelling.ofNumber false false (d.units places) places).IsFixed r places := by
  refine ⟨Spelling.length_fraction_ofNumber _ _, ?_⟩
  have hvalue : (Spelling.ofNumber false false (d.units places) places).value = d.toRat := by
    rw [Spelling.value_ofNumber, units_eq hexp, zpow_natCast]
    have hpow : (10 : Rat) ^ places ≠ 0 := by positivity
    exact mul_div_cancel_right₀ _ hpow
  rwa [hvalue]

/-- With the first digit before the radix point the number fills the places behind its own digits
with zeros. -/
theorem units_leading (d : Decimal) (places : Nat) :
    d.units (-d.leadingExponent + places) = d.mantissa * 10 ^ (places + 1 - d.digits) := by
  by_cases hzero : d.mantissa = 0
  · simp [units, hzero]
  · unfold units leadingExponent
    rw [if_neg hzero]
    congr 2
    omega

/-- The first digit of a number stands alone before the radix point. -/
theorem units_leading_div {places : Nat} (hdigits : d.digits ≤ places + 1) :
    d.units (-d.leadingExponent + places) / 10 ^ places < 10 ∧
      (0 < d.mantissa → 0 < d.units (-d.leadingExponent + places) / 10 ^ places) := by
  have hsum : 10 ^ (places + 1) = 10 ^ d.digits * 10 ^ (places + 1 - d.digits) := by
    rw [← pow_add]
    congr 1
    omega
  have hpow : 0 < 10 ^ (places + 1 - d.digits) := Nat.pow_pos (by decide)
  rw [units_leading]
  constructor
  · rw [Nat.div_lt_iff_lt_mul (Nat.pow_pos (by decide)), ← pow_succ', hsum]
    exact Nat.mul_lt_mul_of_pos_right (lt_pow_digitCount d.mantissa) hpow
  · intro hpos
    have hone : 1 ≤ d.digits := digitCount_pos d.mantissa
    have hle : 10 ^ (d.digits - 1) ≤ d.mantissa := pow_digitCount_le hpos
    apply Nat.div_pos _ (Nat.pow_pos (by decide))
    calc 10 ^ places = 10 ^ (d.digits - 1) * 10 ^ (places + 1 - d.digits) := by
          rw [← pow_add]
          congr 1
          omega
      _ ≤ d.mantissa * 10 ^ (places + 1 - d.digits) := Nat.mul_le_mul_right _ hle

/-- With its exponent a number is spelled with one digit before the radix point. -/
theorem isScientific_units {places : Nat} (hdigits : d.digits ≤ places + 1)
    (hround : RoundsToDigits (places + 1) r d.toRat) :
    (Spelling.ofNumber false false (d.units (-d.leadingExponent + places)) places).IsScientific
      d.leadingExponent r places := by
  obtain ⟨hlt, hpos⟩ := units_leading_div hdigits
  have hzero : r = 0 ↔ d.mantissa = 0 := by
    rw [← hround.eq_zero_iff (by omega), toRat_eq_zero_iff]
  have hwhole := @Spelling.whole_ofNumber false false _ places hlt
  constructor
  · rw [hwhole, List.length_singleton]
  · intro hr hlead
    rw [hwhole, List.cons.injEq] at hlead
    have hfirst := Digits.ofDigit_eq_zero false _ (lt_trans hlt (by decide)) hlead.1
    exact (hpos (Nat.pos_of_ne_zero (mt hzero.mpr hr))).ne' hfirst
  · exact Spelling.length_fraction_ofNumber _ _
  · intro hr
    unfold leadingExponent
    rw [if_pos (hzero.mp hr)]
  · have hvalue : (Spelling.ofNumber false false (d.units (-d.leadingExponent + places))
        places).value * 10 ^ d.leadingExponent = d.toRat := by
      have hpow : (10 : Rat) ^ places ≠ 0 := by positivity
      have hlead : (10 : Rat) ^ d.leadingExponent ≠ 0 := by positivity
      rw [Spelling.value_ofNumber]
      by_cases hm : d.mantissa = 0
      · simp [units, hm, toRat]
      · have hexp : 0 ≤ d.exponent + (-d.leadingExponent + places) := by
          unfold leadingExponent
          rw [if_neg hm]
          omega
        rw [units_eq hexp, zpow_add₀ (by norm_num), zpow_neg, zpow_natCast]
        change d.toRat * ((10 ^ d.leadingExponent)⁻¹ * 10 ^ places) / 10 ^ places * _ = _
        field_simp
    rwa [hvalue]

end Decimal

/-! ## Layouts -/

namespace FloatParts

open Decimal

variable {c d : Decimal} {r : Rat} {places : Nat}

/-- Digits around a fixed radix point are the units of the last place. -/
theorem text_fixed_units (d : Decimal) (places : Nat) (alternate : Bool) :
    (fixed d places alternate).text =
      (Spelling.ofNumber false false ((roundPlaces d places).units places) places).text
        alternate := by
  rw [text_fixed, Spelling.text_ofNumber]
  rfl

/-- Where nothing is rounded away these are the units of the decimal. -/
theorem text_fixed_of_exact (hexp : 0 ≤ c.exponent + places) (alternate : Bool) :
    (fixed c places alternate).text =
      (Spelling.ofNumber false false (c.units places) places).text alternate := by
  have hunits : (roundPlaces c places).units places = c.units places := by
    unfold roundPlaces
    simp only
    rw [keepDigits_of_le (by omega)]
    split_ifs with hzero
    · simp [units, hzero, Decimal.zero]
    · rfl
  rw [text_fixed_units, hunits]

/-- The first digit, so many places and an exponent are the units of the last place. -/
theorem text_scientific_units (d : Decimal) (places : Nat) (alternate uppercase : Bool) :
    (scientific d places alternate uppercase).text =
      (Spelling.ofNumber false false ((d.keepDigits (places + 1)).units
        (-(d.keepDigits (places + 1)).leadingExponent + places)) places).text alternate ++
      (ExponentSpelling.ofInt (if uppercase then 69 else 101) (by decide : 0 < 2)
        (d.keepDigits (places + 1)).leadingExponent).text := by
  have hdigits := @digits_keepDigits_le d (places + 1) (by omega)
  rw [text_scientific d places alternate uppercase (by exact_mod_cast hdigits),
    Spelling.text_ofNumber, ExponentSpelling.text_ofInt, units_leading]

theorem fixedText_fixed (d : Decimal) (places : Nat) (alternate : Bool) :
    FixedText d.toRat places alternate false (fixed d places alternate).text :=
  ⟨_, isFixed_units (exponent_roundPlaces_ge d (Int.natCast_nonneg places))
    (roundPlaces_roundsToGrid d places), text_fixed_units d places alternate⟩

theorem scientificText_scientific (d : Decimal) (places : Nat) (alternate uppercase : Bool) :
    ScientificText d.toRat places alternate uppercase false
      (scientific d places alternate uppercase).text := by
  have hdigits := @digits_keepDigits_le d (places + 1) (by omega)
  refine ⟨_, _, ?_, text_scientific_units d places alternate uppercase⟩
  rw [ExponentSpelling.value_ofInt]
  apply isScientific_units (by exact_mod_cast hdigits)
  exact_mod_cast d.roundsToDigits_keepDigits (by omega : 1 ≤ places + 1)

/-! ## The general layout -/

/-- A decimal that is a number rounded to the last place is written with all its places. -/
theorem fixedText_of_exact (hexp : 0 ≤ c.exponent + places)
    (hround : RoundsToGrid (-places) r c.toRat) (alternate : Bool) :
    FixedText r places alternate false (fixed c places alternate).text :=
  ⟨_, isFixed_units hexp hround, text_fixed_of_exact hexp alternate⟩

/-- Without the zeros at its end the decimal has as few places as it needs, and the zeros that are
missing stood at the end of the fraction. -/
theorem fixedText_trim {fewer : Nat} (hexp : 0 ≤ c.exponent + places)
    (hround : RoundsToGrid (-places) r c.toRat) (htrim : 0 ≤ c.trim.exponent + fewer)
    (hle : fewer ≤ places) (hlast : fewer = 0 ∨ 0 < c.mantissa ∧ c.trim.exponent + fewer = 0) :
    FixedText r places false true (fixed c.trim fewer false).text := by
  refine ⟨_, isFixed_units hexp hround, ?_⟩
  have htrimmed := @trimmed_units c fewer places 0 (by omega) (by omega) hle (by simpa using hlast)
  rw [zero_add, zero_add] at htrimmed
  rw [text_fixed_of_exact htrim, if_pos rfl, htrimmed]

theorem scientificText_of_exact (hdigits : c.digits ≤ places + 1)
    (hround : RoundsToDigits (places + 1) r c.toRat) (alternate uppercase : Bool) :
    ScientificText r places alternate uppercase false
      (scientific c places alternate uppercase).text := by
  have hkeep : c.keepDigits (places + 1) = c := keepDigits_of_le (by omega)
  have htext := text_scientific_units c places alternate uppercase
  rw [hkeep] at htext
  refine ⟨_, _, ?_, htext⟩
  rw [ExponentSpelling.value_ofInt]
  exact isScientific_units hdigits hround

theorem scientificText_trim (hdigits : c.digits ≤ places + 1)
    (hround : RoundsToDigits (places + 1) r c.toRat) (hpos : 0 < c.mantissa) (uppercase : Bool) :
    ScientificText r places false uppercase true
      (scientific c.trim (c.trim.digits - 1) false uppercase).text := by
  obtain ⟨fewer, hfewer⟩ : ∃ fewer, c.trim.digits = fewer + 1 :=
    ⟨c.trim.digits - 1, (Nat.sub_add_cancel (digitCount_pos c.trim.mantissa)).symm⟩
  have hlead := c.leadingExponent_trim
  have hm : c.trim.mantissa ≠ 0 := mt c.mantissa_trim_eq_zero.mp hpos.ne'
  have hexp : c.leadingExponent = c.exponent + c.digits - 1 := if_neg hpos.ne'
  have hexp' : c.trim.leadingExponent = c.trim.exponent + c.trim.digits - 1 := if_neg hm
  have htrim := c.le_exponent_trim
  have hkeep : c.trim.keepDigits (fewer + 1) = c.trim := keepDigits_of_le (by omega)
  have htext := text_scientific_units c.trim fewer false uppercase
  have htrimmed := @trimmed_units c fewer places (-c.leadingExponent) (by omega) (by omega)
    (by omega) (Or.inr ⟨hpos, by omega⟩)
  rw [hkeep, hlead, ← htrimmed] at htext
  rw [show ((c.trim.digits : Int) - 1) = fewer by omega, htext]
  refine ⟨_, _, ?_, by rw [if_pos rfl]⟩
  rw [ExponentSpelling.value_ofInt]
  exact isScientific_units hdigits hround

/-- Without the zeros at its end the rounded decimal has as few places as the general layout gives
it with a fixed radix point. -/
theorem fixedText_general (hexp : 0 ≤ c.exponent + places)
    (hround : RoundsToGrid (-places) r c.toRat) (hnone : c.mantissa = 0 → c.exponent = 0) :
    FixedText r places false true
      (fixed c.trim (if c.trim.mantissa = 0 then 0 else max (-c.trim.exponent) 0) false).text := by
  have htrim := c.le_exponent_trim
  by_cases hm : c.trim.mantissa = 0
  · have hzero := hnone (c.mantissa_trim_eq_zero.mp hm)
    rw [if_pos hm]
    exact fixedText_trim hexp hround (by omega) (Nat.zero_le _) (Or.inl rfl)
  · have hpos : 0 < c.mantissa := Nat.pos_of_ne_zero (mt c.mantissa_trim_eq_zero.mpr hm)
    obtain ⟨fewer, hfewer⟩ := Int.eq_ofNat_of_zero_le (le_max_right (-c.trim.exponent) 0)
    rw [if_neg hm, hfewer]
    apply fixedText_trim hexp hround (by omega) (by omega)
    by_cases hwhole : fewer = 0
    · exact Or.inl hwhole
    · exact Or.inr ⟨hpos, by omega⟩

/-- The general layout rounds once, and the layout that it chooses does not round again. -/
theorem generalText_general (hzero : d.mantissa = 0 → d.exponent = 0) (digits : Nat)
    (hdigits : 1 ≤ digits) {precision : Int} (hprecision : max precision 1 = digits)
    (alternate uppercase : Bool) :
    GeneralText d.toRat digits alternate uppercase
      (general d precision alternate uppercase).text := by
  have hround := d.roundsToDigits_keepDigits hdigits
  have hgrid := d.roundsToGrid_keepDigits hdigits
  have hlength := @digits_keepDigits_le d digits (by omega)
  have hnone := @exponent_keepDigits_eq_zero d digits (by omega) hzero
  refine ⟨_, _, hround, isLeadingExponent_toRat _, ?_⟩
  unfold general
  simp only [hprecision]
  generalize d.keepDigits digits = c at *
  have hlead := leadingExponent_lt hnone
  have hand : (c.leadingExponent < digits ∧ -4 ≤ c.leadingExponent) ↔
      (-4 ≤ c.leadingExponent ∧ c.leadingExponent < digits) := and_comm
  simp only [hand]
  obtain ⟨least, rfl⟩ : ∃ least, digits = least + 1 := ⟨digits - 1, by omega⟩
  by_cases hfixed : -4 ≤ c.leadingExponent ∧ c.leadingExponent < (least + 1 : Nat)
  · simp only [if_pos hfixed]
    obtain ⟨places, hplaces⟩ :=
      Int.eq_ofNat_of_zero_le (show 0 ≤ ((least + 1 : Nat) : Int) - 1 - c.leadingExponent by omega)
    rw [hplaces, Int.toNat_natCast]
    have hgrid' : RoundsToGrid (-places) d.toRat c.toRat := by
      rwa [show -(places : Int) = c.leadingExponent + 1 - (least + 1 : Nat) by omega]
    cases alternate with
    | true => exact fixedText_of_exact (by omega) hgrid' true
    | false => exact fixedText_general (by omega) hgrid' hnone
  · simp only [if_neg hfixed]
    have hpos : 0 < c.mantissa := by
      by_contra hnot
      have hlead : c.leadingExponent = 0 := if_pos (Nat.eq_zero_of_not_pos hnot)
      omega
    have hplaces : ((least + 1 : Nat) : Int) - 1 = least := by omega
    rw [hplaces, Nat.add_sub_cancel]
    cases alternate with
    | true => exact scientificText_of_exact (by omega) hround true uppercase
    | false => exact scientificText_trim (by omega) hround hpos uppercase

end FloatParts

end FormattedOutput
