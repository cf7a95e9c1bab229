import FormattedOutput.Number.Float
import FormattedOutput.Proofs.Decimal.Significant
import FormattedOutput.Proofs.Decimal.Shortest
import FormattedOutput.Proofs.Number.Layouts

/-!
# Layouts that read back

Every layout is a numeral. The number that it stands for is the rounded decimal, or the value
itself in hexadecimal digits. With enough places nothing is rounded away, and the text reads back
as the value that was written.
-/

namespace FormattedOutput

/-- A text is a numeral without a sign that stands for a number. -/
def Reads (text : Bytes) (r : Rat) : Prop :=
  ∃ n, Numeral.readUnsigned? text = some n ∧ n.magnitude = r

namespace Numeral

/-- Digits that count `zeros` more places have `zeros` zeros more. -/
theorem magnitude_mul_pow (negative hex : Bool) (n zeros places : Nat) (exponent : Int) :
    magnitude ⟨negative, hex, n * base hex ^ zeros, zeros + places, exponent⟩ =
      magnitude ⟨negative, hex, n, places, exponent⟩ := by
  have hpos : (base hex : Rat) ≠ 0 := by
    exact_mod_cast (base_pos hex).ne'
  unfold magnitude
  simp only
  rw [pow_add]
  push_cast
  field_simp

theorem magnitude_decimal (negative : Bool) (n places : Nat) (exponent : Int) :
    magnitude ⟨negative, false, n, places, exponent⟩ =
      n * 10 ^ (exponent - places) := by
  unfold magnitude base radix
  simp only [Bool.false_eq_true, if_false, Radix.base]
  rw [zpow_sub₀ (by norm_num), zpow_natCast]
  push_cast
  ring

end Numeral

namespace FloatParts

open Numeral

variable {d : Decimal}

/-- Digits around a fixed radix point stand for the rounded decimal. -/
theorem reads_fixed (d : Decimal) (precision : Nat) (alternate : Bool) :
    Reads (fixed d precision alternate).text (roundPlaces d precision).toRat := by
  have hexp := exponent_roundPlaces_ge d (Int.natCast_nonneg precision)
  have hread := @readUnsigned?_spelled false false [] 0 ((roundPlaces d precision).mantissa *
    10 ^ ((roundPlaces d precision).exponent + precision).toNat) precision alternate rfl
  rw [List.append_nil, marker, if_neg (by decide), List.nil_append, ← text_fixed] at hread
  refine ⟨_, hread, ?_⟩
  rw [magnitude_decimal]
  have hsum : (0 : Int) - precision + ((roundPlaces d precision).exponent + precision).toNat =
      (roundPlaces d precision).exponent := by omega
  unfold Decimal.toRat
  conv_rhs => rw [← hsum, zpow_add₀ (by norm_num), zpow_natCast]
  push_cast
  ring

/-- A layout with an exponent stands for the rounded decimal. -/
theorem reads_scientific (d : Decimal) (precision : Nat) (alternate uppercase : Bool)
    (hdigits : (d.keepDigits (precision + 1)).digits ≤ precision + 1) :
    Reads (scientific d precision alternate uppercase).text
      (d.keepDigits (precision + 1)).toRat := by
  have hletter : isExponentLetter false (if uppercase then 69 else 101) = true := by
    cases uppercase <;> rfl
  have hread := @readUnsigned?_spelled false false _ _ ((d.keepDigits (precision + 1)).mantissa *
    10 ^ (precision + 1 - (d.keepDigits (precision + 1)).digits)) precision alternate
    (readExponent?_exponentText hletter (d.keepDigits (precision + 1)).leadingExponent 2)
  rw [marker, if_neg (by decide), List.nil_append,
    ← text_scientific d precision alternate uppercase hdigits] at hread
  refine ⟨_, hread, ?_⟩
  rw [magnitude_decimal]
  generalize d.keepDigits (precision + 1) = r at *
  have hpos : 1 ≤ r.digits := Decimal.digitCount_pos r.mantissa
  unfold Decimal.leadingExponent Decimal.toRat
  split_ifs with hzero
  · rw [hzero]
    simp
  · have hsum : r.exponent + r.digits - 1 - precision + (precision + 1 - r.digits : Nat) =
        r.exponent := by omega
    conv_rhs => rw [← hsum, zpow_add₀ (by norm_num), zpow_natCast]
    push_cast
    ring

/-- The hexadecimal layout stands for its number. -/
theorem reads_hex (x : Binary64) (precision : Option Int) (alternate uppercase : Bool)
    {significand places zeros : Nat} {exponent : Int}
    (hnumber : HexNumber.ofValue x precision = ⟨significand, places, exponent⟩)
    (hrequested : precision.getD places = (zeros + places : Nat))
    (hlt : significand < 16 ^ (places + 1)) :
    Reads (hex x precision alternate uppercase).text
      (significand / 16 ^ places * 2 ^ exponent) := by
  have hletter : isExponentLetter true (if uppercase then 80 else 112) = true := by
    cases uppercase <;> rfl
  have hread := @readUnsigned?_spelled true uppercase _ _ (significand * 16 ^ zeros)
    (zeros + places) alternate (readExponent?_exponentText hletter exponent 1)
  rw [← text_hex x precision alternate uppercase hnumber hrequested hlt] at hread
  refine ⟨_, hread, ?_⟩
  exact magnitude_mul_pow false true significand zeros places exponent

/-! ## Enough places -/

theorem toRat_roundPlaces {precision : Int} (h : 0 ≤ d.exponent + precision) :
    (roundPlaces d precision).toRat = d.toRat := by
  unfold roundPlaces
  simp only
  rw [Decimal.keepDigits_of_le (by omega)]
  split_ifs with hzero
  · rw [Decimal.toRat_zero, Decimal.toRat_eq_zero hzero]
  · rfl

theorem reads_fixed_exact {precision : Int} (hprecision : 0 ≤ precision)
    (h : 0 ≤ d.exponent + precision) (alternate : Bool) :
    Reads (fixed d precision alternate).text d.toRat := by
  obtain ⟨places, rfl⟩ := Int.eq_ofNat_of_zero_le hprecision
  have hreads := reads_fixed d places alternate
  rwa [toRat_roundPlaces h] at hreads

theorem reads_scientific_exact {precision : Int} (h : d.digits ≤ precision + 1)
    (alternate uppercase : Bool) :
    Reads (scientific d precision alternate uppercase).text d.toRat := by
  have hpos : 1 ≤ d.digits := Decimal.digitCount_pos d.mantissa
  obtain ⟨places, rfl⟩ := Int.eq_ofNat_of_zero_le (show 0 ≤ precision by omega)
  have hkeep := Decimal.keepDigits_of_le h
  have hreads := reads_scientific d places alternate uppercase
  rw [hkeep] at hreads
  exact hreads (by omega)

/-- Whichever layout suits the rounded decimal, it has the places for all of its digits. -/
theorem reads_general (hzero : d.mantissa = 0 → d.exponent = 0) (precision : Int)
    (alternate uppercase : Bool) :
    Reads (general d precision alternate uppercase).text
      (d.keepDigits (max precision 1)).toRat := by
  have hone : 1 ≤ max precision 1 := le_max_right precision 1
  have hdigits : (d.keepDigits (max precision 1)).digits ≤ max precision 1 :=
    Decimal.digits_keepDigits_le hone
  have hrounded := Decimal.exponent_keepDigits_eq_zero hone hzero
  unfold general
  simp only
  generalize max precision 1 = places at *
  generalize d.keepDigits places = r at *
  have hpos : 1 ≤ r.digits := Decimal.digitCount_pos r.mantissa
  have hexponent := Decimal.leadingExponent_lt hrounded
  cases alternate with
  | true =>
    -- All digits are kept, and their last one is at the last place or before it.
    simp only [if_true]
    split_ifs with hfixed
    · apply reads_fixed_exact <;> omega
    · exact reads_scientific_exact (by omega) _ _
  | false =>
    simp only [Bool.false_eq_true, if_false]
    have htrim : r.trim.mantissa = 0 → r.trim.exponent = 0 := by
      intro hm
      have hnone := r.mantissa_trim_eq_zero.mp hm
      rw [Decimal.trim, if_neg (by omega)]
      exact hrounded hnone
    rw [← Decimal.toRat_trim r]
    split_ifs with hfixed hm
    · apply reads_fixed_exact
      · exact le_rfl
      · have := htrim hm
        omega
    · apply reads_fixed_exact <;> omega
    · exact reads_scientific_exact (by omega) _ _

theorem reads_general_exact {precision : Int} (h : d.digits ≤ precision)
    (hzero : d.mantissa = 0 → d.exponent = 0) (alternate uppercase : Bool) :
    Reads (general d precision alternate uppercase).text d.toRat := by
  have hreads := reads_general hzero precision alternate uppercase
  rwa [Decimal.keepDigits_of_le (by omega)] at hreads

end FloatParts

/-! ## The values that are written -/

namespace Binary64

variable {x : Binary64}

/-- The fields of a number that is neither an infinity nor a NaN. -/
structure IsFinite (x : Binary64) : Prop where
  fraction_lt : x.fraction < 2 ^ 52
  exponent_le : x.exponent ≤ 2046

theorem isFinite_ofBits {bits : UInt64} (h : (ofBits bits).exponent ≠ 2047) :
    (ofBits bits).IsFinite := by
  have hexponent : (ofBits bits).exponent = bits.toNat / 2 ^ 52 % 2 ^ 11 := rfl
  constructor
  · exact Nat.mod_lt _ (by decide)
  · omega

/-- The place of a value among the magnitudes. -/
def position (x : Binary64) : Nat := place x.fraction x.exponent

theorem IsFinite.position_lt (hx : x.IsFinite) : x.position < overflow := by
  have := hx.fraction_lt
  have := hx.exponent_le
  unfold position place overflow
  omega

theorem position_eq_zero_iff : x.position = 0 ↔ x.exponent = 0 ∧ x.fraction = 0 := by
  unfold position place
  omega

theorem classify_eq_zero_iff : x.classify = .zero ↔ x.exponent = 0 ∧ x.fraction = 0 := by
  unfold classify
  split_ifs <;> simp_all

/-- What the layouts need of a decimal from which a magnitude is written. -/
structure Writes (d : Decimal) (k : Nat) : Prop where
  between : Between k d.toRat
  digits_le : d.digits ≤ 17
  exponent_ge : -324 ≤ d.exponent
  trim_eq : d.trim = d
  exponent_zero : d.mantissa = 0 → d.exponent = 0

theorem writes_zero (he : x.exponent = 0) (hf : x.fraction = 0) : Writes .zero x.position where
  between := by
    rw [position_eq_zero_iff.mpr ⟨he, hf⟩, Decimal.toRat_zero]
    exact between_zero
  digits_le := by
    unfold Decimal.digits
    rw [Decimal.digitCount_of_lt (by decide)]
    decide
  exponent_ge := by decide
  trim_eq := by
    rw [Decimal.trim, if_neg (by decide)]
  exponent_zero _ := rfl

theorem writes_shortest (hx : x.IsFinite) (hpos : x.fraction ≠ 0 ∨ x.exponent ≠ 0) :
    Writes (Decimal.shortest x.fraction x.exponent) x.position := by
  obtain ⟨hcoarsest, hsmall⟩ :=
    Decimal.isCoarsest_shortest hx.fraction_lt hx.exponent_le hpos
  refine ⟨hcoarsest.between, ?_, hcoarsest.exponent_ge, ?_, ?_⟩
  · exact (Decimal.digitCount_le_iff (by decide)).mpr hsmall
  · have htrimmed := hcoarsest.trimmed
    rw [Decimal.trim, if_neg (by omega)]
  · intro hzero
    exact absurd hzero hcoarsest.positive.ne'

/-- Only zeros have no shortest decimal. -/
theorem IsFinite.shortest?_eq (hx : x.IsFinite) (hzero : ¬(x.exponent = 0 ∧ x.fraction = 0)) :
    x.shortest? = some (Decimal.shortest x.fraction x.exponent) := by
  have hexp := hx.exponent_le
  have hfinite : x.isFiniteNonzero = true := by
    unfold isFiniteNonzero classify
    split_ifs <;> simp_all
  unfold shortest?
  rw [if_pos hfinite]

/-- The shortest decimal of a value, or zero for a zero, is right. -/
theorem writes (hx : x.IsFinite) : Writes (x.shortest?.getD .zero) x.position := by
  by_cases hzero : x.exponent = 0 ∧ x.fraction = 0
  · have hnone : x.shortest?.getD .zero = .zero := by
      unfold shortest? isFiniteNonzero
      rw [classify_eq_zero_iff.mpr hzero]
      rfl
    rw [hnone]
    exact writes_zero hzero.1 hzero.2
  · rw [hx.shortest?_eq hzero, Option.getD_some]
    exact writes_shortest hx (by omega)

/-- A subnormal fraction is shifted up until its top bit stands at place 52. -/
theorem shifted_fraction {fraction : Nat} (hpos : fraction ≠ 0) (hlt : fraction < 2 ^ 52) :
    2 ^ 52 ≤ fraction <<< (53 - bitLength fraction) ∧
      fraction <<< (53 - bitLength fraction) < 2 ^ 53 := by
  have hlog : fraction.log2 < 52 := (Nat.log2_lt hpos).mpr hlt
  have hsum : fraction.log2 + (53 - bitLength fraction) = 52 := by
    unfold bitLength
    rw [if_neg hpos]
    omega
  rw [Nat.shiftLeft_eq]
  generalize 53 - bitLength fraction = shift at *
  constructor
  · rw [← hsum, pow_add]
    exact Nat.mul_le_mul_right _ (Nat.log2_self_le hpos)
  · rw [show 53 = fraction.log2 + 1 + shift by omega, pow_add]
    exact Nat.mul_lt_mul_of_pos_right Nat.lt_log2_self (Nat.pow_pos (by decide))

/-- The significand with its top bit at place 52 stands for the same magnitude. -/
theorem normalized_spec (hx : x.IsFinite) (hpos : ¬(x.exponent = 0 ∧ x.fraction = 0)) :
    2 ^ 52 ≤ x.normalized.1 ∧ x.normalized.1 < 2 ^ 53 ∧
      (x.normalized.1 : Rat) / 2 ^ 52 * 2 ^ x.normalized.2 = magnitudeAt x.position := by
  have hlt := hx.fraction_lt
  unfold normalized
  by_cases hsub : x.exponent = 0
  · -- What the significand gains by the shift the exponent loses.
    obtain ⟨hge, hup⟩ := shifted_fraction (fun hzero => hpos ⟨hsub, hzero⟩) hlt
    simp only
    rw [if_pos hsub]
    refine ⟨hge, hup, ?_⟩
    have hs : significandAt x.position = x.fraction := by
      unfold significandAt position place
      split_ifs <;> omega
    have he : exponentAt x.position = -1022 - 52 := by
      unfold exponentAt position place
      split_ifs <;> omega
    unfold magnitudeAt
    rw [hs, he, Nat.shiftLeft_eq, zpow_sub₀ (by norm_num), zpow_sub₀ (by norm_num), zpow_natCast]
    generalize (2 : Rat) ^ (-1022 : Int) = least
    push_cast
    field_simp
    ring
  · simp only
    rw [if_neg hsub]
    refine ⟨by omega, by omega, ?_⟩
    have hs : significandAt x.position = 2 ^ 52 + x.fraction := by
      unfold significandAt position place
      split_ifs <;> omega
    have he : exponentAt x.position = x.exponent - 1023 - 52 := by
      unfold exponentAt position place
      split_ifs <;> omega
    unfold magnitudeAt
    rw [hs, he, zpow_sub₀ (by norm_num) _ 52]
    push_cast
    field_simp
    rfl

end Binary64

/-! ## The text of a value -/

namespace FloatParts

open Binary64

variable {x : Binary64}

/-- Hexadecimal digits with all the places of a fraction, or as many as the value needs, stand for
the value itself. -/
theorem reads_hex_exact (hx : x.IsFinite) {precision : Option Int}
    (hprecision : ∀ places ∈ precision, 13 ≤ places) (alternate uppercase : Bool) :
    Reads (hex x precision alternate uppercase).text (magnitudeAt x.position) := by
  by_cases hzero : x.exponent = 0 ∧ x.fraction = 0
  · -- A zero has no places of its own. All that are asked for are zeros.
    have hnumber : HexNumber.ofValue x precision = ⟨0, (0 : Nat), 0⟩ := by
      unfold HexNumber.ofValue
      rw [if_pos (classify_eq_zero_iff.mpr hzero)]
      rfl
    obtain ⟨zeros, hzeros⟩ : ∃ zeros : Nat, precision.getD (0 : Nat) = (zeros + 0 : Nat) := by
      apply Int.eq_ofNat_of_zero_le
      cases precision with
      | none => exact le_refl _
      | some places => exact le_trans (by decide) (hprecision places rfl)
    have hreads := reads_hex x precision alternate uppercase hnumber hzeros (by decide)
    rw [position_eq_zero_iff.mpr hzero, magnitudeAt_zero]
    simpa using hreads
  · -- Any other value has 13 places, and with as many or more nothing is rounded.
    obtain ⟨_, hup, hvalue⟩ := normalized_spec hx hzero
    have hnumber : HexNumber.ofValue x precision =
        ⟨x.normalized.1, (13 : Nat), x.normalized.2⟩ := by
      unfold HexNumber.ofValue
      rw [if_neg (mt classify_eq_zero_iff.mp hzero)]
      cases precision with
      | none => rfl
      | some places =>
        have hplaces := hprecision places rfl
        simp only
        rw [if_neg (by unfold hexPlaces; omega)]
        rfl
    obtain ⟨zeros, hzeros⟩ : ∃ zeros : Nat, precision.getD (13 : Nat) = (zeros + 13 : Nat) := by
      cases precision with
      | none => exact ⟨0, rfl⟩
      | some places =>
        have hplaces := hprecision places rfl
        refine ⟨(places - 13).toNat, ?_⟩
        rw [Option.getD_some]
        omega
    have hreads := reads_hex x precision alternate uppercase hnumber hzeros
      (lt_trans hup (by norm_num))
    rw [← hvalue]
    norm_num at hreads ⊢
    exact hreads

end FloatParts

/-- A precision with which a layout writes all digits of every value. -/
def FloatStyle.IsExact (style : FloatStyle) (precision : Option Int) : Prop :=
  match style with
  | .fixed => ∃ places ∈ precision, 324 ≤ places
  | .exponent => ∃ places ∈ precision, 16 ≤ places
  | .general => ∃ places ∈ precision, 17 ≤ places
  | .hex => ∀ places ∈ precision, 13 ≤ places

namespace Directive

open FloatParts Binary64

/-- With enough places, what a directive writes for a finite value without its sign reads back as
that value. -/
theorem reads_floatParts (d : Directive) {x : Binary64} (hx : x.IsFinite)
    (hexact : d.floatStyle.IsExact d.precision.effective) :
    ∃ r, Reads (d.floatParts x).text r ∧ Between x.position r := by
  obtain ⟨hbetween, hdigits, hexp, -, hzero⟩ := writes hx
  have hdigits' : ((x.shortest?.getD .zero).digits : Int) ≤ 17 := by exact_mod_cast hdigits
  unfold floatParts
  simp only
  unfold floatPrecision? floatPrecisionLimit
  generalize x.shortest?.getD .zero = decimal at *
  cases hstyle : d.floatStyle with
  | fixed =>
    rw [hstyle] at hexact
    obtain ⟨places, hplaces, hle⟩ := hexact
    rw [Option.mem_def.mp hplaces]
    refine ⟨decimal.toRat, reads_fixed_exact ?_ ?_ _, hbetween⟩
    · simp only [Option.map_some, Option.getD_some]
      omega
    · simp only [Option.map_some, Option.getD_some]
      omega
  | exponent =>
    rw [hstyle] at hexact
    obtain ⟨places, hplaces, hle⟩ := hexact
    rw [Option.mem_def.mp hplaces]
    refine ⟨decimal.toRat, reads_scientific_exact ?_ _ _, hbetween⟩
    simp only [Option.map_some, Option.getD_some]
    omega
  | general =>
    rw [hstyle] at hexact
    obtain ⟨places, hplaces, hle⟩ := hexact
    rw [Option.mem_def.mp hplaces]
    refine ⟨decimal.toRat, reads_general_exact ?_ hzero _ _, hbetween⟩
    simp only [Option.map_some, Option.getD_some]
    omega
  | hex =>
    rw [hstyle] at hexact
    refine ⟨magnitudeAt x.position, reads_hex_exact hx ?_ _ _, ?_⟩
    · intro places hplaces
      obtain ⟨given, hgiven, rfl⟩ := Option.mem_map.mp hplaces
      have hle := hexact given hgiven
      omega
    · rcases Nat.eq_zero_or_pos x.position with hposition | hposition
      · rw [hposition, magnitudeAt_zero]
        exact between_zero
      · exact between_magnitudeAt hposition

end Directive

end FormattedOutput
