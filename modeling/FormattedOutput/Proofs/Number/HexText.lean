import FormattedOutput.Proofs.Number.ReadBack
import FormattedOutput.Proofs.Number.Spelling

/-!
# The text of the hexadecimal layout

A number other than zero has a one before the radix point. With fewer places than the significand
has it is rounded to the last of them, and where the rounding reaches the next power of two, the
exponent goes up.
-/

namespace FormattedOutput

open Numeral

/-! ## What the text is -/

/-- The exponent of the largest power of two in a number. -/
def IsBinaryExponent (r : Rat) (e : Int) : Prop := 2 ^ e ≤ r ∧ r < 2 ^ (e + 1)

/-- A number is rounded to a multiple of `2 ^ e`. -/
def RoundsToBinaryGrid (e : Int) (r s : Rat) : Prop :=
  ∃ n : Nat, Decimal.NearestEven (r / 2 ^ e) n ∧ s = n * 2 ^ e

/-- A number is rounded to so many hexadecimal places behind its first digit. A significand has 13
of them, and with as many or more the number stays as it is. -/
def RoundsToHexPlaces (places : Nat) (e : Int) (r s : Rat) : Prop :=
  if 13 ≤ places then s = r else RoundsToBinaryGrid (e - 4 * places) r s

variable {uppercase : Bool}

/-- A spelled zero has so many places, and all of them are zeros. -/
structure Numeral.Spelling.IsHexZero (s : Spelling true uppercase) (exponent : Int) (places : Nat) :
    Prop where
  whole_eq : s.whole = [48]
  fraction_eq : s.fraction = List.replicate places 48
  exponent_eq : exponent = 0

/-- A spelled number other than zero has a one before the radix point and so many places. Together
with its exponent it is a number rounded to these places. -/
structure Numeral.Spelling.IsHex (s : Spelling true uppercase) (exponent : Int) (r : Rat)
    (e : Int) (places : Nat) : Prop where
  whole_eq : s.whole = [49]
  length_fraction : s.fraction.length = places
  rounded : RoundsToHexPlaces places e r (s.value * 2 ^ exponent)
  exponent_eq : exponent = if s.value * 2 ^ exponent = 2 ^ (e + 1) then e + 1 else e

/-- The text of a number in hexadecimal digits, with a binary exponent. Without a precision it has
the places of its significand, and a zero has none. -/
def HexText (r : Rat) (precision : Option Nat) (alternate uppercase : Bool) (text : Bytes) :
    Prop :=
  ∃ (s : Spelling true uppercase) (p : ExponentSpelling (if uppercase then 80 else 112) 1),
    text = latin ['0', if uppercase then 'X' else 'x'] ++ s.text alternate ++ p.text ∧
      (r = 0 → s.IsHexZero p.value (precision.getD 0)) ∧
      (r ≠ 0 → ∃ e, IsBinaryExponent r e ∧ s.IsHex p.value r e (precision.getD 13))

/-! ## One text for a number -/

theorem IsBinaryExponent.unique {r : Rat} {e e' : Int} (h : IsBinaryExponent r e)
    (h' : IsBinaryExponent r e') : e = e' :=
  (Decimal.exponent_le (by norm_num) h.1 h'.2).antisymm
    (Decimal.exponent_le (by norm_num) h'.1 h.2)

theorem RoundsToHexPlaces.unique {places : Nat} {e : Int} {r s s' : Rat}
    (h : RoundsToHexPlaces places e r s) (h' : RoundsToHexPlaces places e r s') : s = s' := by
  unfold RoundsToHexPlaces at h h'
  by_cases hexact : 13 ≤ places
  · rw [if_pos hexact] at h h'
    rw [h, h']
  · rw [if_neg hexact] at h h'
    obtain ⟨n, hn, rfl⟩ := h
    obtain ⟨m, hm, rfl⟩ := h'
    rw [(hn.mono hm le_rfl).antisymm (hm.mono hn le_rfl)]

theorem HexText.unique {r : Rat} {precision : Option Nat} {alternate : Bool} {text text' : Bytes}
    (h : HexText r precision alternate uppercase text)
    (h' : HexText r precision alternate uppercase text') : text = text' := by
  obtain ⟨s, p, rfl, hzero, hnumber⟩ := h
  obtain ⟨t, q, rfl, hzero', hnumber'⟩ := h'
  by_cases hr : r = 0
  · have hs := hzero hr
    have ht := hzero' hr
    have hst : s = t := by
      ext1
      · rw [hs.whole_eq, ht.whole_eq]
      · rw [hs.fraction_eq, ht.fraction_eq]
    rw [hst, ExponentSpelling.eq_of_value_eq (hs.exponent_eq.trans ht.exponent_eq.symm)]
  · obtain ⟨e, he, hs⟩ := hnumber hr
    obtain ⟨e', he', ht⟩ := hnumber' hr
    obtain rfl := he.unique he'
    have hrounded := hs.rounded.unique ht.rounded
    have hexponent : p.value = q.value := by
      rw [hs.exponent_eq, ht.exponent_eq, hrounded]
    have hvalue : s.value = t.value := by
      rw [hexponent] at hrounded
      exact mul_right_cancel₀ (by positivity) hrounded
    have hlength := hs.length_fraction.trans ht.length_fraction.symm
    rw [Spelling.eq_of_value_eq hlength hvalue, ExponentSpelling.eq_of_value_eq hexponent]

/-! ## Significands -/

namespace FloatParts

variable {significand places : Nat} {exponent : Int} {r : Rat}

/-- A significand has a one before the radix point. -/
structure HasLeadingOne (significand places : Nat) : Prop where
  le : 16 ^ places ≤ significand
  lt : significand < 2 * 16 ^ places

theorem HasLeadingOne.div_eq (h : HasLeadingOne significand places) :
    significand / 16 ^ places = 1 := by
  have hle := h.le
  have hlt := h.lt
  rw [Nat.div_eq_iff (Nat.pow_pos (by decide))]
  omega

theorem HasLeadingOne.lt_pow (h : HasLeadingOne significand places) :
    significand < 16 ^ (places + 1) := by
  have hlt := h.lt
  rw [pow_succ]
  omega

theorem HasLeadingOne.isBinaryExponent (h : HasLeadingOne significand places) (exponent : Int) :
    IsBinaryExponent (significand / 16 ^ places * 2 ^ exponent) exponent := by
  have hpow : (0 : Rat) < 16 ^ places := by positivity
  have hle : (16 : Rat) ^ places ≤ significand := by exact_mod_cast h.le
  have hlt : (significand : Rat) < 2 * 16 ^ places := by exact_mod_cast h.lt
  have hexp : (0 : Rat) < 2 ^ exponent := by positivity
  constructor
  · apply le_mul_of_one_le_left hexp.le
    rwa [le_div_iff₀ hpow, one_mul]
  · rw [zpow_add_one₀ (by norm_num), mul_comm ((2 : Rat) ^ exponent)]
    apply mul_lt_mul_of_pos_right _ hexp
    rwa [div_lt_iff₀ hpow]

/-- Zeros behind the places of a significand do not change what is spelled. -/
theorem value_spelled_zeros (significand zeros places : Nat) :
    (Spelling.ofNumber true uppercase (significand * 16 ^ zeros) (zeros + places)).value =
      significand / 16 ^ places := by
  have hbase : (base true : Rat) = 16 := rfl
  rw [Spelling.value_ofNumber, hbase]
  push_cast
  rw [pow_add, mul_comm ((16 : Rat) ^ zeros)]
  exact mul_div_mul_right _ _ (by positivity)

theorem HasLeadingOne.whole_eq (h : HasLeadingOne significand places) (zeros : Nat) :
    (Spelling.ofNumber true uppercase (significand * 16 ^ zeros) (zeros + places)).whole =
      [49] := by
  have hone : significand * 16 ^ zeros / base true ^ (zeros + places) = 1 := by
    have hbase : base true = 16 := rfl
    rw [hbase, pow_add, mul_comm (16 ^ zeros),
      Nat.mul_div_mul_right _ _ (Nat.pow_pos (by decide)), h.div_eq]
  rw [Spelling.whole_ofNumber (by rw [hone]; decide), hone]
  rfl

/-! ## Rounding -/

/-- A rounded significand is not below a power of two that it was not below, and it may reach the
next one. -/
theorem HasLeadingOne.divideToEven_bounds {dropped : Nat}
    (h : HasLeadingOne significand (places + dropped)) :
    16 ^ places ≤ Decimal.divideToEven significand (16 ^ dropped) ∧
      Decimal.divideToEven significand (16 ^ dropped) ≤ 2 * 16 ^ places := by
  have hunit : 0 < 16 ^ dropped := Nat.pow_pos (by decide)
  have hle := h.le
  have hlt := h.lt
  rw [pow_add] at hle hlt
  have hlow : 16 ^ places ≤ significand / 16 ^ dropped := (Nat.le_div_iff_mul_le hunit).mpr hle
  have hhigh : significand / 16 ^ dropped < 2 * 16 ^ places :=
    (Nat.div_lt_iff_lt_mul hunit).mpr (by rwa [mul_assoc])
  have hge := Decimal.le_divideToEven significand (16 ^ dropped)
  have hle' := Decimal.divideToEven_le significand (16 ^ dropped)
  omega

/-- A hexadecimal digit has four bits. -/
theorem two_pow_bits (places : Nat) : 2 ^ (4 * (places : Int)).toNat = 16 ^ places := by
  rw [show (4 * (places : Int)).toNat = 4 * places by omega]
  exact pow_mul 2 4 places

theorem two_zpow_sub (exponent : Int) (places : Nat) :
    (2 : Rat) ^ (exponent - 4 * places) = 2 ^ exponent / 16 ^ places := by
  have hpow : (2 : Rat) ^ (4 * (places : Int)) = 16 ^ places := by
    rw [zpow_mul, zpow_natCast]
    norm_num
  rw [zpow_sub₀ (by norm_num), hpow]

/-- To divide a significand is to round it to the place of the last hexadecimal digit that is
left. -/
theorem roundsToBinaryGrid_divideToEven (significand places dropped : Nat) (exponent : Int) :
    RoundsToBinaryGrid (exponent - 4 * places)
      (significand / 16 ^ (places + dropped) * 2 ^ exponent)
      (Decimal.divideToEven significand (16 ^ dropped) / 16 ^ places * 2 ^ exponent) := by
  have hpow : (16 : Rat) ^ places ≠ 0 := by positivity
  have hexp : (2 : Rat) ^ exponent ≠ 0 := by positivity
  have hunit : 0 < 16 ^ dropped := Nat.pow_pos (by decide)
  have hnear := Decimal.nearestEven_divideToEven significand hunit
  refine ⟨Decimal.divideToEven significand (16 ^ dropped), ?_, ?_⟩
  · rw [two_zpow_sub]
    convert hnear using 1
    push_cast
    rw [pow_add]
    field_simp
  · rw [two_zpow_sub]
    ring

/-- The rounded significand is halved if the rounding has reached the next power of two. -/
theorem ofRounded_eq {dropped : Nat} (hplaces : places + dropped = 13)
    (h : HasLeadingOne significand 13) (exponent : Int) :
    HexNumber.ofRounded significand exponent places =
      if Decimal.divideToEven significand (16 ^ dropped) = 2 * 16 ^ places then
        ⟨16 ^ places, places, exponent + 1⟩
      else ⟨Decimal.divideToEven significand (16 ^ dropped), places, exponent⟩ := by
  have hdrop : hexPlaces - places = dropped := by
    unfold hexPlaces
    omega
  rw [← hplaces] at h
  obtain ⟨hge, hle⟩ := h.divideToEven_bounds
  unfold HexNumber.ofRounded
  simp only [hdrop, Nat.shiftRight_eq_div_pow, two_pow_bits]
  generalize Decimal.divideToEven significand (16 ^ dropped) = rounded at *
  have hcarry : 2 ≤ rounded / 16 ^ places ↔ rounded = 2 * 16 ^ places := by
    rw [Nat.le_div_iff_mul_le (Nat.pow_pos (by decide))]
    omega
  simp only [hcarry]
  by_cases hfull : rounded = 2 * 16 ^ places
  · rw [if_pos hfull, if_pos hfull, hfull, pow_one, Nat.mul_div_cancel_left _ (by decide)]
  · rw [if_neg hfull, if_neg hfull]

/-- A significand that is rounded to fewer places has a one before its radix point, as it had, and
its exponent goes up if the rounding reaches the next power of two. -/
theorem ofRounded_spec (hplaces : places < 13) (h : HasLeadingOne significand 13) (exponent : Int) :
    ∃ n e, HexNumber.ofRounded significand exponent places = ⟨n, places, e⟩ ∧
      HasLeadingOne n places ∧
      RoundsToBinaryGrid (exponent - 4 * places) (significand / 16 ^ 13 * 2 ^ exponent)
        (n / 16 ^ places * 2 ^ e) ∧
      e = if (n / 16 ^ places * 2 ^ e : Rat) = 2 ^ (exponent + 1) then exponent + 1
        else exponent := by
  obtain ⟨dropped, hdropped⟩ : ∃ dropped, places + dropped = 13 := ⟨13 - places, by omega⟩
  have hround := roundsToBinaryGrid_divideToEven significand places dropped exponent
  rw [ofRounded_eq hdropped h]
  rw [← hdropped] at h ⊢
  obtain ⟨hge, hle⟩ := h.divideToEven_bounds
  generalize Decimal.divideToEven significand (16 ^ dropped) = rounded at *
  by_cases hfull : rounded = 2 * 16 ^ places
  · have hvalue : ((2 * 16 ^ places : Nat) : Rat) / 16 ^ places * 2 ^ exponent =
        (16 ^ places : Nat) / 16 ^ places * 2 ^ (exponent + 1) := by
      rw [zpow_add_one₀ (by norm_num)]
      push_cast
      ring
    rw [hfull, hvalue] at hround
    rw [if_pos hfull]
    refine ⟨_, _, rfl, ⟨le_refl _, lt_two_mul_self (Nat.pow_pos (by decide))⟩, hround, ?_⟩
    rw [if_pos]
    push_cast
    rw [div_self (by positivity), one_mul]
  · have hlead : HasLeadingOne rounded places := ⟨hge, by omega⟩
    rw [if_neg hfull]
    refine ⟨_, _, rfl, hlead, hround, ?_⟩
    rw [if_neg (hlead.isBinaryExponent exponent).2.ne]

/-! ## The layout -/

variable {x : Binary64} {precision : Option Nat} {zeros : Nat}

/-- The layout spells a significand with the zeros that its places leave open. -/
theorem text_hex_spelling (alternate uppercase : Bool)
    (hnumber : HexNumber.ofValue x (precision.map Nat.cast) = ⟨significand, places, exponent⟩)
    (hrequested : precision.getD places = zeros + places)
    (hlt : significand < 16 ^ (places + 1)) :
    (hex x (precision.map Nat.cast) alternate uppercase).text =
      latin ['0', if uppercase then 'X' else 'x'] ++
        (Spelling.ofNumber true uppercase (significand * 16 ^ zeros) (zeros + places)).text
          alternate ++
        (ExponentSpelling.ofInt (if uppercase then 80 else 112) (by decide : 0 < 1)
          exponent).text := by
  have hrequested' : (precision.map Nat.cast).getD (places : Int) = (zeros + places : Nat) := by
    rw [← hrequested]
    cases precision <;> rfl
  rw [text_hex x _ alternate uppercase hnumber hrequested' hlt, Spelling.text_ofNumber,
    ExponentSpelling.text_ofInt]
  cases uppercase <;> rfl

/-- A zero is written as a zero, with zeros in all places. -/
theorem hexText_zero (hx : x.exponent = 0 ∧ x.fraction = 0) (precision : Option Nat)
    (alternate uppercase : Bool) :
    HexText 0 precision alternate uppercase
      (hex x (precision.map Nat.cast) alternate uppercase).text := by
  have hnumber : HexNumber.ofValue x (precision.map Nat.cast) = ⟨0, (0 : Nat), 0⟩ := by
    unfold HexNumber.ofValue
    rw [if_pos (Binary64.classify_eq_zero_iff.mpr hx)]
    rfl
  have hrequested : precision.getD 0 = precision.getD 0 + 0 := rfl
  refine ⟨_, _, text_hex_spelling alternate uppercase hnumber hrequested (by decide),
    fun _ => ⟨?_, ?_, ?_⟩, fun h => absurd rfl h⟩
  · rw [Spelling.whole_ofNumber] <;> simp [Numeral.base_pos]
    rfl
  · simp [Spelling.ofNumber, Digits.low_zero]
  · exact ExponentSpelling.value_ofInt _ _ _

/-- A significand with a one before the radix point is written with this one. -/
theorem hexText_of_hasLeadingOne {e : Int}
    (hnumber : HexNumber.ofValue x (precision.map Nat.cast) = ⟨significand, places, exponent⟩)
    (hrequested : precision.getD places = zeros + places)
    (hlead : HasLeadingOne significand places) (hplaces : zeros + places = precision.getD 13)
    (he : IsBinaryExponent r e)
    (hround : RoundsToHexPlaces (zeros + places) e r (significand / 16 ^ places * 2 ^ exponent))
    (hexponent : exponent =
      if (significand / 16 ^ places * 2 ^ exponent : Rat) = 2 ^ (e + 1) then e + 1 else e)
    (alternate uppercase : Bool) :
    HexText r precision alternate uppercase
      (hex x (precision.map Nat.cast) alternate uppercase).text := by
  have hpos : 0 < r := lt_of_lt_of_le (by positivity) he.1
  refine ⟨_, _, text_hex_spelling alternate uppercase hnumber hrequested hlead.lt_pow,
    fun h => absurd h hpos.ne', fun _ => ⟨e, he, ?_⟩⟩
  rw [← hplaces, ExponentSpelling.value_ofInt]
  constructor
  · exact hlead.whole_eq zeros
  · exact Spelling.length_fraction_ofNumber _ _
  · rwa [value_spelled_zeros]
  · rwa [value_spelled_zeros]

/-- A value other than zero is rounded if fewer places are asked for than its significand has. -/
theorem ofValue_eq (hpos : ¬(x.exponent = 0 ∧ x.fraction = 0)) (precision : Option Nat) :
    HexNumber.ofValue x (precision.map Nat.cast) =
      if 13 ≤ precision.getD 13 then ⟨x.normalized.1, (13 : Nat), x.normalized.2⟩
      else .ofRounded x.normalized.1 x.normalized.2 (precision.getD 13 : Nat) := by
  unfold HexNumber.ofValue hexPlaces
  rw [if_neg (mt Binary64.classify_eq_zero_iff.mp hpos)]
  cases precision with
  | none => rfl
  | some places =>
    simp only [Option.map_some, Option.getD_some]
    by_cases hle : 13 ≤ places
    · rw [if_pos hle, if_neg (by omega)]
      rfl
    · rw [if_neg hle, if_pos (by omega)]

/-- The layout writes the magnitude of a value. -/
theorem hexText_hex (hx : x.IsFinite) (precision : Option Nat) (alternate uppercase : Bool) :
    HexText (Binary64.magnitudeAt x.position) precision alternate uppercase
      (hex x (precision.map Nat.cast) alternate uppercase).text := by
  by_cases hzero : x.exponent = 0 ∧ x.fraction = 0
  · rw [Binary64.position_eq_zero_iff.mpr hzero, Binary64.magnitudeAt_zero]
    exact hexText_zero hzero precision alternate uppercase
  · obtain ⟨hle, hlt, hvalue⟩ := Binary64.normalized_spec hx hzero
    have hnumber := ofValue_eq hzero precision
    have hlead : HasLeadingOne x.normalized.1 13 := ⟨hle, hlt⟩
    rw [show (2 : Rat) ^ 52 = 16 ^ 13 by norm_num] at hvalue
    rw [← hvalue]
    generalize x.normalized.1 = significand at *
    generalize x.normalized.2 = exponent at *
    have he := hlead.isBinaryExponent exponent
    by_cases hfull : 13 ≤ precision.getD 13
    · rw [if_pos hfull] at hnumber
      obtain ⟨zeros, hzeros⟩ : ∃ zeros, precision.getD 13 = zeros + 13 :=
        ⟨precision.getD 13 - 13, by omega⟩
      refine hexText_of_hasLeadingOne hnumber hzeros hlead hzeros.symm he ?_ ?_ _ _
      · rw [← hzeros, RoundsToHexPlaces, if_pos hfull]
      · rw [if_neg he.2.ne]
    · rw [if_neg hfull] at hnumber
      obtain ⟨n, e, heq, hn, hround, hexponent⟩ :=
        ofRounded_spec (not_le.mp hfull) hlead exponent
      rw [heq] at hnumber
      have hrequested : precision.getD (precision.getD 13) = 0 + precision.getD 13 := by
        cases precision <;> simp
      refine hexText_of_hasLeadingOne hnumber hrequested hn (zero_add _) he ?_ hexponent _ _
      rw [zero_add, RoundsToHexPlaces, if_neg hfull]
      exact hround

end FloatParts

end FormattedOutput
