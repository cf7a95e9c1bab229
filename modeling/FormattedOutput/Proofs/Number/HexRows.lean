import FormattedOutput.Proofs.Number.FloatRows
import FormattedOutput.Proofs.Number.HexText

/-!
# The hexadecimal layout in rows with a capacity

The hexadecimal layout works on the bits of a word. Its shifts are never too far, a rounded
significand still has one digit before the radix point, and its rows have room for all parts.
-/

namespace FormattedOutput

/-- The significand with its top bit at place 52, and the exponent of that top bit. A subnormal
value is shifted up. -/
def Binary64.normalized? (x : Binary64) : Option (Nat × Int) :=
  if x.exponent = 0 then do
    let shift ← place? (53 - bitLength x.fraction)
    return (x.fraction <<< shift, -1022 - (shift : Int))
  else some (2 ^ 52 + x.fraction, (x.exponent : Int) - 1023)

namespace FloatParts.HexNumber

/-- Rounds a significand to fewer hexadecimal places, with the bits that are dropped compared with
half a unit. -/
def ofRounded? (significand : Nat) (exponent places : Int) : Option HexNumber := do
  let dropped ← place? (4 * (hexPlaces - places))
  let half := 1 <<< (← place? (dropped - 1))
  let rest := significand &&& (1 <<< dropped - 1)
  let quotient := significand >>> dropped
  let rounded :=
    if half < rest ∨ (rest = half ∧ quotient % 2 = 1) then quotient + 1 else quotient
  if 2 ≤ rounded >>> (← place? (4 * places)) then
    return ⟨rounded >>> 1, places, ← int32? (exponent + 1)⟩
  else return ⟨rounded, places, exponent⟩

/-- The significand and exponent that are written for a value. -/
def ofValue? (x : Binary64) (precision : Option Int) : Option HexNumber :=
  if x.classify = .zero then some ⟨0, 0, 0⟩
  else do
    let (significand, exponent) ← x.normalized?
    match precision with
    | some places =>
      if places < hexPlaces then ofRounded? significand exponent places
      else return ⟨significand, hexPlaces, exponent⟩
    | none => return ⟨significand, hexPlaces, exponent⟩

end FloatParts.HexNumber

namespace FloatRows

open FloatParts (point HexNumber)

/-- A base marker, one digit, a fraction of hexadecimal digits, and the binary exponent. -/
def hex? (front : Row 5) (x : Binary64) (precision : Option Int) (alternate uppercase : Bool) :
    Option FloatRows := do
  let front ← front.append? (latin ['0', if uppercase then 'X' else 'x'])
  let number ← HexNumber.ofValue? x precision
  let bits ← place? (4 * number.places)
  let whole : Row 64 ← Digits.write? .hex uppercase (number.significand >>> bits) .empty
  let requested := precision.getD number.places
  return {
    front := ← front.append? (whole.bytes.getLast?.toList ++ point requested alternate)
    digits := ← Digits.writeLastHex? uppercase number.places.toNat
      (number.significand &&& (1 <<< bits - 1)) whole.dropLast
    bodyZeros := ← int32? (requested - number.places)
    back := ← exponent? (if uppercase then 80 else 112) number.exponent 1 }

end FloatRows

/-! ## No shift is too far -/

namespace Binary64

variable {x : Binary64}

theorem bitLength_bounds {n : Nat} (hpos : n ≠ 0) (hlt : n < 2 ^ 52) :
    0 < bitLength n ∧ bitLength n ≤ 52 := by
  have hlog := (Nat.log2_lt hpos).mpr hlt
  unfold bitLength
  rw [if_neg hpos]
  omega

theorem IsFinite.normalized?_eq (hx : x.IsFinite) (hpos : ¬(x.exponent = 0 ∧ x.fraction = 0)) :
    x.normalized? = some x.normalized := by
  unfold normalized? normalized
  split_ifs with hsub
  · obtain ⟨hlow, hhigh⟩ := bitLength_bounds (fun hzero => hpos ⟨hsub, hzero⟩) hx.fraction_lt
    have hshift : (53 - (bitLength x.fraction : Int)).toNat = 53 - bitLength x.fraction := by
      omega
    rw [place?_eq (by omega) (by omega), hshift]
    rfl
  · rfl

theorem IsFinite.normalized_exponent_bounds (hx : x.IsFinite) :
    -1075 ≤ x.normalized.2 ∧ x.normalized.2 ≤ 1023 := by
  have hexponent := hx.exponent_le
  unfold normalized
  split_ifs <;> simp only <;> omega

end Binary64

namespace FloatParts

variable {significand : Nat} {exponent : Int}

/-- To compare the dropped bits with half a unit is to round to even. -/
theorem ofRounded?_eq {places : Nat} (hplaces : places < 13) (significand : Nat)
    (hge : -1075 ≤ exponent) (hle : exponent ≤ 1023) :
    HexNumber.ofRounded? significand exponent places =
      some (HexNumber.ofRounded significand exponent places) := by
  obtain ⟨k, hk⟩ : ∃ k, k + 1 = 4 * (13 - places) := ⟨4 * (13 - places) - 1, by omega⟩
  have hdropped : 4 * (hexPlaces - places) = (k + 1 : Nat) := by
    unfold hexPlaces
    omega
  have hpast : ((k + 1 : Nat) : Int) - 1 = k := by omega
  have hhalf : 2 ^ (k + 1) / 2 = 2 ^ k := by
    rw [pow_succ, Nat.mul_div_cancel _ (by decide)]
  have heven : 2 ^ (k + 1) % 2 = 0 := by
    rw [pow_succ, Nat.mul_mod_left]
  unfold HexNumber.ofRounded? HexNumber.ofRounded
  rw [hdropped, place?_eq (by omega) (by omega)]
  simp only [Option.bind_eq_bind, Option.bind_some, Int.toNat_natCast, hpast,
    place?_eq (show 0 ≤ (k : Int) by omega) (by omega),
    place?_eq (show 0 ≤ 4 * (places : Int) by omega) (by omega),
    int32?_eq (show _ ≤ exponent + 1 by omega) (by omega), Nat.one_shiftLeft,
    Nat.and_two_pow_sub_one_eq_mod, Nat.shiftRight_eq_div_pow _ (k + 1),
    Decimal.divideToEven_of_even heven, hhalf]
  split_ifs <;> rfl

variable {x : Binary64}

/-- The number that is written has at most 13 places after its radix point and one digit before it,
and its exponent has at most four digits. -/
theorem exists_ofValue?_eq (hx : x.IsFinite) (precision : Option Nat) :
    ∃ n e, ∃ places : Nat,
      HexNumber.ofValue x (precision.map Nat.cast) = ⟨n, places, e⟩ ∧
      HexNumber.ofValue? x (precision.map Nat.cast) = some ⟨n, places, e⟩ ∧
      places ≤ 13 ∧ n < 16 ^ (places + 1) ∧ e.natAbs < 10 ^ 4 := by
  by_cases hzero : x.exponent = 0 ∧ x.fraction = 0
  · have hclass := Binary64.classify_eq_zero_iff.mpr hzero
    exact ⟨0, 0, 0, if_pos hclass, if_pos hclass, by decide⟩
  obtain ⟨hle, hlt, -⟩ := Binary64.normalized_spec hx hzero
  obtain ⟨hlow, hhigh⟩ := hx.normalized_exponent_bounds
  have hlead : HasLeadingOne x.normalized.1 13 := ⟨hle, hlt⟩
  have hvalue? : HexNumber.ofValue? x (precision.map Nat.cast) =
      some (HexNumber.ofValue x (precision.map Nat.cast)) := by
    unfold HexNumber.ofValue? HexNumber.ofValue
    rw [if_neg (mt Binary64.classify_eq_zero_iff.mp hzero),
      if_neg (mt Binary64.classify_eq_zero_iff.mp hzero), hx.normalized?_eq hzero]
    cases precision with
    | none => rfl
    | some places =>
      simp only [Option.map_some, Option.bind_eq_bind, Option.bind_some]
      split_ifs with hfewer
      · exact ofRounded?_eq (by unfold hexPlaces at hfewer; omega) _ hlow hhigh
      · rfl
  have hvalue := ofValue_eq hzero precision
  rw [hvalue?]
  by_cases hfull : 13 ≤ precision.getD 13
  · rw [if_pos hfull] at hvalue
    exact ⟨_, _, 13, hvalue, congrArg some hvalue, le_refl _, hlead.lt_pow, by omega⟩
  · rw [if_neg hfull] at hvalue
    obtain ⟨n, e, hrounded, hn, -, he⟩ := ofRounded_spec (not_le.mp hfull) hlead x.normalized.2
    rw [hrounded] at hvalue
    refine ⟨n, e, _, hvalue, congrArg some hvalue, by omega, hn.lt_pow, ?_⟩
    split_ifs at he <;> omega

end FloatParts

/-! ## There is room for the layout -/

namespace FloatRows

open FloatParts (point)

variable {front : Row 5} {x : Binary64} {precision : Option Nat} {alternate uppercase : Bool}

/-- There is one digit before the radix point. -/
theorem exists_whole?_eq {n places : Nat} (hn : n < 16 ^ (places + 1)) (uppercase : Bool) :
    ∃ whole : Row 64,
      Digits.write? .hex uppercase (n >>> (4 * places)) .empty = some whole ∧
      whole.bytes = Digits.reversed .hex uppercase (n >>> (4 * places)) ∧
      whole.bytes.length = 1 := by
  have hpow : 2 ^ (4 * places) = 16 ^ places := pow_mul 2 4 places
  have hfirst : n >>> (4 * places) < 16 := by
    rw [Nat.shiftRight_eq_div_pow, hpow, Nat.div_lt_iff_lt_mul (Nat.pow_pos (by decide)),
      ← pow_succ']
    exact hn
  have hlength : (Digits.reversed .hex uppercase (n >>> (4 * places))).length = 1 := by
    rw [FloatParts.reversed_hex hfirst, List.length_singleton]
  obtain ⟨whole, hwhole, hbytes⟩ := (Row.adds_of_eq (Digits.write?_eq .hex uppercase
    (n >>> (4 * places)))).exists_empty (hlength.trans_le (show 1 ≤ 64 by decide))
  exact ⟨whole, hwhole, hbytes, by rw [hbytes, hlength]⟩

theorem exists_hex?_eq (hfront : front.bytes.length ≤ 1) (hx : x.IsFinite)
    (hprecision : precision.getD 0 ≤ 4096) :
    ∃ rows, hex? front x (precision.map Nat.cast) alternate uppercase = some rows ∧
      rows.parts =
        (FloatParts.hex x (precision.map Nat.cast) alternate uppercase).after front.bytes := by
  obtain ⟨n, e, places, hvalue, hvalue?, hplaces, hn, he⟩ :=
    FloatParts.exists_ofValue?_eq hx precision
  obtain ⟨requested, hrequested⟩ :
      ∃ requested, (precision.map Nat.cast).getD (places : Int) = requested := ⟨_, rfl⟩
  have hbounds : 0 ≤ requested ∧ requested ≤ 4096 := by
    rw [← hrequested]
    cases precision <;> simp at hprecision ⊢ <;> omega
  have hbits : (4 * (places : Int)).toNat = 4 * places := by omega
  have hpoint := length_point_le requested alternate
  obtain ⟨whole, hwhole, hbytes, hone⟩ := exists_whole?_eq hn uppercase
  have hlast : whole.bytes.getLast?.toList.length ≤ 1 := length_toList_le _
  obtain ⟨marked, hmarked, hmarker⟩ := Row.exists_append?_eq
    (show front.bytes.length + (latin ['0', if uppercase then 'X' else 'x']).length ≤ 5 by
      simp [latin]
      omega)
  obtain ⟨opening, hopening, hfilled⟩ := Row.exists_append?_eq
    (show marked.bytes.length +
        (whole.bytes.getLast?.toList ++ point requested alternate).length ≤ 5 by
      rw [hmarker, List.length_append, List.length_append]
      simp only [latin, List.length_map, List.length_cons, List.length_nil]
      omega)
  obtain ⟨digits, hdigits, hfraction⟩ :=
    (Row.adds_of_eq (Digits.writeLastHex?_eq uppercase places (n % 2 ^ (4 * places)))).exists_eq
      (show whole.dropLast.bytes.length +
        (Digits.lastHex uppercase places (n % 2 ^ (4 * places))).length ≤ 64 by
          rw [Row.bytes_dropLast, List.length_dropLast, hone, Digits.lastHex_eq, Digits.length_low]
          omega)
  obtain ⟨back, hback, htext⟩ := exists_exponent?_eq (if uppercase then 80 else 112) he
    (show 1 ≤ 4 by decide)
  unfold hex? FloatParts.hex
  simp only [hmarked, hvalue, hvalue?, hbits, Option.bind_eq_bind, Option.bind_some,
    place?_eq (show 0 ≤ 4 * (places : Int) by omega) (by omega), hwhole, hopening, hback,
    Nat.one_shiftLeft, Nat.and_two_pow_sub_one_eq_mod, Int.toNat_natCast, hdigits, hrequested,
    int32?_eq (show _ ≤ requested - places by omega) (by omega)]
  refine ⟨_, rfl, ?_⟩
  simp [parts, FloatParts.after, hmarker, hfilled, hfraction, hbytes, htext]

end FloatRows

end FormattedOutput
