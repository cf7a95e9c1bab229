import FormattedOutput.Proofs.Arithmetic
import FormattedOutput.Proofs.Decimal.Keeping
import FormattedOutput.Proofs.Decimal.Significant
import FormattedOutput.Proofs.Number.DigitRows
import FormattedOutput.Proofs.Number.Layouts

/-!
# Layouts in rows with a capacity

The layouts of a floating-point number put its parts into rows with a capacity, count in numbers of
32 bits and shift words of 64 bits. So they have no result where a row is full, a number too large
or a shift too far, and none for a decimal of more than 17 digits. For the decimals and the
precisions that there are, none of this happens.
-/

namespace FormattedOutput

/-! ## Decimals -/

namespace Decimal

/-- The number of digits, if there are 17 of them at most. -/
def digits? (d : Decimal) : Option Int :=
  if d.mantissa < 10 ^ 17 then some d.digits else none

/-- Keeps the first digits, if the powers of the table are enough. -/
def round? (d : Decimal) (keep : Int) : Option Decimal := do
  let _ ← d.digits?
  let rounded ← d.keepDigitsByTable? keep
  return { rounded with exponent := ← int32? rounded.exponent }

/-- The exponent of the first digit, 0 for zero. -/
def leadingExponent? (d : Decimal) : Option Int :=
  if d.mantissa = 0 then some 0
  else do int32? ((← int32? (d.exponent + (← d.digits?))) - 1)

/-- A decimal has 17 digits at most, and its exponent is within a limit. -/
structure IsWithin (limit : Int) (d : Decimal) : Prop where
  mantissa_lt : d.mantissa < 10 ^ 17
  exponent_ge : -limit ≤ d.exponent
  exponent_le : d.exponent ≤ limit

variable {d : Decimal} {limit : Int}

theorem IsWithin.digits_le (h : d.IsWithin limit) : d.digits ≤ 17 :=
  digits_le_of_lt (by decide) h.mantissa_lt

theorem digits_pos (d : Decimal) : 0 < d.digits := digitCount_pos d.mantissa

theorem IsWithin.digits?_eq (h : d.IsWithin limit) : d.digits? = some (d.digits : Int) :=
  if_pos h.mantissa_lt

theorem mantissa_keepDigits_lt (h : d.mantissa < 10 ^ 17) (keep : Int) :
    (d.keepDigits keep).mantissa < 10 ^ 17 := by
  by_cases hall : d.digits ≤ keep
  · rwa [keepDigits_of_le hall]
  rcases Int.lt_or_le keep 0 with hnegative | hnonneg
  · rw [keepDigits_of_neg hnegative]
    exact Nat.pow_pos (by decide)
  · obtain ⟨k, rfl⟩ := Int.eq_ofNat_of_zero_le hnonneg
    -- One digit at least is dropped.
    have hdrop : 10 ^ 1 ≤ 10 ^ (d.digits - k) := Nat.pow_le_pow_right (by decide) (by omega)
    have hquotient : d.mantissa / 10 ^ (d.digits - k) ≤ d.mantissa / 10 ^ 1 :=
      Nat.div_le_div_left hdrop (by decide)
    have hrounded := divideToEven_le d.mantissa (10 ^ (d.digits - k))
    rw [keepDigits_of_lt (by omega)]
    simp only
    split_ifs <;> simp only <;> omega

theorem IsWithin.keepDigits (h : d.IsWithin limit) (keep : Int) :
    (d.keepDigits keep).IsWithin (limit + 17) := by
  have hbounds := d.exponent_keepDigits_bounds keep
  have hdigits := h.digits_le
  have hge := h.exponent_ge
  have hle := h.exponent_le
  exact ⟨mantissa_keepDigits_lt h.mantissa_lt keep, by omega, by omega⟩

theorem IsWithin.trim (h : d.IsWithin limit) : d.trim.IsWithin (limit + 17) := by
  have hmantissa := h.mantissa_lt
  have hdigits := h.digits_le
  have hge := h.exponent_ge
  have hle := h.exponent_le
  have hmono := d.le_exponent_trim
  refine ⟨d.mantissa_trim_le.trans_lt hmantissa, by omega, ?_⟩
  by_cases hzero : d.mantissa = 0
  · rw [Decimal.trim, if_neg (by omega)]
    omega
  · have hleading := d.leadingExponent_trim
    have hpos := d.trim.digits_pos
    unfold leadingExponent at hleading
    rw [if_neg hzero, if_neg (mt d.mantissa_trim_eq_zero.mp hzero)] at hleading
    omega

theorem IsWithin.mono {bound : Int} (h : d.IsWithin limit) (hle : limit ≤ bound) :
    d.IsWithin bound :=
  ⟨h.mantissa_lt, by have := h.exponent_ge; omega, h.exponent_le.trans hle⟩

theorem IsWithin.round?_eq (h : d.IsWithin limit) (hlimit : limit ≤ 10000) (keep : Int) :
    d.round? keep = some (d.keepDigits keep) := by
  have hwithin := h.keepDigits keep
  have hge := hwithin.exponent_ge
  have hle := hwithin.exponent_le
  unfold round?
  simp only [h.digits?_eq, keepDigitsByTable?_eq h.mantissa_lt, Option.bind_eq_bind,
    Option.bind_some, int32?_eq (show _ ≤ (d.keepDigits keep).exponent by omega) (by omega)]
  rfl

theorem IsWithin.leadingExponent?_eq (h : d.IsWithin limit) (hlimit : limit ≤ 10000) :
    d.leadingExponent? = some d.leadingExponent := by
  have hge := h.exponent_ge
  have hle := h.exponent_le
  have hdigits := h.digits_le
  unfold leadingExponent? leadingExponent
  split_ifs
  · rfl
  · rw [h.digits?_eq, Option.bind_eq_bind, Option.bind_some, int32?_eq (by omega) (by omega),
      Option.bind_some, int32?_eq (by omega) (by omega)]

theorem IsWithin.leadingExponent_bounds (h : d.IsWithin limit) (hlimit : 0 ≤ limit) :
    -limit ≤ d.leadingExponent ∧ d.leadingExponent ≤ limit + 16 := by
  have hge := h.exponent_ge
  have hle := h.exponent_le
  have hdigits := h.digits_le
  have hpos := d.digits_pos
  unfold leadingExponent
  split_ifs <;> omega

end Decimal

/-! ## Rows -/

/-- The parts with more bytes in front of them. -/
def FloatParts.after (opening : Bytes) (parts : FloatParts) : FloatParts :=
  { parts with front := opening ++ parts.front }

/-- The parts of a floating-point number in rows. -/
structure FloatRows where
  front : Row 5
  digits : Row 64
  back : Row 6
  bodyZeros : Int := 0
  backZeros : Int := 0

namespace FloatRows

open FloatParts (point exponentText)

/-- What the rows hold. -/
def parts (rows : FloatRows) : FloatParts where
  front := rows.front.bytes
  digits := rows.digits.bytes
  back := rows.back.bytes
  bodyZeros := rows.bodyZeros
  backZeros := rows.backZeros

/-- An exponent: its letter, its sign and at least `least` digits. -/
def exponent? (letter : UInt8) (exponent : Int) (least : Nat) : Option (Row 6) := do
  let r ← Row.empty.push? letter
  let r ← r.push? (if exponent < 0 then 45 else 43)
  let digits : Row 64 ← Digits.write? .decimal false exponent.natAbs .empty
  let r ← r.append? (List.replicate (least - digits.bytes.length) 48)
  r.append? digits.bytes.reverse

/-- `precision` digits after a fixed radix point. -/
def fixed? (front : Row 5) (d : Decimal) (precision : Int) (alternate : Bool) :
    Option FloatRows := do
  let whole ← int32? ((← d.digits?) + d.exponent)
  let rounded ← d.round? (← int32? (whole + precision))
  let rounded := if rounded.mantissa = 0 then .zero else rounded
  let count ← rounded.digits?
  let digits ← Digits.write? .decimal false rounded.mantissa .empty
  if 0 ≤ rounded.exponent then
    return {
      front, digits
      bodyZeros := rounded.exponent
      back := ← Row.empty.append? (point precision alternate)
      backZeros := precision }
  else
    let whole ← int32? (count + rounded.exponent)
    let backZeros ← int32? (precision + rounded.exponent)
    if whole ≤ 0 then
      return {
        front := ← front.append? (latin ['0', '.'])
        bodyZeros := whole
        digits, back := .empty, backZeros }
    else
      let place ← int32? (-rounded.exponent)
      return {
        front
        digits := ← digits.insert? place.toNat 46
        back := .empty, backZeros }

/-- One digit, `precision` digits after the radix point, and the exponent. -/
def scientific? (front : Row 5) (d : Decimal) (precision : Int) (alternate uppercase : Bool) :
    Option FloatRows := do
  let rounded ← d.round? (← int32? (precision + 1))
  let count ← rounded.digits?
  let exponent ← rounded.leadingExponent?
  let digits ← Digits.write? .decimal false rounded.mantissa .empty
  return {
    front := ← front.append? (digits.bytes.getLast?.toList ++ point precision alternate)
    digits := digits.dropLast
    bodyZeros := ← int32? (precision - (← int32? (count - 1)))
    back := ← exponent? (if uppercase then 69 else 101) exponent 2 }

/-- At least one and at most `precision` digits, in whichever decimal layout suits the exponent of
the rounded value. -/
def general? (front : Row 5) (d : Decimal) (precision : Int) (alternate uppercase : Bool) :
    Option FloatRows := do
  let places := max precision 1
  let rounded ← d.round? places
  let exponent ← rounded.leadingExponent?
  let kept := if alternate then rounded else rounded.trim
  let _ ← int32? kept.exponent
  if exponent < places ∧ -4 ≤ exponent then
    let fraction ←
      if alternate then int32? ((← int32? (places - 1)) - exponent)
      else if kept.mantissa = 0 then some 0
      else (int32? (-kept.exponent)).map fun fraction => max fraction 0
    fixed? front kept fraction alternate
  else
    let fraction ← if alternate then int32? (places - 1) else int32? ((← kept.digits?) - 1)
    scientific? front kept fraction alternate uppercase

/-! ## There is room for the digits -/

theorem length_decimal (n : Nat) : (Digits.decimal n).length = Decimal.digitCount n := by
  rw [Digits.decimal_eq, Digits.length_low]

/-- A row of 64 bytes has room for all the digits of a decimal. -/
theorem exists_write?_eq {n k : Nat} (hk : 0 < k) (hn : n < 10 ^ k) (hroom : k ≤ 64) :
    ∃ digits : Row 64, Digits.write? .decimal false n .empty = some digits ∧
      digits.bytes = Digits.decimal n := by
  apply (Row.adds_of_eq (Digits.write?_eq .decimal false n)).exists_empty
  rw [Digits.reversed, length_decimal]
  exact ((Decimal.digitCount_le_iff hk).mpr hn).trans hroom

theorem length_exponentText_le (letter : UInt8) {exponent : Int} (h : exponent.natAbs < 10 ^ 4)
    {least : Nat} (hleast : least ≤ 4) : (exponentText letter exponent least).length ≤ 6 := by
  have hcount := (Decimal.digitCount_le_iff (by decide)).mpr h
  unfold exponentText
  simp only [List.length_append, List.length_cons, List.length_nil, List.length_replicate,
    List.length_reverse, length_decimal]
  omega

/-- Four digits of an exponent have room after its letter and its sign. -/
theorem exists_exponent?_eq (letter : UInt8) {exponent : Int} (h : exponent.natAbs < 10 ^ 4)
    {least : Nat} (hleast : least ≤ 4) :
    ∃ back, exponent? letter exponent least = some back ∧
      back.bytes = exponentText letter exponent least := by
  obtain ⟨digits, hdigits, hbytes⟩ := exists_write?_eq (by decide) h (by decide)
  have htext : exponent? letter exponent least =
      Row.empty.append? (exponentText letter exponent least) := by
    unfold exponent? exponentText
    simp only [hdigits, hbytes, Option.bind_eq_bind, Option.bind_some, List.cons_append,
      List.nil_append, Row.append?, Row.append?_append]
  rw [htext]
  exact Row.exists_append?_empty (length_exponentText_le letter h hleast)

/-! ## There is room for the layouts -/

variable {front : Row 5} {d : Decimal} {precision : Int} {alternate uppercase : Bool}

theorem length_point_le (fraction : Int) (alternate : Bool) :
    (point fraction alternate).length ≤ 1 := by
  unfold point
  split_ifs <;> decide

theorem length_toList_le (byte? : Option UInt8) : byte?.toList.length ≤ 1 := by
  cases byte? <;> simp

theorem isWithin_roundPlaces {limit : Int} (hd : d.IsWithin limit) (hlimit : 0 ≤ limit)
    (precision : Int) : (FloatParts.roundPlaces d precision).IsWithin (limit + 17) := by
  unfold FloatParts.roundPlaces
  simp only
  split_ifs
  · exact ⟨by decide, by simp [Decimal.zero]; omega, by simp [Decimal.zero]; omega⟩
  · exact hd.keepDigits _

theorem exists_fixed?_eq (hfront : front.bytes.length ≤ 1) (hd : d.IsWithin 1000)
    (hnonneg : 0 ≤ precision) (hprecision : precision ≤ 5000) :
    ∃ rows, fixed? front d precision alternate = some rows ∧
      rows.parts = (FloatParts.fixed d precision alternate).after front.bytes := by
  have hge := hd.exponent_ge
  have hle := hd.exponent_le
  have hdigits := hd.digits_le
  have hrounded := isWithin_roundPlaces hd (by decide) precision
  have hround : (if (d.keepDigits (d.digits + d.exponent + precision)).mantissa = 0 then .zero
      else d.keepDigits (d.digits + d.exponent + precision)) =
        FloatParts.roundPlaces d precision := rfl
  unfold fixed? FloatParts.fixed
  simp only [hd.digits?_eq, hd.round?_eq (by decide), Option.bind_eq_bind, Option.bind_some,
    int32?_eq (show _ ≤ d.digits + d.exponent by omega) (by omega),
    int32?_eq (show _ ≤ d.digits + d.exponent + precision by omega) (by omega), hround]
  generalize FloatParts.roundPlaces d precision = r at hrounded ⊢
  have hge := hrounded.exponent_ge
  have hle := hrounded.exponent_le
  have hcount := hrounded.digits_le
  obtain ⟨digits, hwrite, hbytes⟩ := exists_write?_eq (by decide) hrounded.mantissa_lt (by decide)
  simp only [hrounded.digits?_eq, hwrite, Option.bind_some]
  -- A whole number has the point behind it.
  by_cases hwhole : 0 ≤ r.exponent
  · have hroom : (point precision alternate).length ≤ 6 :=
      (length_point_le precision alternate).trans (by decide)
    obtain ⟨back, hback, hpoint⟩ := Row.exists_append?_empty hroom
    rw [if_pos hwhole, if_pos hwhole, hback]
    refine ⟨_, rfl, ?_⟩
    simp [parts, FloatParts.after, hbytes, hpoint]
  rw [if_neg hwhole, if_neg hwhole, int32?_eq (show _ ≤ r.digits + r.exponent by omega) (by omega),
    int32?_eq (show _ ≤ precision + r.exponent by omega) (by omega)]
  simp only [Option.bind_some]
  -- A pure fraction has the point in front, and otherwise there are more digits than places.
  by_cases hpure : r.digits + r.exponent ≤ 0
  · obtain ⟨opening, hopening, hpoint⟩ := Row.exists_append?_eq
      (show front.bytes.length + (latin ['0', '.']).length ≤ 5 by
        rw [show (latin ['0', '.']).length = 2 from rfl]
        omega)
    rw [if_pos hpure, if_pos hpure, hopening]
    refine ⟨_, rfl, ?_⟩
    simp [parts, FloatParts.after, hbytes, hpoint]
  · have hlength : digits.bytes.length = r.digits := by
      rw [hbytes, length_decimal]
      rfl
    obtain ⟨pointed, hinsert, hpoint⟩ := Row.exists_insert?_eq
      (show (-r.exponent).toNat ≤ digits.bytes.length by omega)
      (show digits.bytes.length < 64 by omega) 46
    rw [if_neg hpure, if_neg hpure, int32?_eq (show _ ≤ -r.exponent by omega) (by omega),
      Option.bind_some, hinsert]
    refine ⟨_, rfl, ?_⟩
    simp [parts, FloatParts.after, hbytes, hpoint]

theorem exists_scientific?_eq (hfront : front.bytes.length ≤ 1) (hd : d.IsWithin 1000)
    (hnonneg : 0 ≤ precision) (hprecision : precision ≤ 5000) :
    ∃ rows, scientific? front d precision alternate uppercase = some rows ∧
      rows.parts =
        (FloatParts.scientific d precision alternate uppercase).after front.bytes := by
  have hrounded := hd.keepDigits (precision + 1)
  unfold scientific? FloatParts.scientific
  simp only [Option.bind_eq_bind, Option.bind_some, hd.round?_eq (by decide),
    int32?_eq (show _ ≤ precision + 1 by omega) (by omega)]
  generalize d.keepDigits (precision + 1) = r at hrounded ⊢
  have hcount := hrounded.digits_le
  have hpos := r.digits_pos
  have hexponent := hrounded.leadingExponent_bounds (by decide)
  obtain ⟨digits, hwrite, hbytes⟩ := exists_write?_eq (by decide) hrounded.mantissa_lt (by decide)
  have hpoint := length_point_le precision alternate
  have hlast : digits.bytes.getLast?.toList.length ≤ 1 := length_toList_le _
  obtain ⟨opening, hopening, hfilled⟩ := Row.exists_append?_eq
    (show front.bytes.length +
        (digits.bytes.getLast?.toList ++ point precision alternate).length ≤ 5 by
      rw [List.length_append]
      omega)
  obtain ⟨back, hback, htext⟩ := exists_exponent?_eq (if uppercase then 69 else 101)
    (show r.leadingExponent.natAbs < 10 ^ 4 by omega) (show 2 ≤ 4 by decide)
  simp only [hrounded.digits?_eq, hrounded.leadingExponent?_eq (by decide), hwrite, hopening, hback,
    int32?_eq (show _ ≤ (r.digits : Int) - 1 by omega) (by omega),
    int32?_eq (show _ ≤ precision - (r.digits - 1) by omega) (by omega), Option.bind_some]
  refine ⟨_, rfl, ?_⟩
  simp [parts, FloatParts.after, hbytes, hfilled, htext]

theorem exists_general?_eq (hfront : front.bytes.length ≤ 1) (hd : d.IsWithin 500)
    (hnonneg : 0 ≤ precision) (hprecision : precision ≤ 4096) :
    ∃ rows, general? front d precision alternate uppercase = some rows ∧
      rows.parts = (FloatParts.general d precision alternate uppercase).after front.bytes := by
  obtain ⟨places, hplaces⟩ : ∃ places, places = max precision 1 := ⟨_, rfl⟩
  have hrounded := hd.keepDigits places
  have hkept : (if alternate then d.keepDigits places
      else (d.keepDigits places).trim).IsWithin 1000 := by
    split_ifs
    · exact hrounded.mono (by decide)
    · exact hrounded.trim.mono (by decide)
  have hexponent := hrounded.leadingExponent_bounds (by decide)
  unfold general? FloatParts.general
  simp only [← hplaces, hd.round?_eq (by decide), hrounded.leadingExponent?_eq (by decide),
    Option.bind_eq_bind, Option.bind_some]
  generalize (d.keepDigits places).leadingExponent = exponent at hexponent ⊢
  generalize (if alternate then d.keepDigits places else (d.keepDigits places).trim) = kept
    at hkept ⊢
  have hge := hkept.exponent_ge
  have hle := hkept.exponent_le
  have hcount := hkept.digits_le
  have hpos := kept.digits_pos
  simp only [hkept.digits?_eq, int32?_eq (show _ ≤ kept.exponent by omega) (by omega),
    int32?_eq (show _ ≤ -kept.exponent by omega) (by omega),
    int32?_eq (show _ ≤ places - 1 by omega) (by omega),
    int32?_eq (show _ ≤ (kept.digits : Int) - 1 by omega) (by omega),
    int32?_eq (show _ ≤ places - 1 - exponent by omega) (by omega),
    Option.bind_some, Option.map_some]
  by_cases hsuits : exponent < places ∧ -4 ≤ exponent
  · rw [if_pos hsuits, if_pos hsuits]
    split_ifs
    · exact exists_fixed?_eq hfront hkept (by omega) (by omega)
    · exact exists_fixed?_eq hfront hkept (by omega) (by omega)
    · exact exists_fixed?_eq hfront hkept (by omega) (by omega)
  · rw [if_neg hsuits, if_neg hsuits]
    split_ifs
    · exact exists_scientific?_eq hfront hkept (by omega) (by omega)
    · exact exists_scientific?_eq hfront hkept (by omega) (by omega)

end FloatRows

end FormattedOutput
