import FormattedOutput.Number.Integer
import FormattedOutput.Proofs.Decimal.Endings
import FormattedOutput.Proofs.Format.FloatText
import FormattedOutput.Proofs.Number.HexRows

/-!
# There is room for every number

A number is written into rows of a fixed capacity before it becomes a field. Whatever a directive
asks for and whatever the value is, the rows have room, and all the arithmetic on the way has a
result. Only a negative precision is left out, which no directive has.
-/

namespace FormattedOutput

/-! ## The decimal of a value -/

namespace Binary64

variable {x : Binary64}

/-- The decimal that a value is written from, if the search for it ends. -/
noncomputable def decimal? (x : Binary64) : Option Decimal :=
  if x.isFiniteNonzero then Decimal.search? x.fraction x.exponent else some .zero

theorem fields_of_isFiniteNonzero (h : x.isFiniteNonzero = true) :
    x.exponent ≠ 2047 ∧ (x.fraction ≠ 0 ∨ x.exponent ≠ 0) := by
  unfold isFiniteNonzero classify at h
  split_ifs at h <;> simp at h <;> omega

theorem IsFinite.decimal?_eq (hx : x.IsFinite) : x.decimal? = some x.decimal := by
  unfold decimal? decimal shortest?
  split_ifs with hnumber
  · exact Decimal.search?_eq hx.fraction_lt hx.exponent_le (fields_of_isFiniteNonzero hnumber).2
  · rfl

/-- The decimal of a magnitude is not larger than all magnitudes. -/
theorem Writes.exponent_lt {d : Decimal} {k : Nat} (h : Writes d k) (hk : k < overflow) :
    d.exponent < 309 := by
  by_cases hzero : d.mantissa = 0
  · rw [h.exponent_zero hzero]
    decide
  have hpos := d.digits_pos
  have hnext : magnitudeAt (k + 1) ≤ magnitudeAt overflow := strictMono_magnitudeAt.monotone hk
  have hthis : magnitudeAt k ≤ magnitudeAt overflow := strictMono_magnitudeAt.monotone hk.le
  have hlimit : 2 ^ 1024 < 10 ^ 309 := by decide +kernel
  have hlt : (10 : Rat) ^ (d.digits - 1 + d.exponent) < 10 ^ (309 : Int) := by
    calc
      (10 : Rat) ^ (d.digits - 1 + d.exponent) ≤ d.toRat := d.le_toRat (by omega)
      _ ≤ upperHalfway k := h.between.bounds.2
      _ ≤ magnitudeAt overflow := by
        unfold upperHalfway
        linarith
      _ = 2 ^ 1024 := magnitudeAt_overflow
      _ < 10 ^ (309 : Int) := by exact_mod_cast hlimit
  have hexponent := (zpow_lt_zpow_iff_right₀ (by norm_num)).mp hlt
  omega

theorem IsFinite.isWithin_decimal (hx : x.IsFinite) : x.decimal.IsWithin 500 := by
  have hwrites := writes hx
  have hge := hwrites.exponent_ge
  have hlt := hwrites.exponent_lt hx.position_lt
  refine ⟨?_, by unfold decimal; omega, by unfold decimal; omega⟩
  exact (Decimal.digitCount_le_iff (by decide)).mp hwrites.digits_le

end Binary64

/-! ## Floating-point numbers -/

/-- A floating-point number in rows. An infinity or a NaN has its word in place of the digits. -/
structure FloatSheet where
  rows : FloatRows
  /-- What a number filled with zeros has before them. -/
  lead : Row 3
  word : Option Bytes := none

/-- The field that a sheet becomes. -/
def FloatSheet.field (sheet : FloatSheet) : Field where
  front := { stored := sheet.rows.front.bytes }
  body :=
    match sheet.word with
    | some word => { stored := word }
    | none => { stored := sheet.rows.digits.bytes, direction := .backward }
  back := { stored := sheet.rows.back.bytes }
  lead := { stored := sheet.lead.bytes }
  bodyZeros := sheet.rows.bodyZeros
  backZeros := sheet.rows.backZeros

theorem FloatSheet.field_eq (rows : FloatRows) (lead : Row 3) :
    (FloatSheet.mk rows lead none).field =
      { front := { stored := rows.parts.front }
        body := { stored := rows.parts.digits, direction := .backward }
        back := { stored := rows.parts.back }
        lead := { stored := lead.bytes }
        bodyZeros := rows.parts.bodyZeros
        backZeros := rows.parts.backZeros } := rfl

/-- No part of a field is longer than its limit. -/
structure Field.IsWithin (front body back lead : Nat) (field : Field) : Prop where
  front_le : field.front.length ≤ front
  body_le : field.body.length ≤ body
  back_le : field.back.length ≤ back
  lead_le : field.lead.length ≤ lead

/-- A sheet becomes this field, and its word, if it has one, is short. -/
structure FloatSheet.Becomes (sheet : FloatSheet) (field : Field) : Prop where
  field_eq : sheet.field = field
  word_le : ∀ word ∈ sheet.word, word.length ≤ 3

theorem FloatSheet.Becomes.isWithin {sheet : FloatSheet} {field : Field}
    (h : sheet.Becomes field) : field.IsWithin 5 64 6 3 := by
  have hword := h.word_le
  obtain ⟨rows, lead, word⟩ := sheet
  rw [← h.field_eq]
  refine ⟨rows.front.fits, ?_, rows.back.fits, lead.fits⟩
  cases word with
  | none => exact rows.digits.fits
  | some word => exact (hword word rfl).trans (by decide)

namespace Directive

/-- The parts of a finite value in rows, after what is in front already. -/
noncomputable def floatRows? (d : Directive) (front : Row 5) (x : Binary64) : Option FloatRows := do
  let precision := d.floatPrecision?.getD usualFloatPrecision
  match d.floatStyle with
  | .fixed => FloatRows.fixed? front (← x.decimal?) precision d.flags.alternate
  | .exponent => FloatRows.scientific? front (← x.decimal?) precision d.flags.alternate d.uppercase
  | .general => FloatRows.general? front (← x.decimal?) precision d.flags.alternate d.uppercase
  | .hex => FloatRows.hex? front x d.floatPrecision? d.flags.alternate d.uppercase

/-- A floating-point number in rows. Where zeros fill it, the sign is before them, and the base
marker is taken from the front and put after the sign. -/
noncomputable def floatSheet? (d : Directive) (x : Binary64) : Option FloatSheet := do
  let d := d.forValue x
  let sign := d.signText x.negative
  let lead ← Row.empty.append? (if d.flags.zeroPad then sign else [])
  let front ← Row.empty.append? (if d.flags.zeroPad then [] else sign)
  if x.exponent = 2047 then
    return { rows := { front, digits := .empty, back := .empty }, lead, word := d.floatWord x }
  let rows ← d.floatRows? front x
  if d.flags.zeroPad ∧ d.floatStyle = .hex then
    let (marker, front) ← rows.front.split? 2
    return { rows := { rows with front }, lead := ← lead.append? marker }
  return { rows, lead }

variable {d : Directive} {x : Binary64} {front : Row 5}

theorem floatPrecision_bounds (h : 0 ≤ d.precision.value) :
    0 ≤ d.floatPrecision?.getD usualFloatPrecision ∧
      d.floatPrecision?.getD usualFloatPrecision ≤ 4096 ∧ d.places?.getD 0 ≤ 4096 := by
  unfold floatPrecision? places? Extent.effective floatPrecisionLimit usualFloatPrecision
  split_ifs
  · simp only [Option.map_some, Option.getD_some]
    omega
  · decide

theorem exists_floatRows?_eq (h : 0 ≤ d.precision.value) (hfront : front.bytes.length ≤ 1)
    (hx : x.IsFinite) :
    ∃ rows, d.floatRows? front x = some rows ∧
      rows.parts = (d.floatParts x).after front.bytes := by
  obtain ⟨hnonneg, hle, hplaces⟩ := floatPrecision_bounds h
  have hdecimal := hx.isWithin_decimal
  unfold floatRows? floatParts
  rw [hx.decimal?_eq]
  cases d.floatStyle with
  | fixed =>
    exact FloatRows.exists_fixed?_eq hfront (hdecimal.mono (by decide)) hnonneg (by omega)
  | exponent =>
    exact FloatRows.exists_scientific?_eq hfront (hdecimal.mono (by decide)) hnonneg (by omega)
  | general => exact FloatRows.exists_general?_eq hfront hdecimal hnonneg hle
  | hex =>
    simp only [floatPrecision?_eq h]
    exact FloatRows.exists_hex?_eq hfront hx hplaces

theorem length_signText_le (d : Directive) (negative : Bool) : (d.signText negative).length ≤ 1 :=
  FloatRows.length_toList_le (d.sign? negative)

/-- The marker of a hexadecimal number stands at the front of its parts. -/
theorem take_front_hex (x : Binary64) (precision : Option Int) (alternate uppercase : Bool) :
    (FloatParts.hex x precision alternate uppercase).front.take 2 =
      latin ['0', if uppercase then 'X' else 'x'] := by
  unfold FloatParts.hex
  simp [latin]

/-- Two bytes that are taken from the front have room after a sign. -/
theorem exists_marker_moved {lead : Row 3} {letter : Char} (hlead : lead.bytes.length ≤ 1)
    (hmarker : front.bytes.take 2 = latin ['0', letter]) :
    ∃ rest full, front.split? 2 = some (latin ['0', letter], rest) ∧
      lead.append? (latin ['0', letter]) = some full ∧ rest.bytes = front.bytes.drop 2 ∧
      full.bytes = lead.bytes ++ latin ['0', letter] := by
  have htwo : (latin ['0', letter]).length = 2 := rfl
  have hlength : 2 ≤ front.bytes.length := by
    rw [← htwo, ← hmarker]
    exact List.length_take_le' 2 front.bytes
  obtain ⟨rest, hsplit, hrest⟩ := Row.exists_split?_eq hlength
  obtain ⟨full, hfull, hfilled⟩ := Row.exists_append?_eq
    (show lead.bytes.length + (latin ['0', letter]).length ≤ 3 by omega)
  exact ⟨rest, full, hmarker ▸ hsplit, hfull, hrest, hfilled⟩

theorem length_floatWord_le (d : Directive) (x : Binary64) : (d.floatWord x).length ≤ 3 := by
  unfold floatWord
  split <;> simp [latin]

/-- An infinity or a NaN is a word, which is not filled with zeros. -/
theorem exists_floatSheet?_word (d : Directive) (hword : x.exponent = 2047) :
    (d.forValue x).flags.zeroPad = false ∧
      ∃ sheet, d.floatSheet? x = some sheet ∧ sheet.Becomes ((d.forValue x).floatField x) := by
  have hsign := (d.forValue x).length_signText_le x.negative
  have hzero : (d.forValue x).flags.zeroPad = false := by
    unfold forValue
    rw [if_pos hword]
  obtain ⟨front, hfront, hbytes⟩ :=
    Row.exists_append?_empty (show _ ≤ 5 from hsign.trans (by decide))
  refine ⟨hzero, ?_⟩
  unfold floatSheet? floatField
  simp only [hzero, hfront, if_pos hword, Bool.false_eq_true, if_false, Row.append?,
    Option.bind_eq_bind, Option.bind_some]
  refine ⟨_, rfl, ?_, ?_⟩
  · simp [FloatSheet.field, hbytes]
  · rintro word ⟨rfl⟩
    exact length_floatWord_le _ x

/-- A number that is not filled with zeros has its sign in front. -/
theorem exists_floatSheet?_plain (h : 0 ≤ d.precision.value) (hx : x.IsFinite)
    (hfill : d.flags.zeroPad = false) :
    ∃ sheet, d.floatSheet? x = some sheet ∧ sheet.Becomes (d.floatField x) := by
  have hnumber : x.exponent ≠ 2047 := by have := hx.exponent_le; omega
  have hsign := d.length_signText_le x.negative
  obtain ⟨front, hfront, hbytes⟩ :=
    Row.exists_append?_empty (show _ ≤ 5 from hsign.trans (by decide))
  have hlength : front.bytes.length ≤ 1 := by
    rwa [hbytes]
  obtain ⟨rows, hrows, hparts⟩ := exists_floatRows?_eq h hlength hx
  unfold floatSheet? floatField
  rw [show d.forValue x = d from if_neg hnumber]
  simp only [hfill, hfront, hrows, if_neg hnumber, Bool.false_eq_true, if_false, false_and,
    Row.append?, Option.bind_eq_bind, Option.bind_some]
  refine ⟨_, rfl, ?_, by simp⟩
  rw [FloatSheet.field_eq, hparts]
  simp [FloatParts.after, hbytes]

/-- A number that is filled with zeros has its sign and its marker before them. -/
theorem exists_floatSheet?_filled (h : 0 ≤ d.precision.value) (hx : x.IsFinite)
    (hfill : d.flags.zeroPad = true) :
    ∃ sheet, d.floatSheet? x = some sheet ∧ sheet.Becomes (d.floatField x) ∧
      (d.floatStyle = .hex → sheet.lead.bytes =
        d.signText x.negative ++ latin ['0', if d.uppercase then 'X' else 'x']) := by
  have hnumber : x.exponent ≠ 2047 := by have := hx.exponent_le; omega
  have hsign := d.length_signText_le x.negative
  obtain ⟨lead, hlead, hsigned⟩ :=
    Row.exists_append?_empty (show _ ≤ 3 from hsign.trans (by decide))
  obtain ⟨rows, hrows, hparts⟩ :=
    exists_floatRows?_eq h (show (Row.empty : Row 5).bytes.length ≤ 1 by decide) hx
  unfold floatSheet? floatField
  rw [show d.forValue x = d from if_neg hnumber]
  simp only [hfill, hlead, hrows, if_neg hnumber, if_true, true_and, Row.append?,
    Option.bind_eq_bind, Option.bind_some]
  by_cases hhex : d.floatStyle = .hex
  · have hfront : rows.front.bytes = (d.floatParts x).front := congrArg FloatParts.front hparts
    have hparts' : d.floatParts x =
        FloatParts.hex x d.floatPrecision? d.flags.alternate d.uppercase := by
      unfold floatParts
      rw [hhex]
    have hmarker := take_front_hex x d.floatPrecision? d.flags.alternate d.uppercase
    rw [← hparts', ← hfront] at hmarker
    obtain ⟨rest, full, hsplit, hfull, hrest, hfilled⟩ :=
      exists_marker_moved (hsigned ▸ hsign) hmarker
    simp only [if_pos hhex, hsplit, hfull, Option.bind_some]
    refine ⟨_, rfl, ⟨?_, by simp⟩, fun _ => by rw [hfilled, hsigned]⟩
    have hrows' : ({ rows with front := rest } : FloatRows).parts =
        { rows.parts with front := rest.bytes } := rfl
    rw [FloatSheet.field_eq, hrows', hparts, hrest, markerLength, if_pos hhex, hfilled, hsigned,
      ← hmarker, hfront]
    rfl
  · rw [if_neg hhex]
    refine ⟨_, rfl, ⟨?_, by simp⟩, fun h => absurd h hhex⟩
    rw [FloatSheet.field_eq, hparts, markerLength, if_neg hhex]
    simp [FloatParts.after, hsigned]

/-- A sheet has room for every value, and it becomes the field of the value. -/
theorem exists_floatSheet?_eq (h : 0 ≤ d.precision.value) (hx : x.exponent ≠ 2047 → x.IsFinite) :
    ∃ sheet, d.floatSheet? x = some sheet ∧ sheet.Becomes ((d.forValue x).floatField x) ∧
      ((d.forValue x).flags.zeroPad = true → d.floatStyle = .hex → sheet.lead.bytes =
        d.signText x.negative ++ latin ['0', if d.uppercase then 'X' else 'x']) := by
  by_cases hword : x.exponent = 2047
  · obtain ⟨hzero, sheet, hsheet, hbecomes⟩ := exists_floatSheet?_word d hword
    refine ⟨sheet, hsheet, hbecomes, fun hfill => ?_⟩
    rw [hzero] at hfill
    contradiction
  rw [show d.forValue x = d from if_neg hword]
  cases hfill : d.flags.zeroPad with
  | true =>
    obtain ⟨sheet, hsheet, hbecomes, hmarker⟩ := exists_floatSheet?_filled h (hx hword) hfill
    exact ⟨sheet, hsheet, hbecomes, fun _ => hmarker⟩
  | false =>
    obtain ⟨sheet, hsheet, hbecomes⟩ := exists_floatSheet?_plain h (hx hword) hfill
    exact ⟨sheet, hsheet, hbecomes, fun hfill => absurd hfill (by decide)⟩

end Directive

/-! ## Integers -/

/-- A word has 64 digits at most in every radix. -/
theorem length_reversed_le (radix : Radix) (uppercase : Bool) {n : Nat} (h : n < 2 ^ 64) :
    (Digits.reversed radix uppercase n).length ≤ 64 := by
  obtain ⟨count, hwhole, heq⟩ := Digits.exists_reversed_eq radix uppercase n
  rw [heq, Digits.length_low]
  by_contra hmore
  have hbase := radix.two_le_base
  have hpow := calc
    2 ^ 64 ≤ radix.base ^ 64 := Nat.pow_le_pow_left hbase 64
    _ ≤ radix.base ^ (count - 1) := Nat.pow_le_pow_right (by omega) (by omega)
    _ ≤ n := hwhole.pow_le (by omega)
  omega

namespace Directive

/-- An integer in rows: two bytes for a sign or a base marker, and 64 for the digits. -/
def integerField? (d : Directive) (value : Int) : Option Field := do
  let front : Row 2 ← Row.empty.append? (d.integerFront value)
  let digits : Row 64 ←
    Digits.write? d.conversion.radix d.uppercase value.natAbs .empty
  let least := d.leastDigits value digits.bytes.length
  return {
    front := { stored := front.bytes }
    body := {
      stored := if value = 0 ∧ least = some 0 then [] else digits.bytes
      direction := .backward }
    bodyZeros := -((least.getD 0 - digits.bytes.length).toNat : Int) }

theorem length_baseMarker_le (d : Directive) : d.baseMarker.length ≤ 2 := by
  unfold baseMarker
  cases d.conversion.radix <;> cases d.uppercase <;> decide

theorem length_integerFront_le (d : Directive) (value : Int) :
    (d.integerFront value).length ≤ 2 := by
  have hsign := d.length_signText_le (value < 0)
  have hmarker := d.length_baseMarker_le
  unfold integerFront
  split_ifs
  · omega
  · exact hmarker
  · decide

theorem isWithin_integerField (d : Directive) {value : Int} (h : value.natAbs < 2 ^ 64) :
    (d.integerField value).IsWithin 2 64 0 0 := by
  refine ⟨d.length_integerFront_le value, ?_, le_refl _, le_refl _⟩
  unfold integerField ByteRun.length
  simp only
  split_ifs
  · exact Nat.zero_le _
  · exact length_reversed_le _ _ h

theorem integerField?_eq (d : Directive) {value : Int} (h : value.natAbs < 2 ^ 64) :
    d.integerField? value = some (d.integerField value) := by
  obtain ⟨front, hfront, hbytes⟩ := Row.exists_append?_empty (d.length_integerFront_le value)
  obtain ⟨digits, hdigits, hreversed⟩ :=
    (Row.adds_of_eq (Digits.write?_eq d.conversion.radix d.uppercase value.natAbs)).exists_empty
      (length_reversed_le d.conversion.radix d.uppercase h)
  unfold integerField? integerField
  simp only [hfront, hdigits, hbytes, hreversed, Option.bind_eq_bind, Option.bind_some]
  rfl

end Directive

/-- The rows have room for every number. A directive without a negative precision writes each
floating-point value into 5 bytes in front, 64 bytes of digits, 6 bytes behind and 3 bytes before
the zeros that fill it, and this is the field of the value. All the arithmetic on the way has a
result: no count of zeros overflows, no word is shifted too far, no more than 17 digits are counted,
the radix point falls within the digits, and the bytes that are put before the zeros are the base
marker. In the same way an integer of 64 bits has room in 2 bytes in front and 64 bytes of
digits. -/
theorem numbers_fit (d : Directive) (h : 0 ≤ d.precision.value) (bits : UInt64) :
    (∃ sheet, d.floatSheet? (.ofBits bits) = some sheet ∧
      sheet.field = (d.forValue (.ofBits bits)).floatField (.ofBits bits) ∧
      ((d.forValue (.ofBits bits)).flags.zeroPad = true → d.floatStyle = .hex →
        sheet.lead.bytes = d.signText (Binary64.ofBits bits).negative ++
          latin ['0', if d.uppercase then 'X' else 'x'])) ∧
      ((d.forValue (.ofBits bits)).floatField (.ofBits bits)).IsWithin 5 64 6 3 ∧
      ((Binary64.ofBits bits).isFiniteNonzero = true →
        Decimal.search? (Binary64.ofBits bits).fraction (Binary64.ofBits bits).exponent =
          some (Decimal.shortest (Binary64.ofBits bits).fraction
            (Binary64.ofBits bits).exponent)) ∧
      ∀ (e : Directive) (value : Int), value.natAbs < 2 ^ 64 →
        e.integerField? value = some (e.integerField value) ∧
          (e.integerField value).IsWithin 2 64 0 0 := by
  have hx := @Binary64.isFinite_ofBits bits
  obtain ⟨sheet, hsheet, hbecomes, hmarker⟩ := Directive.exists_floatSheet?_eq h hx
  refine ⟨⟨sheet, hsheet, hbecomes.field_eq, hmarker⟩, hbecomes.isWithin, fun hnumber => ?_, ?_⟩
  · obtain ⟨hfinite, hpos⟩ := Binary64.fields_of_isFiniteNonzero hnumber
    exact Decimal.search?_eq (hx hfinite).fraction_lt (hx hfinite).exponent_le hpos
  · intro e value hvalue
    exact ⟨e.integerField?_eq hvalue, e.isWithin_integerField hvalue⟩

/-- The least value below zero has the longest exponent, and the largest integer has the most
digits. -/
theorem numbers_fit_longest :
    ∃ d e : Directive, d.flags.zeroPad = true ∧ d.conversion = .float .hex ∧
      0 ≤ d.precision.value ∧ e.conversion = .unsigned .binary ∧
      (∃ sheet, d.floatSheet? (.ofBits 0x8000000000000001) = some sheet ∧
        sheet.lead.bytes = latin ['-', '0', 'x'] ∧
        sheet.field.back.stored = latin ['p', '-', '1', '0', '7', '4']) ∧
      e.integerField? (2 ^ 64 - 1) =
        some { body := { stored := List.replicate 64 49, direction := .backward } } := by
  refine ⟨{ flags := { zeroPad := true }, conversion := .float .hex },
    { conversion := .unsigned .binary }, rfl, rfl, by decide, rfl, ?_⟩
  obtain ⟨⟨sheet, hsheet, hfield, hmarker⟩, -, -, hinteger⟩ :=
    numbers_fit { flags := { zeroPad := true }, conversion := .float .hex } (by decide)
      0x8000000000000001
  refine ⟨⟨sheet, hsheet, hmarker (by decide) rfl, ?_⟩, ?_⟩
  · rw [hfield]
    decide +kernel
  · rw [(hinteger _ _ (by decide)).1]
    decide +kernel

end FormattedOutput
