import FormattedOutput.Proofs.Number.Numeral

/-!
# The text of an integer

An integer is written as a sign or a base marker with digits behind it. The digits that division
gives are the numeral of the magnitude. Zeros in front of them change nothing, and the whole text
reads back as the integer.
-/

namespace FormattedOutput

namespace Numeral

variable {radix : Radix} {uppercase : Bool}

/-! ## Digits -/

/-- The numeral of a number in a radix, in small letters or in capital ones. -/
def text (radix : Radix) (uppercase : Bool) (n : Nat) : Bytes :=
  latin ((Nat.toDigits radix.base n).map fun c => if uppercase then c.toUpper else c)

theorem byte_digitChar : ∀ uppercase, ∀ digit < 16,
    latin [if uppercase then (Nat.digitChar digit).toUpper else Nat.digitChar digit] =
      [Digits.ofDigit uppercase digit] := by
  decide

/-- The digits that division gives are those of the numeral, the last one first. -/
theorem reverse_low {count n : Nat} (h : Digits.IsWhole radix.base n count) :
    (Digits.low radix.base uppercase count n).reverse = text radix uppercase n := by
  have hbase := radix.two_le_base
  have hbyte := fun digit (hlt : digit < radix.base) =>
    byte_digitChar uppercase digit (lt_of_lt_of_le hlt radix.base_le)
  have hmod : n % radix.base < radix.base := Nat.mod_lt _ (by omega)
  induction count generalizing n with
  | zero => exact absurd h.positive (lt_irrefl 0)
  | succ count ih =>
    rw [Digits.low, List.reverse_cons, ← hbyte _ hmod]
    unfold text
    rw [Nat.toDigits_eq_if (by omega)]
    by_cases hone : count = 0
    · have hlt : n < radix.base := by simpa [hone] using h.lt_pow
      rw [if_pos hlt, hone, Nat.mod_eq_of_lt hlt]
      rfl
    · have hge := not_lt.mpr (h.base_le (by omega) (by omega))
      rw [if_neg hge, ih (h.div (by omega) (Nat.pos_of_ne_zero hone)) (Nat.mod_lt _ (by omega))]
      simp [text, latin]

theorem reverse_reversed (radix : Radix) (uppercase : Bool) (n : Nat) :
    (Digits.reversed radix uppercase n).reverse = text radix uppercase n := by
  obtain ⟨count, hwhole, heq⟩ := Digits.exists_reversed_eq radix uppercase n
  rw [heq, reverse_low hwhole]

/-- A numeral has digits, and they stand for its number. -/
theorem exists_text_eq (radix : Radix) (uppercase : Bool) (n : Nat) :
    ∃ count, Digits.IsWhole radix.base n count ∧
      text radix uppercase n = (Digits.low radix.base uppercase count n).reverse := by
  obtain ⟨count, hwhole, -⟩ := Digits.exists_reversed_eq radix uppercase n
  exact ⟨count, hwhole, (reverse_low hwhole).symm⟩

theorem text_zero (radix : Radix) (uppercase : Bool) : text radix uppercase 0 = [48] := by
  cases radix <;> cases uppercase <;> rfl

theorem length_text_pos (radix : Radix) (uppercase : Bool) (n : Nat) :
    0 < (text radix uppercase n).length := by
  obtain ⟨count, hwhole, heq⟩ := exists_text_eq radix uppercase n
  rw [heq, List.length_reverse, Digits.length_low]
  exact hwhole.positive

/-- No numeral starts with a zero, but that of zero. -/
theorem head_text_ne (radix : Radix) (uppercase : Bool) {n : Nat} (h : n ≠ 0) :
    (text radix uppercase n).head? ≠ some 48 := by
  obtain ⟨count, hwhole, heq⟩ := exists_text_eq radix uppercase n
  have hbase := radix.two_le_base
  intro hzero
  rw [heq] at hzero
  obtain rfl := Digits.head_low_of_isWhole (by omega) radix.base_le hwhole hzero
  have hlt : n < radix.base := by simpa using hwhole.lt_pow
  have hdigit : Digits.ofDigit uppercase n = 48 := by
    simpa [Digits.low, Nat.mod_eq_of_lt hlt] using hzero
  exact h (Digits.ofDigit_eq_zero _ _ (lt_of_lt_of_le hlt radix.base_le) hdigit)

theorem isDigitIn_text {n : Nat} :
    ∀ byte ∈ text radix uppercase n, isDigitIn radix.base byte = true := by
  obtain ⟨count, -, heq⟩ := exists_text_eq radix uppercase n
  have hbase := radix.two_le_base
  intro byte hbyte
  rw [heq, List.mem_reverse] at hbyte
  exact isDigitIn_low (by omega) radix.base_le _ _ byte hbyte

theorem valueIn_text (n : Nat) : valueIn radix.base (text radix uppercase n) = n := by
  obtain ⟨count, hwhole, heq⟩ := exists_text_eq radix uppercase n
  have hbase := radix.two_le_base
  rw [heq, valueIn_low (by omega) radix.base_le, Nat.mod_eq_of_lt hwhole.lt_pow]

/-! ## Zeros in front -/

theorem isDigitIn_zero (radix : Radix) : isDigitIn radix.base 48 = true := by
  cases radix <;> decide

theorem valueIn_zero_cons (b : Nat) (digits : Bytes) :
    valueIn b (48 :: digits) = valueIn b digits := by
  have hzero : 0 * b + (digitOf? 48).getD 0 = 0 := by
    rw [Nat.zero_mul]
    rfl
  rw [valueIn, List.foldl_cons, hzero, valueIn]

theorem valueIn_zeros (b count : Nat) (digits : Bytes) :
    valueIn b (List.replicate count 48 ++ digits) = valueIn b digits := by
  induction count with
  | zero => rfl
  | succ count ih => rw [List.replicate_succ, List.cons_append, valueIn_zero_cons, ih]

/-! ## Reading -/

/-- The base marker of a radix, if it has one. -/
def markerOf (radix : Radix) (uppercase : Bool) : Bytes :=
  match radix with
  | .hex => latin ['0', if uppercase then 'X' else 'x']
  | .binary => latin ['0', if uppercase then 'B' else 'b']
  | _ => []

/-- A byte is the letter of a base marker. -/
def isMarkerLetter : Radix → UInt8 → Bool
  | .hex, letter => letter = 120 || letter = 88
  | .binary, letter => letter = 98 || letter = 66
  | _, _ => false

/-- Drops the base marker of a radix, if there is one. -/
def dropMarker (radix : Radix) : Bytes → Bytes
  | 48 :: letter :: rest => if isMarkerLetter radix letter then rest else 48 :: letter :: rest
  | text => text

/-- Reads an integer that takes up the whole text: a sign, a base marker and at least one digit. -/
def readInteger? (radix : Radix) (text : Bytes) : Option Int :=
  let (negative, text) := readSign text
  let digits := dropMarker radix text
  if digits ≠ [] ∧ digits.all (isDigitIn radix.base) then
    some (if negative then -(valueIn radix.base digits : Int) else valueIn radix.base digits)
  else none

theorem isDigitIn_of_isMarkerLetter {letter : UInt8} (h : isMarkerLetter radix letter = true) :
    isDigitIn radix.base letter = false := by
  unfold isMarkerLetter at h
  split at h
  · rw [Bool.or_eq_true, decide_eq_true_eq, decide_eq_true_eq] at h
    rcases h with rfl | rfl <;> decide
  · rw [Bool.or_eq_true, decide_eq_true_eq, decide_eq_true_eq] at h
    rcases h with rfl | rfl <;> decide
  · contradiction

section

variable {digits : Bytes} (hne : digits ≠ [])
  (hdigits : ∀ byte ∈ digits, isDigitIn radix.base byte = true)
include hdigits

/-- Digits alone are not taken for a base marker. -/
theorem dropMarker_digits : dropMarker radix digits = digits := by
  unfold dropMarker
  split
  · rename_i letter rest
    rw [if_neg]
    intro hmarker
    have hletter := hdigits letter (by simp)
    rw [isDigitIn_of_isMarkerLetter hmarker] at hletter
    contradiction
  · rfl

include hne

theorem exists_head_digit : ∃ byte, digits.head? = some byte ∧ isDigitIn 16 byte = true := by
  obtain ⟨byte, rest, rfl⟩ := List.exists_cons_of_ne_nil hne
  exact ⟨byte, rfl, isDigitIn_mono radix.base_le (hdigits byte (by simp))⟩

/-- Digits behind a sign read back with this sign. -/
theorem readInteger?_signText (d : Directive) (negative : Bool) :
    readInteger? radix (d.signText negative ++ digits) =
      some (if negative then -(valueIn radix.base digits : Int)
        else valueIn radix.base digits) := by
  obtain ⟨byte, hhead, hdigit⟩ := exists_head_digit hne hdigits
  unfold readInteger?
  rw [readSign_signText d negative hhead hdigit]
  simp only [dropMarker_digits hdigits]
  rw [if_pos ⟨hne, List.all_eq_true.mpr hdigits⟩]

theorem readInteger?_digits :
    readInteger? radix digits = some (valueIn radix.base digits : Int) := by
  obtain ⟨byte, hhead, hdigit⟩ := exists_head_digit hne hdigits
  unfold readInteger?
  rw [readSign_of_head hhead hdigit]
  simp only [dropMarker_digits hdigits]
  rw [if_pos ⟨hne, List.all_eq_true.mpr hdigits⟩]
  rfl

theorem readInteger?_letter {letter : UInt8} (hletter : isMarkerLetter radix letter = true) :
    readInteger? radix (48 :: letter :: digits) = some (valueIn radix.base digits : Int) := by
  have hzero : isDigitIn 16 48 = true := by decide
  unfold readInteger?
  rw [readSign_of_head rfl hzero]
  simp only [dropMarker, if_pos hletter]
  rw [if_pos ⟨hne, List.all_eq_true.mpr hdigits⟩]
  rfl

/-- Digits behind a base marker read back in its base. -/
theorem readInteger?_markerOf (uppercase : Bool) :
    readInteger? radix (markerOf radix uppercase ++ digits) =
      some (valueIn radix.base digits : Int) := by
  cases radix with
  | hex => cases uppercase <;> exact readInteger?_letter hne hdigits rfl
  | binary => cases uppercase <;> exact readInteger?_letter hne hdigits rfl
  | _ => exact readInteger?_digits hne hdigits

end

end Numeral

end FormattedOutput
