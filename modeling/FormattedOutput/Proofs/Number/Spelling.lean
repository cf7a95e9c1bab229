import FormattedOutput.Proofs.Number.Numeral
import Mathlib.Data.List.DropRight

/-!
# Numbers as they are spelled

A spelled number is digits before a radix point and digits after it, and it may have an exponent.
Nothing is left open: no zero stands before the first digit, and no letter is in the wrong case. So
a number with so many places is spelled in one way only.
-/

namespace FormattedOutput

namespace Numeral

/-- The digits that may be written. -/
def digitBytes (hex uppercase : Bool) : Bytes :=
  latin ['0', '1', '2', '3', '4', '5', '6', '7', '8', '9'] ++
    if hex then
      latin (if uppercase then ['A', 'B', 'C', 'D', 'E', 'F'] else ['a', 'b', 'c', 'd', 'e', 'f'])
    else []

/-- Digits around a radix point. -/
@[ext]
structure Spelling (hex uppercase : Bool) where
  whole : Bytes
  fraction : Bytes
  whole_digits : ∀ byte ∈ whole, byte ∈ digitBytes hex uppercase
  fraction_digits : ∀ byte ∈ fraction, byte ∈ digitBytes hex uppercase
  whole_ne_nil : whole ≠ []
  no_leading_zero : whole.head? = some 48 → whole = [48]

namespace Spelling

variable {hex uppercase alternate : Bool}

/-- The text. There is a radix point if digits follow it or the flags ask for it. -/
def text (s : Spelling hex uppercase) (alternate : Bool) : Bytes :=
  s.whole ++ (if s.fraction ≠ [] ∨ alternate = true then [46] else []) ++ s.fraction

/-- The number that the digits stand for. -/
def value (s : Spelling hex uppercase) : Rat :=
  valueIn (base hex) (s.whole ++ s.fraction) / base hex ^ s.fraction.length

/-- The number without the zeros at the end of its fraction. -/
def trimmed (s : Spelling hex uppercase) : Spelling hex uppercase where
  whole := s.whole
  fraction := s.fraction.rdropWhile (· == 48)
  whole_digits := s.whole_digits
  fraction_digits byte hbyte :=
    s.fraction_digits byte ((List.rdropWhile_prefix _ _).subset hbyte)
  whole_ne_nil := s.whole_ne_nil
  no_leading_zero := s.no_leading_zero

/-! ## The digits of a number -/

theorem ofDigit_mem : ∀ hex uppercase, ∀ digit < base hex,
    Digits.ofDigit uppercase digit ∈ digitBytes hex uppercase := by
  decide

theorem low_mem (count n : Nat) :
    ∀ byte ∈ Digits.low (base hex) uppercase count n, byte ∈ digitBytes hex uppercase := by
  induction count generalizing n with
  | zero => simp [Digits.low]
  | succ count ih =>
    intro byte hbyte
    rw [Digits.low, List.mem_cons] at hbyte
    rcases hbyte with rfl | hrest
    · exact ofDigit_mem hex uppercase _ (Nat.mod_lt n (base_pos hex))
    · exact ih _ byte hrest

theorem ofDigit_mod_ne {n : Nat} (h : n % base hex ≠ 0) :
    Digits.ofDigit uppercase (n % base hex) ≠ 48 := by
  intro heq
  apply h
  apply Digits.ofDigit_eq_zero uppercase _ _ heq
  exact lt_of_lt_of_le (Nat.mod_lt n (base_pos hex)) (base_le hex)

theorem head_low_of_isWhole {n count : Nat} (h : Digits.IsWhole (base hex) n count)
    (hzero : (Digits.low (base hex) uppercase count n).reverse.head? = some 48) : count = 1 :=
  Digits.head_low_of_isWhole (base_pos hex) (base_le hex) h hzero

/-- A number with so many of its digits after the radix point. -/
def ofNumber (hex uppercase : Bool) (n places : Nat) : Spelling hex uppercase where
  whole := (Digits.reversed (radix hex) uppercase (n / base hex ^ places)).reverse
  fraction := (Digits.low (base hex) uppercase places n).reverse
  whole_digits := by
    obtain ⟨count, -, heq⟩ :=
      Digits.exists_reversed_eq (radix hex) uppercase (n / base hex ^ places)
    intro byte hbyte
    rw [heq, List.mem_reverse] at hbyte
    exact low_mem _ _ byte hbyte
  fraction_digits := by
    intro byte hbyte
    exact low_mem _ _ byte (List.mem_reverse.mp hbyte)
  whole_ne_nil := by
    obtain ⟨count, hwhole, heq⟩ :=
      Digits.exists_reversed_eq (radix hex) uppercase (n / base hex ^ places)
    rw [heq, ← List.length_pos_iff_ne_nil, List.length_reverse, Digits.length_low]
    exact hwhole.positive
  no_leading_zero := by
    obtain ⟨count, hwhole, heq⟩ :=
      Digits.exists_reversed_eq (radix hex) uppercase (n / base hex ^ places)
    intro hzero
    rw [heq] at hzero ⊢
    obtain rfl := @head_low_of_isWhole hex uppercase _ _ hwhole hzero
    simpa [Digits.low] using hzero

variable {n places : Nat}

@[simp] theorem length_fraction_ofNumber (n places : Nat) :
    (ofNumber hex uppercase n places).fraction.length = places := by
  simp [ofNumber]

/-- The text is the one that a layout with these digits writes. -/
theorem text_ofNumber (n places : Nat) (alternate : Bool) :
    (ofNumber hex uppercase n places).text alternate =
      spelled hex uppercase n places alternate := by
  have hpoint : (ofNumber hex uppercase n places).fraction ≠ [] ↔ 0 < places := by
    rw [← List.length_pos_iff_ne_nil, length_fraction_ofNumber]
  unfold text spelled FloatParts.point
  simp only [hpoint, Bool.or_eq_true, decide_eq_true_eq, Int.natCast_pos]
  rfl

theorem valueIn_ofNumber (n places : Nat) :
    valueIn (base hex) ((ofNumber hex uppercase n places).whole ++
      (ofNumber hex uppercase n places).fraction) = n := by
  obtain ⟨count, hwhole, heq⟩ :=
    Digits.exists_reversed_eq (radix hex) uppercase (n / base hex ^ places)
  have hlt : n / base hex ^ places < base hex ^ count := hwhole.lt_pow
  have hvalue := @valueIn_low uppercase (base hex) (base_pos hex) (base_le hex) count
    (n / base hex ^ places)
  unfold ofNumber
  simp only
  rw [heq, valueIn_append, valueIn_low (base_pos _) (base_le _), List.length_reverse,
    Digits.length_low]
  change valueIn (base hex) (Digits.low (base hex) uppercase count _).reverse * _ + _ = n
  rw [hvalue, Nat.mod_eq_of_lt hlt, Nat.div_add_mod']

theorem value_ofNumber (n places : Nat) :
    (ofNumber hex uppercase n places).value = n / base hex ^ places := by
  rw [value, valueIn_ofNumber, length_fraction_ofNumber]

/-- One digit stands before the radix point if the whole part is that small. -/
theorem whole_ofNumber (h : n / base hex ^ places < base hex) :
    (ofNumber hex uppercase n places).whole =
      [Digits.ofDigit uppercase (n / base hex ^ places)] := by
  obtain ⟨count, hwhole, heq⟩ :=
    Digits.exists_reversed_eq (radix hex) uppercase (n / base hex ^ places)
  have hone : count = 1 := by
    by_contra hne
    exact absurd h (not_lt.mpr (hwhole.base_le (base_pos hex) hne))
  have hmod : n / base hex ^ places % (radix hex).base = n / base hex ^ places :=
    Nat.mod_eq_of_lt h
  unfold ofNumber
  simp [heq, hone, Digits.low, hmod]

/-- A fraction that does not end in a zero is not cut, and zeros behind it are. -/
theorem trimmed_ofNumber (h : places = 0 ∨ n % base hex ≠ 0) (zeros : Nat) :
    (ofNumber hex uppercase (n * base hex ^ zeros) (zeros + places)).trimmed =
      ofNumber hex uppercase n places := by
  have hkeep : (Digits.low (base hex) uppercase places n).dropWhile (· == 48) =
      Digits.low (base hex) uppercase places n := by
    cases places with
    | zero => rfl
    | succ places =>
      have hne := @ofDigit_mod_ne hex uppercase n (by simpa using h)
      rw [Digits.low, List.dropWhile_cons_of_neg]
      simpa using hne
  ext1
  · unfold trimmed ofNumber
    simp only
    rw [pow_add, mul_comm (base hex ^ zeros),
      Nat.mul_div_mul_right _ _ (Nat.pow_pos (base_pos hex))]
  · unfold trimmed ofNumber List.rdropWhile
    simp only
    rw [Digits.low_mul_pow (base_pos hex), List.reverse_reverse,
      List.dropWhile_append_of_pos (by simp), hkeep]

end Spelling

/-! ## Exponents -/

/-- An exponent with its letter, at least `least` digits, and no zero before more of them. -/
@[ext]
structure ExponentSpelling (letter : UInt8) (least : Nat) where
  negative : Bool
  digits : Bytes
  isDigit : ∀ byte ∈ digits, byte ∈ digitBytes false false
  least_le : least ≤ digits.length
  no_leading_zero : least < digits.length → digits.head? ≠ some 48
  no_negative_zero : valueIn (base false) digits = 0 → negative = false

namespace ExponentSpelling

variable {letter : UInt8} {least : Nat}

/-- The text. There is always a sign. -/
def text (e : ExponentSpelling letter least) : Bytes :=
  letter :: (if e.negative then 45 else 43) :: e.digits

/-- The number that the exponent stands for. -/
def value (e : ExponentSpelling letter least) : Int :=
  if e.negative then -valueIn (base false) e.digits else valueIn (base false) e.digits

/-- How many digits an exponent has. -/
def count (least : Nat) (exponent : Int) : Nat := max least (Decimal.digitCount exponent.natAbs)

theorem valueIn_digits (least : Nat) (exponent : Int) :
    valueIn (base false) (Digits.low 10 false (count least exponent) exponent.natAbs).reverse =
      exponent.natAbs := by
  have hlt := Decimal.lt_pow_digitCount exponent.natAbs
  have hle : 10 ^ Decimal.digitCount exponent.natAbs ≤ 10 ^ count least exponent :=
    Nat.pow_le_pow_right (by decide) (le_max_right _ _)
  have hvalue := @valueIn_low false (base false) (base_pos false) (base_le false)
    (count least exponent) exponent.natAbs
  exact hvalue.trans (Nat.mod_eq_of_lt (lt_of_lt_of_le hlt hle))

/-- An exponent as it is spelled. -/
def ofInt (letter : UInt8) (hleast : 0 < least) (exponent : Int) :
    ExponentSpelling letter least where
  negative := exponent < 0
  digits := (Digits.low 10 false (count least exponent) exponent.natAbs).reverse
  isDigit := by
    intro byte hbyte
    exact @Spelling.low_mem false false _ _ byte (List.mem_reverse.mp hbyte)
  least_le := by
    simp [count]
  no_leading_zero := by
    intro hmore hzero
    rw [List.length_reverse, Digits.length_low] at hmore
    have hcount : count least exponent = Decimal.digitCount exponent.natAbs := by
      unfold count at *
      omega
    rw [hcount] at hmore hzero
    have hone := @Spelling.head_low_of_isWhole false false _ _
      (Digits.isWhole_digitCount exponent.natAbs) hzero
    omega
  no_negative_zero := by
    rw [valueIn_digits]
    simp
    omega

theorem value_ofInt (letter : UInt8) (hleast : 0 < least) (exponent : Int) :
    (ofInt letter hleast exponent).value = exponent := by
  unfold value ofInt
  simp only [valueIn_digits, decide_eq_true_eq]
  split_ifs <;> omega

/-- The text is the one that a layout writes. -/
theorem text_ofInt (letter : UInt8) (hleast : 0 < least) (exponent : Int) :
    (ofInt letter hleast exponent).text = FloatParts.exponentText letter exponent least := by
  have hlt := Decimal.lt_pow_digitCount exponent.natAbs
  have hsplit : count least exponent = Decimal.digitCount exponent.natAbs +
      (least - Decimal.digitCount exponent.natAbs) := by
    unfold count
    omega
  unfold text ofInt FloatParts.exponentText
  simp only [decide_eq_true_eq]
  rw [hsplit, Digits.low_add, Nat.div_eq_of_lt hlt, Digits.low_zero, Digits.decimal_eq]
  simp

end ExponentSpelling

/-! ## One way to spell a number -/

theorem ofDigit_digitOf?_all : ∀ hex uppercase, (digitBytes hex uppercase).all fun byte =>
    (digitOf? byte).getD 0 < base hex ∧
      Digits.ofDigit uppercase ((digitOf? byte).getD 0) = byte := by
  decide

section

variable {hex uppercase : Bool} {digits digits' : Bytes}

theorem ofDigit_digitOf? {byte : UInt8} (h : byte ∈ digitBytes hex uppercase) :
    (digitOf? byte).getD 0 < base hex ∧
      Digits.ofDigit uppercase ((digitOf? byte).getD 0) = byte := by
  simpa using List.all_eq_true.mp (ofDigit_digitOf?_all hex uppercase) byte h

/-- A row of digits is that of the number that it stands for. -/
theorem eq_low (h : ∀ byte ∈ digits, byte ∈ digitBytes hex uppercase) :
    digits =
      (Digits.low (base hex) uppercase digits.length (valueIn (base hex) digits)).reverse := by
  induction digits using List.reverseRecOn with
  | nil => rfl
  | append_singleton front byte ih =>
    obtain ⟨hlt, hbyte⟩ := ofDigit_digitOf? (h byte (by simp))
    have hvalue : valueIn (base hex) (front ++ [byte]) =
        valueIn (base hex) front * base hex + (digitOf? byte).getD 0 := by
      rw [valueIn_append]
      simp [valueIn]
    generalize (digitOf? byte).getD 0 = digit at *
    have hfront := ih fun other hother => h other (List.mem_append_left _ hother)
    have hmod : (valueIn (base hex) front * base hex + digit) % base hex = digit := by
      rw [Nat.mul_add_mod', Nat.mod_eq_of_lt hlt]
    have hdiv : (valueIn (base hex) front * base hex + digit) / base hex =
        valueIn (base hex) front := by
      rw [mul_comm, Nat.mul_add_div (base_pos hex), Nat.div_eq_of_lt hlt, add_zero]
    rw [hvalue, List.length_append, List.length_singleton, Digits.low, hmod, hdiv,
      List.reverse_cons, ← hfront, hbyte]

theorem valueIn_lt (h : ∀ byte ∈ digits, byte ∈ digitBytes hex uppercase) :
    valueIn (base hex) digits < base hex ^ digits.length := by
  have hlow := @valueIn_low uppercase (base hex) (base_pos hex) (base_le hex) digits.length
    (valueIn (base hex) digits)
  rw [← eq_low h] at hlow
  rw [hlow]
  exact Nat.mod_lt _ (Nat.pow_pos (base_pos hex))

/-- A row of digits that does not start with a zero stands for a number with as many digits. -/
theorem pow_le_valueIn (h : ∀ byte ∈ digits, byte ∈ digitBytes hex uppercase) {count : Nat}
    (hlength : digits.length = count + 1) (hhead : digits.head? ≠ some 48) :
    base hex ^ count ≤ valueIn (base hex) digits := by
  by_contra hlt
  apply hhead
  rw [eq_low h, hlength, Digits.low_add, Nat.div_eq_of_lt (not_le.mp hlt), List.reverse_append]
  simp [Digits.low, Digits.ofDigit]

/-- Two rows of digits that stand for one number are the same, if no zeros stand before the digits
that they need. -/
theorem eq_of_valueIn_eq {least : Nat} (h : ∀ byte ∈ digits, byte ∈ digitBytes hex uppercase)
    (h' : ∀ byte ∈ digits', byte ∈ digitBytes hex uppercase) (hle : least ≤ digits.length)
    (hle' : least ≤ digits'.length) (hhead : least < digits.length → digits.head? ≠ some 48)
    (hhead' : least < digits'.length → digits'.head? ≠ some 48)
    (hvalue : valueIn (base hex) digits = valueIn (base hex) digits') : digits = digits' := by
  have hlength : digits.length = digits'.length := by
    by_contra hne
    wlog hlt : digits.length < digits'.length generalizing digits digits'
    · exact this h' h hle' hle hhead' hhead hvalue.symm (Ne.symm hne) (by omega)
    obtain ⟨count, hcount⟩ : ∃ count, digits'.length = count + 1 := ⟨digits'.length - 1, by omega⟩
    have hpow : base hex ^ digits.length ≤ base hex ^ count :=
      Nat.pow_le_pow_right (base_pos hex) (by omega)
    have hge := pow_le_valueIn h' hcount (hhead' (by omega))
    have hup := valueIn_lt h
    omega
  rw [eq_low h, eq_low h', hlength, hvalue]

end

/-- With one digit before the radix point that is not a zero a number has no other whole digit. -/
theorem Spelling.value_bounds {hex uppercase : Bool} {s : Spelling hex uppercase}
    (hlength : s.whole.length = 1) (hne : s.whole ≠ [48]) : 1 ≤ s.value ∧ s.value < base hex := by
  have hpow : (0 : Rat) < base hex ^ s.fraction.length := by
    have := base_pos hex
    positivity
  have hhead : s.whole.head? ≠ some 48 := fun hzero => hne (s.no_leading_zero hzero)
  have hlow := pow_le_valueIn s.whole_digits hlength hhead
  have hhigh := valueIn_lt s.whole_digits
  have hrest := valueIn_lt s.fraction_digits
  rw [pow_zero] at hlow
  rw [hlength, pow_one] at hhigh
  have hle : 1 * base hex ^ s.fraction.length ≤
      valueIn (base hex) s.whole * base hex ^ s.fraction.length := Nat.mul_le_mul_right _ hlow
  have hlt : (valueIn (base hex) s.whole + 1) * base hex ^ s.fraction.length ≤
      base hex * base hex ^ s.fraction.length := Nat.mul_le_mul_right _ hhigh
  rw [add_mul] at hlt
  unfold value
  rw [valueIn_append, le_div_iff₀ hpow, div_lt_iff₀ hpow]
  constructor
  · exact_mod_cast (by omega : 1 * base hex ^ s.fraction.length ≤
      valueIn (base hex) s.whole * base hex ^ s.fraction.length + valueIn (base hex) s.fraction)
  · exact_mod_cast (by omega : valueIn (base hex) s.whole * base hex ^ s.fraction.length +
      valueIn (base hex) s.fraction < base hex * base hex ^ s.fraction.length)

/-- A spelled number with so many places is known by its value. -/
theorem Spelling.eq_of_value_eq {hex uppercase : Bool} {s t : Spelling hex uppercase}
    (hlength : s.fraction.length = t.fraction.length) (hvalue : s.value = t.value) : s = t := by
  have hpow : (base hex : Rat) ^ t.fraction.length ≠ 0 := by
    have := base_pos hex
    positivity
  have hall : valueIn (base hex) (s.whole ++ s.fraction) =
      valueIn (base hex) (t.whole ++ t.fraction) := by
    unfold value at hvalue
    rw [hlength, div_left_inj' hpow] at hvalue
    exact_mod_cast hvalue
  rw [valueIn_append, valueIn_append, hlength] at hall
  have hs := valueIn_lt s.fraction_digits
  have ht := valueIn_lt t.fraction_digits
  rw [hlength] at hs
  have hwhole : valueIn (base hex) s.whole = valueIn (base hex) t.whole := by
    have hquotient := congrArg (· / base hex ^ t.fraction.length) hall
    simp only [mul_comm _ (base hex ^ t.fraction.length)] at hquotient
    rwa [Nat.mul_add_div (Nat.pow_pos (base_pos hex)), Nat.mul_add_div (Nat.pow_pos (base_pos hex)),
      Nat.div_eq_of_lt hs, Nat.div_eq_of_lt ht] at hquotient
  have hfraction : valueIn (base hex) s.fraction = valueIn (base hex) t.fraction := by
    rw [hwhole] at hall
    omega
  have hlead : ∀ u : Spelling hex uppercase, 1 < u.whole.length → u.whole.head? ≠ some 48 := by
    intro u hlong hzero
    rw [u.no_leading_zero hzero] at hlong
    exact lt_irrefl 1 hlong
  have hone : ∀ u : Spelling hex uppercase, 1 ≤ u.whole.length := by
    intro u
    exact List.length_pos_iff_ne_nil.mpr u.whole_ne_nil
  ext1
  · exact eq_of_valueIn_eq s.whole_digits t.whole_digits (hone s) (hone t) (hlead s) (hlead t)
      hwhole
  · exact eq_of_valueIn_eq s.fraction_digits t.fraction_digits hlength.ge le_rfl
      (fun hlt => by omega) (fun hlt => by omega) hfraction

/-- A spelled exponent is known by its value. -/
theorem ExponentSpelling.eq_of_value_eq {letter : UInt8} {least : Nat}
    {p q : ExponentSpelling letter least} (h : p.value = q.value) : p = q := by
  have hpos : ∀ u : ExponentSpelling letter least, u.negative = true →
      0 < valueIn (base false) u.digits := by
    intro u hnegative
    by_contra hzero
    rw [u.no_negative_zero (by omega)] at hnegative
    contradiction
  have hp := hpos p
  have hq := hpos q
  unfold value at h
  have hnegative : p.negative = q.negative := by
    cases hsign : p.negative <;> cases hsign' : q.negative <;> simp_all
  have hvalue : valueIn (base false) p.digits = valueIn (base false) q.digits := by
    rw [hnegative] at h
    split_ifs at h <;> omega
  ext1
  · exact hnegative
  · exact eq_of_valueIn_eq p.isDigit q.isDigit p.least_le q.least_le p.no_leading_zero
      q.no_leading_zero hvalue

end Numeral

end FormattedOutput
