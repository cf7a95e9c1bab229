import FormattedOutput.Number.FloatParts
import FormattedOutput.Proofs.Number.Digits

/-!
# Numerals

A numeral is a sign, digits around a radix point and an exponent. It is decimal, or hexadecimal
with a binary exponent. Reading a text gives the number that the text stands for, exactly.
-/

namespace FormattedOutput

/-- A numeral that was read. -/
structure Numeral where
  negative : Bool
  /-- The digits are hexadecimal, and the exponent is a power of two. -/
  hex : Bool
  /-- All the digits, as one number. -/
  digits : Nat
  /-- How many of the digits stand after the radix point. -/
  places : Nat
  exponent : Int
  deriving DecidableEq, Repr

namespace Numeral

/-! ## Reading -/

/-- The number that a byte stands for as a digit. -/
def digitOf? (byte : UInt8) : Option Nat :=
  if 48 ≤ byte ∧ byte ≤ 57 then some (byte.toNat - 48)
  else if 65 ≤ byte ∧ byte ≤ 70 then some (byte.toNat - 55)
  else if 97 ≤ byte ∧ byte ≤ 102 then some (byte.toNat - 87)
  else none

/-- The radix of the digits. -/
def radix (hex : Bool) : Radix := if hex then .hex else .decimal

/-- The base of the digits. -/
def base (hex : Bool) : Nat := (radix hex).base

/-- A byte is a digit in a base. -/
def isDigitIn (base : Nat) (byte : UInt8) : Bool :=
  (digitOf? byte).any fun digit => digit < base

/-- The number that a row of digits stands for in a base. -/
def valueIn (base : Nat) (digits : Bytes) : Nat :=
  digits.foldl (fun n byte => n * base + (digitOf? byte).getD 0) 0

/-- Reads a sign. A blank may stand in place of a `+`. -/
def readSign : Bytes → Bool × Bytes
  | 45 :: rest => (true, rest)
  | 43 :: rest => (false, rest)
  | 32 :: rest => (false, rest)
  | text => (false, text)

/-- Reads a base marker. -/
def readMarker : Bytes → Bool × Bytes
  | 48 :: 120 :: rest => (true, rest)
  | 48 :: 88 :: rest => (true, rest)
  | text => (false, text)

/-- A byte is the letter of an exponent. -/
def isExponentLetter (hex : Bool) (letter : UInt8) : Bool :=
  if hex then letter = 112 || letter = 80 else letter = 101 || letter = 69

/-- Reads the exponent with which a numeral ends, if it has one. -/
def readExponent? (hex : Bool) : Bytes → Option Int
  | [] => some 0
  | letter :: sign :: digits =>
    if isExponentLetter hex letter ∧ digits ≠ [] ∧ digits.all (isDigitIn (base false)) then
      if sign = 43 then some (valueIn (base false) digits)
      else if sign = 45 then some (-valueIn (base false) digits)
      else none
    else none
  | _ => none

/-- Reads the digits after a radix point, if there is one. -/
def readFraction (hex : Bool) : Bytes → Bytes × Bytes
  | 46 :: rest => (rest.takeWhile (isDigitIn (base hex)), rest.dropWhile (isDigitIn (base hex)))
  | text => ([], text)

/-- Reads a numeral without a sign that takes up the whole text. -/
def readUnsigned? (text : Bytes) : Option Numeral :=
  let (hex, text) := readMarker text
  let whole := text.takeWhile (isDigitIn (base hex))
  let (fraction, text) := readFraction hex (text.dropWhile (isDigitIn (base hex)))
  if whole = [] then none
  else (readExponent? hex text).map fun exponent =>
    { negative := false
      hex
      digits := valueIn (base hex) (whole ++ fraction)
      places := fraction.length
      exponent }

/-- Reads a numeral that takes up the whole text. -/
def read? (text : Bytes) : Option Numeral :=
  let (negative, text) := readSign text
  (readUnsigned? text).map fun n => { n with negative }

/-- The number without its sign. -/
def magnitude (n : Numeral) : Rat :=
  n.digits / base n.hex ^ n.places * (if n.hex then 2 else 10) ^ n.exponent

/-! ## Digits that are read -/

variable {hex uppercase : Bool}

theorem digitOf?_ofDigit :
    ∀ uppercase, ∀ digit < 16, digitOf? (Digits.ofDigit uppercase digit) = some digit := by
  decide

theorem base_pos (hex : Bool) : 0 < base hex := by
  cases hex <;> decide

theorem base_le (hex : Bool) : base hex ≤ 16 := (radix hex).base_le

section

variable {b : Nat} (hpos : 0 < b) (hle : b ≤ 16)
include hpos hle

theorem digitOf?_mod (n : Nat) :
    digitOf? (Digits.ofDigit uppercase (n % b)) = some (n % b) :=
  digitOf?_ofDigit _ _ (lt_of_lt_of_le (Nat.mod_lt _ hpos) hle)

/-- Written digits are digits. -/
theorem isDigitIn_low (count n : Nat) :
    ∀ byte ∈ Digits.low b uppercase count n, isDigitIn b byte = true := by
  induction count generalizing n with
  | zero =>
    intro byte hbyte
    contradiction
  | succ count ih =>
    intro byte hbyte
    rw [Digits.low, List.mem_cons] at hbyte
    rcases hbyte with rfl | hrest
    · unfold isDigitIn
      rw [digitOf?_mod hpos hle]
      simpa using Nat.mod_lt n hpos
    · exact ih _ byte hrest

omit hpos hle in
theorem valueIn_append (front back : Bytes) :
    valueIn b (front ++ back) =
      valueIn b front * b ^ back.length + valueIn b back := by
  induction back using List.reverseRecOn with
  | nil => simp [valueIn]
  | append_singleton back byte ih =>
    have happend : ∀ text : Bytes, valueIn b (text ++ [byte]) =
        valueIn b text * b + (digitOf? byte).getD 0 := by
      intro text
      simp [valueIn]
    rw [← List.append_assoc, happend, happend, ih, List.length_append, List.length_singleton]
    ring

/-- Written digits read back as the number that they were taken of. -/
theorem valueIn_low (count n : Nat) :
    valueIn b (Digits.low b uppercase count n).reverse = n % b ^ count := by
  induction count generalizing n with
  | zero => simp [valueIn, Digits.low, Nat.mod_one]
  | succ count ih =>
    rw [Digits.low, List.reverse_cons, valueIn_append, ih, List.length_singleton, pow_one]
    simp only [valueIn, List.foldl_cons, List.foldl_nil, digitOf?_mod hpos hle, Option.getD_some]
    rw [pow_succ', Nat.mod_mul]
    ring

end

/-! ## Numerals that are read -/

theorem ne_of_isDigitIn {byte other : UInt8} (h : isDigitIn (base hex) byte = true)
    (hother : isDigitIn (base hex) other = false) : byte ≠ other := by
  rintro rfl
  rw [h] at hother
  contradiction

/-- An exponent starts with a letter that nothing else in a numeral starts with. -/
theorem head_of_readExponent? {text : Bytes} {exponent : Int} {letter : UInt8}
    (h : readExponent? hex text = some exponent) (hletter : text.head? = some letter) :
    isDigitIn (base hex) letter = false ∧ letter ≠ 46 ∧ letter ≠ 120 ∧ letter ≠ 88 := by
  have hexponent : isExponentLetter hex letter = true := by
    unfold readExponent? at h
    split at h
    · contradiction
    · rw [List.head?_cons, Option.some.injEq] at hletter
      rw [← hletter]
      split_ifs at h with hcond
      · exact hcond.1
      · exact hcond.1
    · contradiction
  unfold isExponentLetter at hexponent
  cases hex
  · simp only [Bool.false_eq_true, if_false, Bool.or_eq_true, decide_eq_true_eq] at hexponent
    rcases hexponent with rfl | rfl <;> decide
  · simp only [if_true, Bool.or_eq_true, decide_eq_true_eq] at hexponent
    rcases hexponent with rfl | rfl <;> decide

/-- Digits are read as far as they go. -/
theorem span_digits {digits rest : Bytes}
    (hdigits : ∀ byte ∈ digits, isDigitIn (base hex) byte = true)
    (hrest : ∀ byte ∈ rest.head?, isDigitIn (base hex) byte = false) :
    (digits ++ rest).takeWhile (isDigitIn (base hex)) = digits ∧
      (digits ++ rest).dropWhile (isDigitIn (base hex)) = rest := by
  rw [List.takeWhile_append_of_pos hdigits, List.dropWhile_append_of_pos hdigits]
  cases rest with
  | nil => simp
  | cons byte rest =>
    have hbyte := hrest byte rfl
    rw [List.takeWhile_cons_of_neg (by simp [hbyte]), List.dropWhile_cons_of_neg (by simp [hbyte]),
      List.append_nil]
    exact ⟨rfl, rfl⟩

/-- The bytes of a base marker. -/
def marker (hex uppercase : Bool) : Bytes :=
  if hex then [48, if uppercase then 88 else 120] else []

theorem readMarker_marker {text : Bytes}
    (h : ∀ second ∈ text.tail.head?, second ≠ 120 ∧ second ≠ 88) :
    readMarker (marker hex uppercase ++ text) = (hex, text) := by
  cases hex
  · unfold marker readMarker
    rw [if_neg (by decide), List.nil_append]
    split
    · exact absurd rfl (h 120 rfl).1
    · exact absurd rfl (h 88 rfl).2
    · rfl
  · cases uppercase <;> rfl

/-- Digits in front of a radix point, digits after it and an exponent are read as one number with
so many places. -/
theorem readUnsigned?_eq (uppercase : Bool) {whole point fraction exponentText : Bytes}
    {exponent : Int} (hne : whole ≠ [])
    (hwhole : ∀ byte ∈ whole, isDigitIn (base hex) byte = true)
    (hfraction : ∀ byte ∈ fraction, isDigitIn (base hex) byte = true)
    (hpoint : point = [46] ∨ point = [] ∧ fraction = [])
    (hexponent : readExponent? hex exponentText = some exponent) :
    readUnsigned? (marker hex uppercase ++ (whole ++ (point ++ (fraction ++ exponentText)))) =
      some ⟨false, hex, valueIn (base hex) (whole ++ fraction), fraction.length, exponent⟩ := by
  have hend : ∀ byte ∈ exponentText.head?, isDigitIn (base hex) byte = false :=
    fun byte hbyte => (head_of_readExponent? hexponent hbyte).1
  obtain ⟨hreadFraction, hheadFraction⟩ :
      readFraction hex (point ++ (fraction ++ exponentText)) = (fraction, exponentText) ∧
      ∀ byte ∈ (point ++ (fraction ++ exponentText)).head?,
        isDigitIn (base hex) byte = false ∧ byte ≠ 120 ∧ byte ≠ 88 := by
    rcases hpoint with rfl | ⟨rfl, rfl⟩
    · obtain ⟨htake, hdrop⟩ := span_digits hfraction hend
      constructor
      · simp only [List.cons_append, List.nil_append, readFraction, htake, hdrop]
      · intro byte hbyte
        obtain rfl : 46 = byte := by simpa using hbyte
        cases hex <;> decide
    · rw [List.nil_append, List.nil_append]
      constructor
      · unfold readFraction
        split
        · exact absurd rfl (head_of_readExponent? hexponent rfl).2.1
        · rfl
      · intro byte hbyte
        obtain ⟨hdigit, _, hx, hX⟩ := head_of_readExponent? hexponent hbyte
        exact ⟨hdigit, hx, hX⟩
  -- A first zero makes no marker, since no second byte is the letter of one.
  have hmarker : ∀ second ∈ (whole ++ (point ++ (fraction ++ exponentText))).tail.head?,
      second ≠ 120 ∧ second ≠ 88 := by
    intro second hsecond
    obtain ⟨first, rest, rfl⟩ := List.exists_cons_of_ne_nil hne
    rw [List.cons_append, List.tail_cons] at hsecond
    cases rest with
    | nil => exact (hheadFraction second hsecond).2
    | cons byte rest =>
      obtain rfl : byte = second := by simpa using hsecond
      have hdigit : isDigitIn (base hex) byte = true := hwhole byte (by simp)
      exact ⟨ne_of_isDigitIn hdigit (by cases hex <;> decide),
        ne_of_isDigitIn hdigit (by cases hex <;> decide)⟩
  obtain ⟨htake, hdrop⟩ := span_digits hwhole fun byte hbyte => (hheadFraction byte hbyte).1
  unfold readUnsigned?
  rw [readMarker_marker hmarker]
  simp only [htake, hdrop, hreadFraction]
  rw [if_neg hne, hexponent]
  rfl

/-! ## Numerals that are written -/

/-- A number with so many of its digits after the radix point. -/
def spelled (hex uppercase : Bool) (n places : Nat) (alternate : Bool) : Bytes :=
  (Digits.reversed (radix hex) uppercase (n / base hex ^ places)).reverse ++
    FloatParts.point places alternate ++ (Digits.low (base hex) uppercase places n).reverse

/-- A number that is spelled out reads back as itself. -/
theorem readUnsigned?_spelled {exponentText : Bytes} {exponent : Int} (n places : Nat)
    (alternate : Bool) (hexponent : readExponent? hex exponentText = some exponent) :
    readUnsigned? (marker hex uppercase ++ spelled hex uppercase n places alternate ++
      exponentText) = some ⟨false, hex, n, places, exponent⟩ := by
  obtain ⟨count, hwhole, heq⟩ :=
    Digits.exists_reversed_eq (radix hex) uppercase (n / base hex ^ places)
  have hne : (Digits.low (base hex) uppercase count (n / base hex ^ places)).reverse ≠ [] := by
    rw [← List.length_pos_iff_ne_nil, List.length_reverse, Digits.length_low]
    exact hwhole.positive
  have hpoint : FloatParts.point places alternate = [46] ∨
      FloatParts.point places alternate = [] ∧
        (Digits.low (base hex) uppercase places n).reverse = [] := by
    unfold FloatParts.point
    split_ifs with hcond
    · exact Or.inl rfl
    · right
      rw [Bool.or_eq_true, decide_eq_true_eq] at hcond
      push Not at hcond
      obtain rfl : places = 0 := by omega
      exact ⟨rfl, rfl⟩
  have hlt : n / base hex ^ places < base hex ^ count := hwhole.lt_pow
  have hdigits : ∀ count n, ∀ byte ∈ (Digits.low (base hex) uppercase count n).reverse,
      isDigitIn (base hex) byte = true := fun count n byte hbyte =>
    isDigitIn_low (base_pos hex) (base_le hex) count n byte (List.mem_reverse.mp hbyte)
  have hread := readUnsigned?_eq uppercase hne (hdigits _ _) (hdigits _ _) hpoint hexponent
  rw [valueIn_append, valueIn_low (base_pos _) (base_le _), valueIn_low (base_pos _) (base_le _),
    List.length_reverse, Digits.length_low, Nat.mod_eq_of_lt hlt, Nat.div_add_mod'] at hread
  rw [← hread]
  unfold spelled
  rw [heq]
  simp only [List.append_assoc]
  rfl

theorem readExponent?_exponentText {letter : UInt8} (hletter : isExponentLetter hex letter = true)
    (exponent : Int) (least : Nat) :
    readExponent? hex (FloatParts.exponentText letter exponent least) = some exponent := by
  have hwhole := Digits.isWhole_digitCount exponent.natAbs
  have hdigits : List.replicate (least - (Digits.decimal exponent.natAbs).length) 48 ++
      (Digits.decimal exponent.natAbs).reverse = (Digits.low (base false) false
        (Decimal.digitCount exponent.natAbs + (least - (Digits.decimal exponent.natAbs).length))
        exponent.natAbs).reverse := by
    rw [Digits.low_add, List.reverse_append, base, radix, if_neg (by decide), Radix.base,
      Nat.div_eq_of_lt hwhole.lt_pow, Digits.low_zero, List.reverse_replicate, Digits.decimal_eq]
  -- Zeros in front of a number do not change it.
  have hvalue : exponent.natAbs % base false ^
      (Decimal.digitCount exponent.natAbs + (least - (Digits.decimal exponent.natAbs).length)) =
        exponent.natAbs :=
    Nat.mod_eq_of_lt (lt_of_lt_of_le hwhole.lt_pow (Nat.pow_le_pow_right (by decide) (by omega)))
  unfold FloatParts.exponentText
  simp only [List.cons_append, List.nil_append, hdigits]
  generalize hcount : Decimal.digitCount exponent.natAbs +
    (least - (Digits.decimal exponent.natAbs).length) = count at *
  have hpositive := hwhole.positive
  have hcond : isExponentLetter hex letter = true ∧
      (Digits.low (base false) false count exponent.natAbs).reverse ≠ [] ∧
      (Digits.low (base false) false count exponent.natAbs).reverse.all
        (isDigitIn (base false)) := by
    refine ⟨hletter, ?_, ?_⟩
    · rw [← List.length_pos_iff_ne_nil, List.length_reverse, Digits.length_low]
      omega
    · rw [List.all_eq_true]
      intro byte hbyte
      exact isDigitIn_low (base_pos _) (base_le _) _ _ byte (List.mem_reverse.mp hbyte)
  unfold readExponent?
  simp only
  rw [if_pos hcond, valueIn_low (base_pos _) (base_le _), hvalue]
  by_cases hnegative : exponent < 0
  · rw [if_pos hnegative, if_neg (by decide), if_pos rfl, Option.some.injEq]
    omega
  · rw [if_neg hnegative, if_pos rfl, Option.some.injEq]
    omega

theorem readMarker_cases (text : Bytes) :
    text.head? = some 48 ∨ readMarker text = (false, text) := by
  unfold readMarker
  split
  · exact Or.inl rfl
  · exact Or.inl rfl
  · exact Or.inr rfl

/-- A numeral starts with a digit. -/
theorem head_of_readUnsigned? {text : Bytes} {n : Numeral} (h : readUnsigned? text = some n) :
    ∃ byte ∈ text.head?, isDigitIn (base false) byte = true := by
  rcases readMarker_cases text with hzero | hnone
  · exact ⟨48, hzero, by decide⟩
  · unfold readUnsigned? at h
    rw [hnone] at h
    cases text with
    | nil => simp at h
    | cons byte rest =>
      refine ⟨byte, rfl, ?_⟩
      by_contra hdigit
      simp [hdigit] at h

/-- A text without a sign is left as it is. -/
theorem readSign_of_head {text : Bytes} {byte : UInt8} (hhead : text.head? = some byte)
    (hdigit : isDigitIn 16 byte = true) : readSign text = (false, text) := by
  unfold readSign
  split
  · obtain rfl : 45 = byte := by simpa using hhead
    contradiction
  · obtain rfl : 43 = byte := by simpa using hhead
    contradiction
  · obtain rfl : 32 = byte := by simpa using hhead
    contradiction
  · rfl

/-- A sign in front of a digit is read back. -/
theorem readSign_signText (d : Directive) (negative : Bool) {text : Bytes} {byte : UInt8}
    (hhead : text.head? = some byte) (hdigit : isDigitIn 16 byte = true) :
    readSign (d.signText negative ++ text) = (negative, text) := by
  unfold Directive.signText Directive.sign?
  split_ifs with hnegative hplus hspace
  · rw [hnegative]
    rfl
  · rw [Bool.not_eq_true] at hnegative
    rw [hnegative]
    rfl
  · rw [Bool.not_eq_true] at hnegative
    rw [hnegative]
    rfl
  · rw [Bool.not_eq_true] at hnegative
    rw [hnegative]
    exact readSign_of_head hhead hdigit

/-- A digit in a base is one in every larger base. -/
theorem isDigitIn_mono {b c : Nat} (hle : b ≤ c) {byte : UInt8} (h : isDigitIn b byte = true) :
    isDigitIn c byte = true := by
  unfold isDigitIn at *
  cases hdigit : digitOf? byte with
  | none => simp [hdigit] at h
  | some digit =>
    rw [hdigit, Option.any_some, decide_eq_true_eq] at h
    rw [Option.any_some, decide_eq_true_eq]
    omega

/-- Behind a sign a numeral reads as before, with that sign. -/
theorem read?_signed {text : Bytes} {n : Numeral} (d : Directive) (negative : Bool)
    (h : readUnsigned? text = some n) :
    read? (d.signText negative ++ text) = some { n with negative } := by
  obtain ⟨byte, hbyte, hdigit⟩ := head_of_readUnsigned? h
  have hsign := readSign_signText d negative hbyte (isDigitIn_mono (base_le false) hdigit)
  unfold read?
  simp only [hsign, h]
  rfl

end Numeral

end FormattedOutput
