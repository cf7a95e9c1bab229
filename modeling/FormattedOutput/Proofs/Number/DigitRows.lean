import FormattedOutput.Proofs.Number.IntegerText
import FormattedOutput.Proofs.Number.Rows
import Mathlib.Data.Nat.Digits.Lemmas

/-!
# Digits that are added to a row

Digits are added to a row one at a time, out of tables. Decimal digits come out of a table of pairs,
and the first pair loses the zero in front of a single digit. The others are bits of the number.
There is no result if a table is left or the row is full. All the same what is added is what
division by the base gives.
-/

namespace FormattedOutput

namespace Digits

/-! ## Out of tables -/

/-- The two digits of every number below 100, one number after the other. -/
def pairTable : Bytes :=
  latin ("0001020304050607080910111213141516171819".toList ++
    "2021222324252627282930313233343536373839".toList ++
    "4041424344454647484950515253545556575859".toList ++
    "6061626364656667686970717273747576777879".toList ++
    "8081828384858687888990919293949596979899".toList)

/-- The hexadecimal digits. -/
def digitTable (uppercase : Bool) : Bytes :=
  latin (if uppercase then "0123456789ABCDEF".toList else "0123456789abcdef".toList)

variable {capacity : Nat}

/-- Adds the two digits of a number below 100. -/
def writePair? (n : Nat) (r : Row capacity) : Option (Row capacity) := do
  let r ← r.push? (← pairTable[2 * n + 1]?)
  r.push? (← pairTable[2 * n]?)

/-- Adds the digits of a number below 100, without a zero in front. -/
def writeShortPair? (n : Nat) (r : Row capacity) : Option (Row capacity) :=
  if n < 10 then r.push? (48 + UInt8.ofNat n) else writePair? n r

/-- Adds the decimal digits of a number, four at a time. -/
def writeDecimal? (n : Nat) (r : Row capacity) : Option (Row capacity) :=
  if 10000 ≤ n then do
    let r ← writePair? (n % 10000 % 100) r
    let r ← writePair? (n % 10000 / 100) r
    writeDecimal? (n / 10000) r
  else if 100 ≤ n then do
    let r ← writePair? (n % 100) r
    writeShortPair? (n / 100) r
  else writeShortPair? n r
termination_by n
decreasing_by omega

/-- Adds the digits of a number that have `extra + 1` bits each. -/
def writeBinary? (extra : Nat) (uppercase : Bool) (n : Nat) (r : Row capacity) :
    Option (Row capacity) := do
  let r ← r.push? (← (digitTable uppercase)[n &&& (1 <<< (extra + 1) - 1)]?)
  if h : n >>> (extra + 1) = 0 then return r
  else writeBinary? extra uppercase (n >>> (extra + 1)) r
termination_by n
decreasing_by
  rw [Nat.shiftRight_eq_div_pow] at *
  refine Nat.div_lt_self (Nat.pos_of_ne_zero ?_) (Nat.one_lt_two_pow (Nat.succ_ne_zero _))
  rintro rfl
  simp at h

/-- Adds the digits of a number, the last one first. -/
def write? (radix : Radix) (uppercase : Bool) (n : Nat) (r : Row capacity) :
    Option (Row capacity) :=
  match radix with
  | .decimal => writeDecimal? n r
  | .hex => writeBinary? 3 uppercase n r
  | .octal => writeBinary? 2 false n r
  | .binary => writeBinary? 0 false n r

/-- Adds the last `count` hexadecimal digits of a number, zeros included. -/
def writeLastHex? (uppercase : Bool) : Nat → Nat → Row capacity → Option (Row capacity)
  | 0, _, r => some r
  | count + 1, n, r => do
    writeLastHex? uppercase count (n >>> 4) (← r.push? (← (digitTable uppercase)[n &&& 0xf]?))

/-! ## The digits are those of the number -/

theorem getElem?_pairTable : ∀ n < 100,
    pairTable[2 * n + 1]? = some (ofDigit false (n % 10)) ∧
      pairTable[2 * n]? = some (ofDigit false (n / 10)) ∧
      pair n = [ofDigit false (n % 10), ofDigit false (n / 10)] := by
  decide +kernel

theorem getElem?_digitTable : ∀ uppercase, ∀ digit < 16,
    (digitTable uppercase)[digit]? = some (ofDigit uppercase digit) := by
  decide +kernel

variable {uppercase : Bool} {r : Row capacity}

theorem writePair?_eq {n : Nat} (h : n < 100) : writePair? n r = r.append? (pair n) := by
  obtain ⟨hones, htens, hpair⟩ := getElem?_pairTable n h
  unfold writePair?
  rw [hones, htens, hpair, Row.append?]
  simp only [Option.bind_eq_bind, Option.bind_some, Row.append?_singleton]

theorem writeShortPair?_eq {n : Nat} (h : n < 100) :
    writeShortPair? n r = r.append? (shortPair n) := by
  unfold writeShortPair? shortPair
  split_ifs with hone
  · rw [Row.append?_singleton]
    interval_cases n <;> rfl
  · exact writePair?_eq h

theorem writeDecimal?_eq (n : Nat) (r : Row capacity) :
    writeDecimal? n r = r.append? (decimal n) := by
  induction n using decimal.induct generalizing r with
  | case1 n hlarge ih =>
    have hones : n % 10000 % 100 < 100 := by omega
    have htens : n % 10000 / 100 < 100 := by omega
    rw [writeDecimal?, decimal, if_pos hlarge, if_pos hlarge, List.append_assoc,
      Row.append?_append]
    simp only [Option.bind_eq_bind, writePair?_eq hones, writePair?_eq htens, ih,
      Row.append?_append]
  | case2 n hsmall hlarge =>
    have hones : n % 100 < 100 := by omega
    have htens : n / 100 < 100 := by omega
    rw [writeDecimal?, decimal, if_neg hsmall, if_neg hsmall, if_pos hlarge, if_pos hlarge,
      Row.append?_append]
    simp only [Option.bind_eq_bind, writePair?_eq hones, writeShortPair?_eq htens]
  | case3 n hsmall hless =>
    rw [writeDecimal?, decimal, if_neg hsmall, if_neg hsmall, if_neg hless, if_neg hless,
      writeShortPair?_eq (by omega)]

/-- The low bits of a number are one of its digits. -/
theorem getElem?_digitTable_bits {extra : Nat} (hextra : extra < 4) (n : Nat) :
    (digitTable uppercase)[n &&& (1 <<< (extra + 1) - 1)]? =
      some (ofDigit uppercase (n % 2 ^ (extra + 1))) := by
  have hle : 2 ^ (extra + 1) ≤ 2 ^ 4 := Nat.pow_le_pow_right (by decide) (by omega)
  have hlt : n % 2 ^ (extra + 1) < 2 ^ (extra + 1) := Nat.mod_lt _ (Nat.pow_pos (by decide))
  rw [Nat.one_shiftLeft, Nat.and_two_pow_sub_one_eq_mod]
  exact getElem?_digitTable _ _ (lt_of_lt_of_le hlt hle)

theorem writeBinary?_eq {extra : Nat} (hextra : extra < 4) (uppercase : Bool) (n : Nat)
    (r : Row capacity) :
    writeBinary? extra uppercase n r = r.append? (binary extra uppercase n) := by
  induction n using binary.induct extra uppercase generalizing r with
  | case1 n hzero =>
    rw [writeBinary?, binary, dif_pos hzero, getElem?_digitTable_bits hextra]
    simp [dif_pos hzero, Row.append?_singleton]
  | case2 n hzero ih =>
    rw [writeBinary?, binary, dif_neg hzero, getElem?_digitTable_bits hextra, Row.append?]
    simp [dif_neg hzero, ih]

/-- The digits that are added are those that division gives. -/
theorem write?_eq (radix : Radix) (uppercase : Bool) (n : Nat) (r : Row capacity) :
    write? radix uppercase n r = r.append? (reversed radix uppercase n) := by
  cases radix with
  | decimal => exact writeDecimal?_eq n r
  | hex => exact writeBinary?_eq (by decide) uppercase n r
  | octal => exact writeBinary?_eq (by decide) false n r
  | binary => exact writeBinary?_eq (by decide) false n r

theorem writeLastHex?_eq (uppercase : Bool) (count n : Nat) (r : Row capacity) :
    writeLastHex? uppercase count n r = r.append? (lastHex uppercase count n) := by
  induction count generalizing n r with
  | zero => rfl
  | succ count ih =>
    have hdigit : (digitTable uppercase)[n &&& 0xf]? = some (ofDigit uppercase (n % 16)) :=
      getElem?_digitTable_bits (show 3 < 4 by decide) n
    rw [writeLastHex?, lastHex, Row.append?, hdigit]
    simp only [Option.bind_eq_bind, Option.bind_some, ih, Nat.shiftRight_eq_div_pow]

/-! ## By division -/

/-- The digits of a number in a base, by repeated division, the last one first. Zero has one. -/
def ofDivision (base n : Nat) : List Nat :=
  if n = 0 then [0] else Nat.digits base n

theorem ofDivision_of_lt {base n : Nat} (h : n < base) : ofDivision base n = [n] := by
  unfold ofDivision
  split_ifs with hzero
  · rw [hzero]
  · exact Nat.digits_of_lt _ _ hzero h

theorem ofDivision_of_le {base n : Nat} (hbase : 1 < base) (h : base ≤ n) :
    ofDivision base n = n % base :: ofDivision base (n / base) := by
  have hdiv : 0 < n / base := Nat.div_pos h (by omega)
  unfold ofDivision
  rw [if_neg (by omega), if_neg hdiv.ne', Nat.digits_def' hbase (by omega)]

theorem low_eq_ofDivision {base n count : Nat} (hbase : 1 < base) (h : IsWhole base n count) :
    low base uppercase count n = (ofDivision base n).map (ofDigit uppercase) := by
  induction count generalizing n with
  | zero => exact absurd h.positive (lt_irrefl 0)
  | succ count ih =>
    rcases Nat.eq_zero_or_pos count with rfl | hpos
    · have hlt : n < base := by simpa using h.lt_pow
      rw [ofDivision_of_lt hlt, low, Nat.mod_eq_of_lt hlt]
      rfl
    · have hle := h.base_le (by omega) (by omega)
      rw [ofDivision_of_le hbase hle, List.map_cons, low, ih (h.div (by omega) hpos)]

theorem digitsAppend_succ {base : Nat} (hbase : 1 < base) (count n : Nat) :
    Nat.digitsAppend base (count + 1) n =
      n % base :: Nat.digitsAppend base count (n / base) := by
  unfold Nat.digitsAppend
  rcases Nat.eq_zero_or_pos n with rfl | hpos
  · simp [List.replicate_succ]
  · rw [Nat.digits_def' hbase hpos]
    simp

/-- The last digits of a number, zeros included, are those that division gives for the rest of the
number, with zeros behind them. -/
theorem low_eq_digitsAppend {base : Nat} (hbase : 1 < base) (count n : Nat) :
    low base uppercase count n =
      (Nat.digitsAppend base count (n % base ^ count)).map (ofDigit uppercase) := by
  induction count generalizing n with
  | zero => simp [low, Nat.digitsAppend, Nat.mod_one]
  | succ count ih =>
    have hones : n % base ^ (count + 1) % base = n % base := by
      rw [pow_succ', Nat.mod_mul_right_mod]
    have hrest : n % base ^ (count + 1) / base = n / base % base ^ count := by
      rw [pow_succ', Nat.mod_mul_right_div_self]
    rw [low, ih, digitsAppend_succ hbase, List.map_cons, hones, hrest]

/-- The digits of a number that repeated division gives, the last one first. Letters are capital
ones in hexadecimal alone. -/
def byDivision (radix : Radix) (uppercase : Bool) (n : Nat) : Bytes :=
  (ofDivision radix.base n).map (ofDigit (uppercase && radix = .hex))

theorem reversed_eq_byDivision (radix : Radix) (uppercase : Bool) (n : Nat) :
    reversed radix uppercase n = byDivision radix uppercase n := by
  obtain ⟨count, hwhole, heq⟩ := exists_reversed_eq radix uppercase n
  have hbase := radix.two_le_base
  unfold byDivision
  rw [heq, ← low_eq_ofDivision (by omega) hwhole]
  cases radix with
  | hex => simp
  | decimal | octal | binary =>
    simp only [Radix.base, reduceCtorEq, decide_false, Bool.and_false]
    exact low_uppercase (by decide) (by decide) count n

/-- The last `count` hexadecimal digits of a number, the last one first. -/
def lastByDivision (uppercase : Bool) (count n : Nat) : Bytes :=
  (Nat.digitsAppend 16 count (n % 16 ^ count)).map (ofDigit uppercase)

theorem lastHex_eq_lastByDivision (uppercase : Bool) (count n : Nat) :
    lastHex uppercase count n = lastByDivision uppercase count n :=
  (lastHex_eq count n).trans (low_eq_digitsAppend (by decide) count n)

end Digits

/-- The digits of a number are added to every row that has room for them. They are those that
repeated division by the base gives, at least one of them. The most significant digit is not zero
unless the number is, and read backwards the digits are the number. A count of hexadecimal digits is
added just as well, and these are the last digits of the number, zeros included. -/
theorem digits_written (capacity : Nat) (uppercase : Bool) (n : Nat) :
    (∀ radix : Radix,
      Row.Adds capacity (Digits.write? radix uppercase n)
        (Digits.byDivision radix uppercase n) ∧
      Digits.byDivision radix uppercase n = Digits.reversed radix uppercase n ∧
      Digits.byDivision radix uppercase n ≠ [] ∧
      (n ≠ 0 → (Digits.byDivision radix uppercase n).getLast? ≠ some 48) ∧
      Numeral.valueIn radix.base (Digits.byDivision radix uppercase n).reverse = n) ∧
    ∀ count : Nat,
      Row.Adds capacity (Digits.writeLastHex? uppercase count n)
        (Digits.lastByDivision uppercase count n) ∧
      Digits.lastByDivision uppercase count n = Digits.lastHex uppercase count n ∧
      (Digits.lastByDivision uppercase count n).length = count ∧
      Numeral.valueIn 16 (Digits.lastByDivision uppercase count n).reverse = n % 16 ^ count := by
  refine ⟨fun radix => ?_, fun count => ?_⟩
  · have htext := Numeral.reverse_reversed radix uppercase n
    rw [← Digits.reversed_eq_byDivision]
    refine ⟨Row.adds_of_eq (Digits.write?_eq radix uppercase n), rfl, ?_, ?_, ?_⟩
    · have hpos := Numeral.length_text_pos radix uppercase n
      rw [← htext, List.length_reverse] at hpos
      exact List.ne_nil_of_length_pos hpos
    · intro hne
      rw [← List.head?_reverse, htext]
      exact Numeral.head_text_ne radix uppercase hne
    · rw [htext, Numeral.valueIn_text]
  · rw [← Digits.lastHex_eq_lastByDivision]
    refine ⟨Row.adds_of_eq (Digits.writeLastHex?_eq uppercase count n), rfl, ?_, ?_⟩
    · rw [Digits.lastHex_eq, Digits.length_low]
    · rw [Digits.lastHex_eq, Numeral.valueIn_low (by decide) (by decide)]

end FormattedOutput
