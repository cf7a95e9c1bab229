import FormattedOutput.Number.Digits
import FormattedOutput.Proofs.Decimal.Values

/-!
# The digits that are written

Every way to write digits gives the last digits of a number, the last one first. They differ in
the base and in how many digits there are. Digits of a part of a number are a part of its digits.
-/

namespace FormattedOutput

theorem Radix.base_le (radix : Radix) : radix.base ≤ 16 := by
  cases radix <;> decide

namespace Digits

/-- The last `count` digits of a number, the last one first. -/
def low (base : Nat) (uppercase : Bool) : Nat → Nat → Bytes
  | 0, _ => []
  | count + 1, n => ofDigit uppercase (n % base) :: low base uppercase count (n / base)

variable {base : Nat} {uppercase : Bool}

@[simp] theorem length_low (count n : Nat) : (low base uppercase count n).length = count := by
  induction count generalizing n with
  | zero => rfl
  | succ count ih => rw [low, List.length_cons, ih]

/-- The first digits in a row belong to the number, and the others to what is left of it. -/
theorem low_add (a b n : Nat) :
    low base uppercase (a + b) n =
      low base uppercase a n ++ low base uppercase b (n / base ^ a) := by
  induction a generalizing n with
  | zero => rw [Nat.zero_add, low, List.nil_append, pow_zero, Nat.div_one]
  | succ a ih =>
    rw [Nat.succ_add, low, low, ih, List.cons_append, Nat.div_div_eq_div_mul, ← pow_succ']

theorem low_zero (count : Nat) : low base uppercase count 0 = List.replicate count 48 := by
  induction count with
  | zero => rfl
  | succ count ih =>
    rw [low, Nat.zero_mod, Nat.zero_div, ih, List.replicate_succ]
    rfl

/-- A number with zeros at its end has these zeros first. -/
theorem low_mul_pow (hbase : 0 < base) (a b n : Nat) :
    low base uppercase (a + b) (n * base ^ a) = List.replicate a 48 ++ low base uppercase b n := by
  rw [low_add, Nat.mul_div_cancel _ (Nat.pow_pos hbase)]
  congr 1
  induction a generalizing n with
  | zero => rfl
  | succ a ih =>
    have hmul : n * base ^ (a + 1) = n * base ^ a * base := by rw [pow_succ, mul_assoc]
    rw [low, hmul, Nat.mul_mod_left, Nat.mul_div_cancel _ hbase, ih, List.replicate_succ]
    rfl

/-- The digits in front of the last ones do not count. -/
theorem low_mod (count n : Nat) :
    low base uppercase count (n % base ^ count) = low base uppercase count n := by
  induction count generalizing n with
  | zero => rfl
  | succ count ih =>
    rw [low, low, pow_succ', Nat.mod_mul_right_mod, Nat.mod_mul_right_div_self, ih]

/-! ## The digits of a number -/

theorem lastHex_eq (count n : Nat) : lastHex uppercase count n = low 16 uppercase count n := by
  induction count generalizing n with
  | zero => rfl
  | succ count ih => rw [lastHex, low, ih]

theorem pair_eq : ∀ n < 100, pair n = low 10 false 2 n := by
  decide +kernel

theorem shortPair_eq : ∀ n < 100, shortPair n = low 10 false (Decimal.digitCount n) n := by
  decide +kernel

/-- The decimal digits of a number are as many as it has. -/
theorem decimal_eq (n : Nat) : decimal n = low 10 false (Decimal.digitCount n) n := by
  induction n using decimal.induct with
  | case1 n hlarge ih =>
    have hcount : Decimal.digitCount n = 2 + (2 + Decimal.digitCount (n / 10000)) := by
      rw [Decimal.digitCount_div_pow (n := n) (k := 4) (by omega)]
      norm_num
      omega
    have hones : n % 10000 % 100 = n % 10 ^ 2 := by omega
    have htens : n % 10000 / 100 = n / 10 ^ 2 % 10 ^ 2 := by omega
    rw [decimal, if_pos hlarge, ih, pair_eq _ (by omega), pair_eq _ (by omega), hcount, low_add,
      low_add, List.append_assoc, hones, htens, low_mod, low_mod, Nat.div_div_eq_div_mul]
  | case2 n hsmall hlarge =>
    have hcount : Decimal.digitCount n = 2 + Decimal.digitCount (n / 100) := by
      rw [Decimal.digitCount_div_pow (n := n) (k := 2) (by omega)]
      norm_num
      omega
    rw [decimal, if_neg hsmall, if_pos hlarge, pair_eq _ (by omega), shortPair_eq _ (by omega),
      hcount, low_add, ← low_mod 2 n]
  | case3 n hsmall hless =>
    rw [decimal, if_neg hsmall, if_neg hless, shortPair_eq _ (by omega)]

/-- In a base up to 10 no digit is a letter. -/
theorem low_uppercase (hbase : 0 < base) (hten : base ≤ 10) (count n : Nat) :
    low base uppercase count n = low base false count n := by
  induction count generalizing n with
  | zero => rfl
  | succ count ih =>
    have hdigit : n % base < 10 := lt_of_lt_of_le (Nat.mod_lt _ hbase) hten
    rw [low, low, ih]
    unfold ofDigit
    rw [if_pos hdigit, if_pos hdigit]

/-- A row of digits is all of a number: it has no more digits, and no zero in front of them. -/
structure IsWhole (base n count : Nat) : Prop where
  positive : 0 < count
  lt_pow : n < base ^ count
  pow_le : count ≠ 1 → base ^ (count - 1) ≤ n

theorem ofDigit_eq_zero : ∀ uppercase, ∀ digit < 16,
    ofDigit uppercase digit = 48 → digit = 0 := by
  decide

/-- All the digits of a number do not start with a zero, unless the number has one digit. -/
theorem head_low_of_isWhole (hbase : 0 < base) (hle : base ≤ 16) {n count : Nat}
    (h : IsWhole base n count) (hzero : (low base uppercase count n).reverse.head? = some 48) :
    count = 1 := by
  by_contra hne
  have hpos := h.positive
  obtain ⟨k, rfl⟩ : ∃ k, count = k + 1 := ⟨count - 1, by omega⟩
  have hpow := h.pow_le hne
  have hlt := h.lt_pow
  rw [Nat.add_sub_cancel] at hpow
  -- The first digit is the number without the digits behind it.
  have hdigit : n / base ^ k < base := by
    rw [Nat.div_lt_iff_lt_mul (Nat.pow_pos hbase), ← pow_succ']
    exact hlt
  have hfirst : 0 < n / base ^ k := Nat.div_pos hpow (Nat.pow_pos hbase)
  rw [low_add, List.reverse_append, low, low, Nat.mod_eq_of_lt hdigit] at hzero
  have heq := ofDigit_eq_zero uppercase _ (lt_of_lt_of_le hdigit hle) (by simpa using hzero)
  omega

/-- A number with more digits than one is not less than the base. -/
theorem IsWhole.base_le {n count : Nat} (hbase : 0 < base) (h : IsWhole base n count)
    (hne : count ≠ 1) : base ≤ n := by
  have hpos := h.positive
  calc
    base = base ^ 1 := (pow_one base).symm
    _ ≤ base ^ (count - 1) := Nat.pow_le_pow_right hbase (by omega)
    _ ≤ n := h.pow_le hne

/-- Without its last digit a number has one digit less. -/
theorem IsWhole.div {n count : Nat} (hbase : 0 < base) (h : IsWhole base n (count + 1))
    (hcount : 0 < count) : IsWhole base (n / base) count where
  positive := hcount
  lt_pow := by
    rw [Nat.div_lt_iff_lt_mul hbase, ← pow_succ]
    exact h.lt_pow
  pow_le hne := by
    rw [Nat.le_div_iff_mul_le hbase, ← pow_succ, Nat.sub_add_cancel hcount]
    exact h.pow_le (by omega)

theorem exists_binary_eq (extra : Nat) (uppercase : Bool) (n : Nat) :
    ∃ count, IsWhole (2 ^ (extra + 1)) n count ∧
      binary extra uppercase n = low (2 ^ (extra + 1)) uppercase count n := by
  induction n using binary.induct extra uppercase with
  | case1 n hzero =>
    have hlt : n < 2 ^ (extra + 1) := by
      rw [Nat.shiftRight_eq_div_pow] at hzero
      exact (Nat.div_eq_zero_iff_lt (Nat.pow_pos (by decide))).mp hzero
    refine ⟨1, ⟨Nat.one_pos, by rwa [pow_one], fun hne => absurd rfl hne⟩, ?_⟩
    rw [binary, dif_pos hzero]
    rfl
  | case2 n hzero ih =>
    obtain ⟨count, hwhole, heq⟩ := ih
    rw [Nat.shiftRight_eq_div_pow] at hwhole heq
    have hbase : 0 < 2 ^ (extra + 1) := Nat.pow_pos (by decide)
    refine ⟨count + 1, ⟨Nat.succ_pos _, ?_, ?_⟩, ?_⟩
    · rw [pow_succ]
      exact (Nat.div_lt_iff_lt_mul hbase).mp hwhole.lt_pow
    · intro _
      rw [Nat.add_sub_cancel]
      by_cases hone : count = 1
      · rw [Nat.shiftRight_eq_div_pow, Nat.div_eq_zero_iff_lt hbase, Nat.not_lt] at hzero
        rwa [hone, pow_one]
      · have hle := (Nat.le_div_iff_mul_le hbase).mp (hwhole.pow_le hone)
        rwa [← pow_succ, Nat.sub_add_cancel hwhole.positive] at hle
    · rw [binary, dif_neg hzero, Nat.shiftRight_eq_div_pow, heq, low]

theorem isWhole_digitCount (n : Nat) : IsWhole 10 n (Decimal.digitCount n) where
  positive := Decimal.digitCount_pos n
  lt_pow := Decimal.lt_pow_digitCount n
  pow_le hne := by
    apply Decimal.pow_digitCount_le
    apply Nat.pos_of_ne_zero
    rintro rfl
    exact hne (Decimal.digitCount_of_lt (by decide))

/-- In every radix the digits of a number are all of it. -/
theorem exists_reversed_eq (radix : Radix) (uppercase : Bool) (n : Nat) :
    ∃ count, IsWhole radix.base n count ∧
      reversed radix uppercase n = low radix.base uppercase count n := by
  cases radix with
  | decimal =>
    refine ⟨_, isWhole_digitCount n, ?_⟩
    rw [Radix.base, low_uppercase (by decide) (by decide)]
    exact decimal_eq n
  | hex => exact exists_binary_eq 3 uppercase n
  | octal =>
    obtain ⟨count, hwhole, heq⟩ := exists_binary_eq 2 false n
    refine ⟨count, hwhole, ?_⟩
    rw [Radix.base, low_uppercase (by decide) (by decide)]
    exact heq
  | binary =>
    obtain ⟨count, hwhole, heq⟩ := exists_binary_eq 0 false n
    refine ⟨count, hwhole, ?_⟩
    rw [Radix.base, low_uppercase (by decide) (by decide)]
    exact heq

end Digits

end FormattedOutput
