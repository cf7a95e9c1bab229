import FormattedOutput.Proofs.Directive.Invariant
import FormattedOutput.Proofs.Format.FloatText
import FormattedOutput.Proofs.Format.Renderers
import FormattedOutput.Proofs.Number.IntegerText

/-!
# What an integer directive writes

The length says how many bits of the argument count, and the conversion says what they stand for.
Where nothing is filled, the value is written as a sign or a base marker with digits behind it. The
precision is the least number of digits, and it may leave a zero without any.
-/

namespace FormattedOutput

/-! ## The bits that count -/

/-- How many bits of an argument count. -/
def Length.bitsRead : Length → Nat
  | .plain => 32
  | .halfHalf => 8
  | .half => 16
  | .exact bits => bits
  | .fast 8 => 8
  | _ => 64

/-- The number of bits is one that no integer has. -/
def Length.IsMissized (l : Length) : Prop :=
  ∃ bits, l.bits? = some bits ∧ bits ∉ [8, 16, 32, 64]

namespace Length

variable {l : Length}

theorem argumentBits_of_isMissized (h : l.IsMissized) :
    ∃ fault : Fault, fault.kind = .invalidArgument ∧ l.argumentBits = .error fault := by
  obtain ⟨bits, hbits, hmissing⟩ := h
  simp only [List.mem_cons, List.not_mem_nil, or_false, not_or] at hmissing
  cases l with
  | exact _ =>
    obtain rfl := Option.some.inj hbits
    exact ⟨.noSuchWidth, rfl, by simp [argumentBits, hmissing]⟩
  | fast _ =>
    obtain rfl := Option.some.inj hbits
    exact ⟨.noSuchFastWidth, rfl, by simp [argumentBits, hmissing]⟩
  | _ => contradiction

theorem argumentBits_of_not_isMissized (h : ¬l.IsMissized) : l.argumentBits = .ok l.bitsRead := by
  have hbits : ∀ bits, l.bits? = some bits → bits = 8 ∨ bits = 16 ∨ bits = 32 ∨ bits = 64 := by
    intro bits hbits
    by_contra hmissing
    apply h
    exact ⟨bits, hbits, by simpa using hmissing⟩
  cases l with
  | exact bits => simp [argumentBits, bitsRead, hbits bits rfl]
  | fast bits =>
    rcases hbits bits rfl with rfl | rfl | rfl | rfl <;> rfl
  | _ => rfl

end Length

namespace Directive

variable {d : Directive} {args left : List Arg} {word : UInt64} {value : Int}

/-- How many bits of an argument count. An address has all of them. -/
def bitsRead (d : Directive) : Nat := if d.conversion = .pointer then 64 else d.length.bitsRead

/-- The directive asks for an integer of a size that there is not. -/
def IsMissized (d : Directive) : Prop := d.conversion ≠ .pointer ∧ d.length.IsMissized

/-- The number that the low bits of a word stand for: in two's complement for a signed conversion,
and without a sign for any other. -/
def lowBits (d : Directive) (word : UInt64) : Int :=
  if d.conversion = .signed then (word.toBitVec.setWidth d.bitsRead).toInt
  else (word.toBitVec.setWidth d.bitsRead).toNat

theorem readBits_bitsRead (d : Directive) (word : UInt64) :
    d.readBits d.bitsRead word = d.lowBits word := by
  unfold readBits lowBits isSigned
  by_cases hsigned : d.conversion = .signed
  · rw [if_pos (decide_eq_true hsigned), if_pos hsigned, BitVec.toInt_eq_toNat_bmod,
      BitVec.toNat_setWidth, Int.natCast_emod, Int.emod_bmod]
    rfl
  · simp [hsigned, BitVec.toNat_setWidth]

/-- An integer is rejected before its argument is taken. -/
theorem resolve_of_isMissized (hinteger : d.conversion.isInteger = true) (h : d.IsMissized)
    (args : List Arg) :
    ∃ fault : Fault, fault.kind = .invalidArgument ∧ d.resolve args = (.error fault, args) := by
  obtain ⟨hpointer, hlength⟩ := h
  obtain ⟨fault, hkind, hbits⟩ := Length.argumentBits_of_isMissized hlength
  refine ⟨fault, hkind, ?_⟩
  unfold resolve
  cases hconversion : d.conversion with
  | signed => simp [hbits]
  | unsigned radix => simp [hbits]
  | pointer => exact absurd hconversion hpointer
  | _ => simp [hconversion, Conversion.isInteger] at hinteger

/-- Any other integer is the number of its low bits. -/
theorem resolve_of_not_isMissized (hinteger : d.conversion.isInteger = true) (h : ¬d.IsMissized)
    {arg : Arg} (hword : arg.word? = some word) (left : List Arg) :
    d.resolve (arg :: left) = (.ok (.integer d (d.lowBits word)), left) := by
  have htaken : ∀ bits, d.resolveInteger bits (arg :: left) =
      (.ok (.integer d (d.readBits bits word)), left) := by
    intro bits
    simp [resolveInteger, Arg.takeWord, Arg.take, hword, Taken.map]
  have hbits : d.conversion ≠ .pointer → d.length.argumentBits = .ok d.bitsRead := by
    intro hpointer
    unfold bitsRead
    rw [if_neg hpointer]
    apply Length.argumentBits_of_not_isMissized
    intro hlength
    exact h ⟨hpointer, hlength⟩
  rw [← readBits_bitsRead, ← htaken]
  unfold resolve
  cases hconversion : d.conversion with
  | signed => simp [hbits (by simp [hconversion])]
  | unsigned radix => simp [hbits (by simp [hconversion])]
  | pointer => simp [bitsRead, hconversion]
  | _ => simp [hconversion, Conversion.isInteger] at hinteger

/-! ## The digits -/

/-- The numeral of a magnitude in the radix of the directive. -/
def numeral (d : Directive) (n : Nat) : Bytes :=
  Numeral.text d.integerRadix d.uppercase n

/-- The least number of digits, if the directive has a precision. -/
def leastPlaces? (d : Directive) : Option Nat := d.precision.effective.map Int.toNat

/-- The numeral of a magnitude with zeros up to the precision. With the precision 0 zero has no
digits. -/
def paddedNumeral (d : Directive) (n : Nat) : Bytes :=
  if n = 0 ∧ d.leastPlaces? = some 0 then []
  else List.replicate (d.leastPlaces?.getD 0 - (d.numeral n).length) 48 ++ d.numeral n

/-- The directive asks for octal digits that start with a zero. -/
def IsAlternateOctal (d : Directive) : Prop :=
  d.integerRadix = .octal ∧ d.flags.alternate = true

instance (d : Directive) : Decidable d.IsAlternateOctal := inferInstanceAs (Decidable (_ ∧ _))

/-- The digits of a magnitude. A zero is added to those of an alternate octal number, if they do not
start with one. -/
def integerDigits (d : Directive) (n : Nat) : Bytes :=
  if d.IsAlternateOctal ∧ (d.paddedNumeral n).head? ≠ some 48 then 48 :: d.paddedNumeral n
  else d.paddedNumeral n

theorem numeral_zero (d : Directive) : d.numeral 0 = [48] := Numeral.text_zero _ _

theorem length_numeral_pos (d : Directive) (n : Nat) : 0 < (d.numeral n).length :=
  Numeral.length_text_pos _ _ _

theorem map_natCast_eq_zero (least : Option Nat) :
    least.map (Nat.cast : Nat → Int) = some 0 ↔ least = some 0 := by
  cases least <;> simp

theorem getD_map_natCast (least : Option Nat) :
    (least.map (Nat.cast : Nat → Int)).getD 0 = least.getD 0 := by
  cases least <;> rfl

/-- Where the precision is not negative, the digits are counted with natural numbers. -/
theorem effective_eq (hprecision : 0 ≤ d.precision.value) :
    d.precision.effective = d.leastPlaces?.map (Nat.cast : Nat → Int) := by
  unfold leastPlaces? Extent.effective
  split_ifs
  · simp [Int.toNat_of_nonneg hprecision]
  · rfl

/-- A numeral is left out, it is left as it is, or it starts with a zero. -/
theorem paddedNumeral_cases (d : Directive) (n : Nat) :
    (n = 0 ∧ d.leastPlaces? = some 0 ∧ d.paddedNumeral n = []) ∨
    (n ≠ 0 ∧ d.leastPlaces?.getD 0 ≤ (d.numeral n).length ∧ d.paddedNumeral n = d.numeral n) ∨
    ((n = 0 → d.leastPlaces? ≠ some 0) ∧ (n ≠ 0 → (d.numeral n).length < d.leastPlaces?.getD 0) ∧
      (d.paddedNumeral n).head? = some 48) := by
  unfold paddedNumeral
  by_cases hzero : n = 0
  · by_cases hplaces : d.leastPlaces? = some 0
    · left
      simp [hzero, hplaces]
    · right; right
      subst hzero
      refine ⟨fun _ => hplaces, fun h => absurd rfl h, ?_⟩
      rw [if_neg (by simp [hplaces]), numeral_zero, ← List.replicate_succ']
      rfl
  · by_cases hle : d.leastPlaces?.getD 0 ≤ (d.numeral n).length
    · right; left
      simp [hzero, hle]
    · right; right
      refine ⟨fun h => absurd h hzero, fun _ => by omega, ?_⟩
      obtain ⟨more, hmore⟩ : ∃ more, d.leastPlaces?.getD 0 - (d.numeral n).length = more + 1 :=
        Nat.exists_eq_add_one.mpr (by omega)
      rw [if_neg (by simp [hzero]), hmore]
      rfl

/-- The numeral, and as many zeros before it as are missing. -/
theorem concat_integerField (hfloat : d.conversion.isFloat = false) {least : Option Nat}
    (hleast : d.leastDigits value (d.numeral value.natAbs).length =
      least.map (Nat.cast : Nat → Int)) :
    Piece.concat (d.integerField value).number =
      List.replicate (least.getD 0 - (d.numeral value.natAbs).length) 48 ++
        if value = 0 ∧ least = some 0 then [] else d.numeral value.natAbs := by
  have hdigits : (Digits.reversed d.integerRadix d.uppercase value.natAbs).reverse =
      d.numeral value.natAbs := Numeral.reverse_reversed _ _ _
  have hlength := congrArg List.length hdigits
  rw [List.length_reverse] at hlength
  rw [Field.concat_number]
  unfold integerField Field.leadingZeros Field.trailingZeros ByteRun.bytes
  simp only [radix_eq hfloat, hlength, hleast, map_natCast_eq_zero, getD_map_natCast, Int.toNat_sub]
  split_ifs
  · simp
  · simp [hdigits]

/-- The least number of digits is the precision, but for the zero that an alternate octal number
is given. -/
theorem leastDigits_eq (hfloat : d.conversion.isFloat = false)
    (hprecision : 0 ≤ d.precision.value) (value : Int) :
    d.leastDigits value (d.numeral value.natAbs).length =
      Option.map (Nat.cast : Nat → Int)
        (if d.IsAlternateOctal ∧ (d.paddedNumeral value.natAbs).head? ≠ some 48 then
          some ((d.paddedNumeral value.natAbs).length + 1)
        else d.leastPlaces?) := by
  have hoctal : (decide (d.integerRadix = .octal) && d.flags.alternate) = true ↔
      d.IsAlternateOctal := by
    simp [IsAlternateOctal]
  unfold leastDigits
  simp only [radix_eq hfloat, effective_eq hprecision, hoctal, map_natCast_eq_zero,
    getD_map_natCast, Nat.cast_le, Bool.and_eq_true, decide_eq_true_eq]
  by_cases halternate : d.IsAlternateOctal
  · rcases d.paddedNumeral_cases value.natAbs with
      ⟨hzero, hplaces, hpadded⟩ | ⟨hne, hle, hpadded⟩ | ⟨hzero, hne, hhead⟩
    · obtain rfl := Int.natAbs_eq_zero.mp hzero
      rw [hpadded, hplaces]
      simp [halternate]
    · have hhead : (d.numeral value.natAbs).head? ≠ some 48 := Numeral.head_text_ne _ _ hne
      rw [Int.natAbs_ne_zero] at hne
      rw [hpadded]
      simp [halternate, hhead, hne, hle]
    · -- The precision asks for a zero already.
      rw [Int.natAbs_ne_zero] at hne
      rw [Int.natAbs_eq_zero] at hzero
      rw [hhead, if_pos halternate, if_neg fun h => Nat.not_le.mpr (hne h.1) h.2,
        if_neg fun h => hzero h.1 h.2, if_neg fun h => h.2 rfl]
  · simp [halternate]

/-- The digits of the field are those of the magnitude, where the precision is a number of
places. -/
theorem concat_integerField_eq (hfloat : d.conversion.isFloat = false)
    (hprecision : 0 ≤ d.precision.value) (value : Int) :
    Piece.concat (d.integerField value).number = d.integerDigits value.natAbs := by
  rw [concat_integerField hfloat (leastDigits_eq hfloat hprecision value)]
  unfold integerDigits
  by_cases hadd : d.IsAlternateOctal ∧ (d.paddedNumeral value.natAbs).head? ≠ some 48
  · rw [if_pos hadd, if_pos hadd, if_neg (by simp)]
    rcases d.paddedNumeral_cases value.natAbs with
      ⟨hzero, -, hpadded⟩ | ⟨-, -, hpadded⟩ | ⟨-, -, hhead⟩
    · rw [hpadded, hzero, numeral_zero]
      rfl
    · simp [hpadded]
    · exact absurd hhead hadd.2
  · rw [if_neg hadd, if_neg hadd]
    unfold paddedNumeral
    simp only [Int.natAbs_eq_zero]
    split_ifs with hempty
    · simp [hempty.2]
    · rfl

/-- Only a zero can be without digits. -/
theorem integerDigits_eq_nil (d : Directive) (n : Nat) :
    d.integerDigits n = [] ↔ n = 0 ∧ d.leastPlaces? = some 0 ∧ ¬d.IsAlternateOctal := by
  have hpositive := d.length_numeral_pos n
  unfold integerDigits
  rcases d.paddedNumeral_cases n with
    ⟨hzero, hplaces, hpadded⟩ | ⟨hne, -, hpadded⟩ | ⟨hzero, -, hhead⟩
  · rw [hpadded]
    simp [hzero, hplaces]
  · have hnil := List.length_pos_iff_ne_nil.mp hpositive
    rw [hpadded]
    split_ifs <;> simp [hnil, hne]
  · rw [if_neg fun h => h.2 hhead]
    constructor
    · intro hnil
      rw [hnil] at hhead
      contradiction
    · rintro ⟨hn, hplaces, -⟩
      exact absurd hplaces (hzero hn)

theorem isDigitIn_integerDigits (d : Directive) (n : Nat) :
    ∀ byte ∈ d.integerDigits n, Numeral.isDigitIn d.integerRadix.base byte = true := by
  have hzero := Numeral.isDigitIn_zero d.integerRadix
  have hpadded : ∀ byte ∈ d.paddedNumeral n,
      Numeral.isDigitIn d.integerRadix.base byte = true := by
    intro byte hbyte
    unfold paddedNumeral at hbyte
    split_ifs at hbyte
    · contradiction
    · rcases List.mem_append.mp hbyte with hfront | hnumeral
      · rwa [List.eq_of_mem_replicate hfront]
      · exact Numeral.isDigitIn_text byte hnumeral
  intro byte hbyte
  unfold integerDigits at hbyte
  split_ifs at hbyte
  · rcases List.mem_cons.mp hbyte with rfl | hrest
    · exact hzero
    · exact hpadded byte hrest
  · exact hpadded byte hbyte

/-- Zeros in front of a numeral do not change what it stands for. -/
theorem valueIn_integerDigits (d : Directive) (n : Nat) :
    Numeral.valueIn d.integerRadix.base (d.integerDigits n) = n := by
  have hpadded : Numeral.valueIn d.integerRadix.base (d.paddedNumeral n) = n := by
    unfold paddedNumeral
    split_ifs with hempty
    · exact hempty.1.symm
    · rw [Numeral.valueIn_zeros]
      exact Numeral.valueIn_text n
  unfold integerDigits
  split_ifs
  · rw [Numeral.valueIn_zero_cons, hpadded]
  · exact hpadded

theorem lowBits_nonneg (hsigned : d.conversion ≠ .signed) (word : UInt64) : 0 ≤ d.lowBits word := by
  unfold lowBits
  rw [if_neg hsigned]
  exact Int.natCast_nonneg _

/-- A value that has digits reads back. -/
theorem readInteger?_eq (hsigned : d.conversion ≠ .signed → 0 ≤ value)
    (hdigits : d.integerDigits value.natAbs ≠ []) :
    Numeral.readInteger? d.integerRadix
      (d.integerOpening value ++ d.integerDigits value.natAbs) = some value := by
  have hall := d.isDigitIn_integerDigits value.natAbs
  have hvalue := d.valueIn_integerDigits value.natAbs
  unfold integerOpening
  by_cases hconversion : d.conversion = .signed
  · rw [if_pos hconversion, ← signText_eq, Numeral.readInteger?_signText hdigits hall, hvalue]
    simp only [decide_eq_true_eq, Option.some.injEq]
    split_ifs <;> omega
  · have hnonneg := Int.natAbs_of_nonneg (hsigned hconversion)
    rw [if_neg hconversion]
    split_ifs
    · rw [Numeral.readInteger?_markerOf hdigits hall, hvalue, hnonneg]
    · rw [List.nil_append, Numeral.readInteger?_digits hdigits hall, hvalue, hnonneg]

/-! ## What is written -/

/-- With the width 0 either renderer writes what is in the field of an integer. -/
theorem bytes_integer (hinteger : d.conversion.isFloat = false) (hwidth : d.width.value = 0)
    (hsettled : d.IsSettled) (value : Int) (r : Renderer) :
    (Segment.integer d value).bytes r =
      d.integerOpening value ++ Piece.concat (d.integerField value).number := by
  have hmakes : d.Makes (.integer d value) := .integer value hinteger
  rw [← d.content_integerField hinteger hsettled.alternate_of_pointer]
  change _ = (Segment.integer d value).content
  cases r with
  | full =>
    rw [Segment.bytes_full hmakes hsettled]
    exact fill_of_le (Segment.opening_isPrefix hmakes hsettled) (by omega)
  | reduced =>
    have hnone : (d.width.value - (Segment.integer d value).content.length).toNat = 0 := by omega
    rw [bytes_reduced hmakes, hinteger, rightAdjust, if_neg Bool.false_ne_true, hnone]
    rfl

/-- Where nothing is filled, a directive takes its argument and writes this value. -/
structure WritesInteger (d : Directive) (value : Int) (args left : List Arg) : Prop where
  unfilled : ∀ r, (d.withWidth 0).writes r args =
    (.ok (d.integerOpening value ++ d.integerDigits value.natAbs), left)
  digits_eq_nil : d.integerDigits value.natAbs = [] ↔
    value = 0 ∧ d.precision.effective = some 0 ∧ ¬d.IsAlternateOctal
  reads_back : d.integerDigits value.natAbs ≠ [] → Numeral.readInteger? d.integerRadix
    (d.integerOpening value ++ d.integerDigits value.natAbs) = some value

/-- A directive that keeps to its rules writes the number of the low bits of its argument. -/
theorem Valid.writesInteger {last : UInt8} (hvalid : d.Valid last)
    (hinteger : d.conversion.isInteger = true) (hsized : ¬d.IsMissized) {arg : Arg}
    (hword : arg.word? = some word) (left : List Arg) :
    d.WritesInteger (d.lowBits word) (arg :: left) left := by
  have hprecision := hvalid.modifiers.precision.nonneg
  have hfloat : d.conversion.isFloat = false := by
    cases hconversion : d.conversion with
    | float style => simp [hconversion, Conversion.isInteger] at hinteger
    | _ => rfl
  constructor
  · intro r
    have hresolve : (d.withWidth 0).resolve (arg :: left) =
        (.ok (.integer (d.withWidth 0) (d.lowBits word)), left) :=
      resolve_of_not_isMissized (d := d.withWidth 0) hinteger hsized hword left
    rw [writes_of_resolve hresolve,
      bytes_integer (d := d.withWidth 0) hfloat rfl (hvalid.isSettled.withWidth 0),
      concat_integerField_eq (d := d.withWidth 0) hfloat hprecision]
    rfl
  · rw [integerDigits_eq_nil, Int.natAbs_eq_zero, effective_eq hprecision, map_natCast_eq_zero]
  · exact readInteger?_eq fun hsigned => lowBits_nonneg hsigned word

end Directive

/-! ## The directive in its text -/

variable {text : Bytes} {start stop : Nat} {args left : List Arg} {d : Directive}

/-- From its `%` on a text is read as the directive, and then behind it. -/
theorem Reading.ofTextAt_of_read (hread : Directive.read text start args = (.ok (d, stop), left)) :
    ofTextAt start (37 :: text.drop (start + 1)) args =
      match d.resolve left with
      | (.ok segment, rest) => (ofTextAt stop (text.drop stop) rest).after segment
      | (.error fault, rest) => ⟨[], rest, some (fault.error start)⟩ := by
  obtain ⟨t, after, hdrop, rfl, hdirective⟩ := DirectiveText.exists_of_read hread
  have hafter : text.drop (start + 1 + t.bytes.length) = after := by
    rw [← List.drop_drop, hdrop, List.drop_left]
  have hstop : start + (t.bytes.length + 1) = start + 1 + t.bytes.length := by omega
  rw [hdrop, ofTextAt_bytes, DirectiveText.segment, hdirective, hafter, hstop]
  rfl

/-- An integer directive is rejected exactly if it asks for a size that there is not. Any other one
writes the number that the low bits of its argument stand for. -/
theorem directive_integer {arg : Arg} {word : UInt64}
    (hread : Directive.read text start args = (.ok (d, stop), arg :: left))
    (hinteger : d.conversion.isInteger = true) (hword : arg.word? = some word) :
    (d.IsMissized ↔ ∃ fault : Fault, fault.kind = .invalidArgument ∧
      Reading.ofTextAt start (37 :: text.drop (start + 1)) args =
        ⟨[], arg :: left, some (fault.error start)⟩) ∧
    (¬d.IsMissized →
      Reading.ofTextAt start (37 :: text.drop (start + 1)) args =
        (Reading.ofTextAt stop (text.drop stop) left).after (.integer d (d.lowBits word)) ∧
      d.WritesInteger (d.lowBits word) (arg :: left) left) := by
  have hreading := Reading.ofTextAt_of_read hread
  have hsized : ¬d.IsMissized → Reading.ofTextAt start (37 :: text.drop (start + 1)) args =
      (Reading.ofTextAt stop (text.drop stop) left).after (.integer d (d.lowBits word)) := by
    intro hsized
    rw [hreading, Directive.resolve_of_not_isMissized hinteger hsized hword]
  refine ⟨⟨?_, ?_⟩, ?_⟩
  · intro hmissized
    obtain ⟨fault, hkind, hresolve⟩ :=
      Directive.resolve_of_isMissized hinteger hmissized (arg :: left)
    refine ⟨fault, hkind, ?_⟩
    rw [hreading, hresolve]
  · rintro ⟨fault, -, hfailed⟩
    by_contra h
    -- A reading that fails here has no segment.
    have hsegments := congrArg Reading.segments ((hsized h).symm.trans hfailed)
    contradiction
  · intro h
    obtain ⟨t, after, -, -, hdirective⟩ := DirectiveText.exists_of_read hread
    have hvalid := DirectiveText.valid_of_directive hdirective
    exact ⟨hsized h, hvalid.writesInteger hinteger h hword left⟩

/-- Of the argument 65408 eight bits count, which are the least number that they can be. -/
theorem directive_integer_least :
    ∃ d : Directive,
      Directive.read (latin ['%', ' ', '.', '4', 'h', 'h', 'd']) 0 [.uint 65408] =
        (.ok (d, 7), [.uint 65408]) ∧
      d.conversion.isInteger = true ∧ Arg.word? (.uint 65408) = some 65408 ∧
      d.lowBits 65408 = -128 ∧
      (∀ r, (d.withWidth 0).writes r [.uint 65408] = (.ok (latin ['-', '0', '1', '2', '8']), [])) ∧
      Numeral.readInteger? .decimal (latin ['-', '0', '1', '2', '8']) = some (-128) := by
  let d : Directive :=
    { flags := { spaceSign := true }
      precision := { given := true, value := 4 }
      length := .halfHalf
      conversion := .signed }
  have hread : Directive.read (latin ['%', ' ', '.', '4', 'h', 'h', 'd']) 0 [.uint 65408] =
      (.ok (d, 7), [.uint 65408]) := by
    decide +kernel
  have hsized : ¬d.IsMissized := by
    rintro ⟨-, bits, hbits, -⟩
    contradiction
  have hvalue : d.lowBits 65408 = -128 := by decide
  have htext : d.integerOpening (-128) ++ d.integerDigits (-128 : Int).natAbs =
      latin ['-', '0', '1', '2', '8'] := by
    decide +kernel
  have hwrites := ((directive_integer hread rfl rfl).2 hsized).2
  rw [hvalue] at hwrites
  have hunfilled := hwrites.unfilled
  have hback := hwrites.reads_back (by decide +kernel)
  rw [htext] at hunfilled hback
  exact ⟨d, hread, rfl, rfl, hvalue, hunfilled, hback⟩

end FormattedOutput
