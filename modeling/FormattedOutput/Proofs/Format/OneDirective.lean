import FormattedOutput.Proofs.Directive.Language
import FormattedOutput.Proofs.Field.Filling
import FormattedOutput.Proofs.Format.Splitting

/-!
# A text that is one directive

A format text that is a single directive writes the segment of that directive and nothing else. For
a floating-point number without flags and without a width that is a sign and the text of its parts.
-/

namespace FormattedOutput

/-! ## The field of a value -/

/-- Where nothing is filled, the field of a finite value is its sign and the text of its parts. -/
theorem Directive.concat_floatField (d : Directive) {x : Binary64} (hx : x.exponent ≠ 2047)
    (hfloat : d.conversion.isFloat = true) (hwidth : d.width.value ≤ 0)
    (hpad : d.flags.leftAdjust = true → d.flags.zeroPad = false) :
    Piece.concat (((d.forValue x).floatField x).layout (d.forValue x)) =
      d.signText x.negative ++ (d.floatParts x).text := by
  rw [d.concat_layout_number hx hfloat hpad,
    fill_of_le (d.floatOpening_isPrefix x hfloat) (by omega), content_floatField, if_neg hx]

/-! ## The text of a directive -/

/-- The letter that asks for a layout. -/
def FloatStyle.letter : FloatStyle → UInt8
  | .fixed => 102
  | .exponent => 101
  | .general => 103
  | .hex => 97

/-- A directive for a floating-point number. It has no flags and no width. -/
structure FloatDirective where
  style : FloatStyle
  precision : Option Nat
  fits : ∀ places ∈ precision, places ≤ 2147483647

namespace FloatDirective

/-- The directive as a format text. -/
def text (e : FloatDirective) : Bytes :=
  37 :: (e.precision.elim [] fun places => 46 :: (Digits.decimal places).reverse) ++
    [e.style.letter]

/-- The directive as it is read. -/
def directive (e : FloatDirective) : Directive where
  precision := { given := e.precision.isSome, value := e.precision.getD 0 }
  conversion := .float e.style

end FloatDirective

namespace Mark

/-- The marks of the last decimal digits of a number. -/
def digits : Nat → Nat → List Mark
  | 0, _ => []
  | count + 1, n => digits count (n / 10) ++ [.digit ⟨n % 10, Nat.mod_lt _ (by decide)⟩]

theorem spell_digits (count n : Nat) :
    spell (digits count n) = (Digits.low 10 false count n).reverse := by
  induction count generalizing n with
  | zero => rfl
  | succ count ih =>
    have hdigit : Digits.ofDigit false (n % 10) = UInt8.ofNat (48 + n % 10) := by
      rw [Digits.ofDigit, if_pos (Nat.mod_lt n (by decide))]
    rw [digits, spell_append, ih, Digits.low, List.reverse_cons, hdigit]
    rfl

theorem exists_of_mem_digits {count n : Nat} {mark : Mark} (h : mark ∈ digits count n) :
    ∃ d, mark = .digit d := by
  induction count generalizing n with
  | zero => contradiction
  | succ count ih =>
    rw [digits, List.mem_append, List.mem_singleton] at h
    rcases h with hfront | rfl
    · exact ih hfront
    · exact ⟨_, rfl⟩

theorem of_mem_point_digits {count n : Nat} {mark : Mark} (h : mark ∈ .point :: digits count n) :
    mark = .point ∨ ∃ d, mark = .digit d := by
  rcases List.mem_cons.mp h with hpoint | hdigit
  · exact Or.inl hpoint
  · exact Or.inr (exists_of_mem_digits hdigit)

theorem numberOf_digits (count n : Nat) :
    numberOf ((digits count n).filterMap value?) = n % 10 ^ count := by
  induction count generalizing n with
  | zero =>
    rw [pow_zero, Nat.mod_one]
    rfl
  | succ count ih =>
    rw [digits, filterMap_value?_concat]
    change numberOf (_ ++ [n % 10]) = _
    rw [numberOf_append, ih, pow_succ', Nat.mod_mul]
    ring

theorem isNarrow_digits (count n : Nat) : isNarrow (.point :: digits count n) = true := by
  unfold isNarrow
  rw [List.all_eq_true]
  intro mark hmark
  rcases of_mem_point_digits hmark with rfl | ⟨d, rfl⟩ <;> rfl

/-- A point and digits are a precision and nothing else. -/
theorem parts_digits (count n : Nat) :
    leadingDigits (.point :: digits count n) = [] ∧
      numberOf (precisionDigits (.point :: digits count n)) = n % 10 ^ count ∧
      bitDigits (.point :: digits count n) = [] ∧
      length? (.point :: digits count n) = some .plain := by
  have hnarrow := isNarrow_digits count n
  have hfront := front_of_narrow hnarrow
  have hletters : (Mark.point :: digits count n).filter isLength = [] := by
    rw [List.filter_eq_nil_iff]
    intro mark hmark
    rcases of_mem_point_digits hmark with rfl | ⟨d, rfl⟩ <;> simp [isLength]
  refine ⟨?_, ?_, bitDigits_of_narrow hnarrow, ?_⟩
  · unfold leadingDigits
    rw [hfront]
    rfl
  · unfold precisionDigits
    rw [hfront]
    exact numberOf_digits count n
  · unfold length?
    rw [hletters]
    rfl

theorem admissible_digits {count n : Nat} (h : n % 10 ^ count ≤ 2147483647) :
    Admissible (.point :: digits count n) := by
  obtain ⟨hlead, hprecision, hbits, hlength⟩ := parts_digits count n
  have hwidth : widthDigits (.point :: digits count n) = [] := by
    unfold widthDigits hasZeroFlag
    rw [hlead]
    rfl
  constructor
  · have hnone : (digits count n).count .point = 0 := by
      apply List.count_eq_zero_of_not_mem
      intro hmem
      obtain ⟨d, hd⟩ := exists_of_mem_digits hmem
      contradiction
    rw [List.count_cons_self, hnone]
  · rw [hlength]
    rfl
  · rw [hwidth]
    simp
  · rw [hwidth]
    decide
  · rw [hprecision]
    exact h
  · rw [hbits]
    decide

theorem describe_digits (count n : Nat) (style : FloatStyle) :
    describe (.point :: digits count n) (.float style) false =
      { precision := { given := true, value := (n % 10 ^ count : Nat) }
        conversion := .float style } := by
  obtain ⟨hlead, hprecision, hbits, hlength⟩ := parts_digits count n
  have hflag : ∀ f, .flag f ∉ .point :: digits count n := by
    intro f hmem
    rcases of_mem_point_digits hmem with hpoint | ⟨d, hd⟩ <;> contradiction
  have hzero : hasZeroFlag (.point :: digits count n) = false := by
    unfold hasZeroFlag
    rw [hlead]
    rfl
  have hwidth : widthDigits (.point :: digits count n) = [] := by
    unfold widthDigits
    rw [hzero, hlead]
    rfl
  unfold describe
  rw [hzero, hwidth, hprecision, hlength]
  simp only [hflag]
  simp [numberOf]

end Mark

namespace FloatDirective

open Mark

theorem letter_mem_letters (style : FloatStyle) :
    (style.letter, .float style, false) ∈ Conversion.letters := by
  cases style <;> decide

/-- The text of the directive is read as the directive. -/
theorem starts_text (e : FloatDirective) : Starts e.text.tail e.directive [] := by
  obtain ⟨style, precision, hfits⟩ := e
  cases precision with
  | none =>
    exact ⟨[], style.letter, .float style, false, rfl, letter_mem_letters style, by simp, by simp,
      admissible_nil, by simp [Conversion.texts], rfl⟩
  | some places =>
    have hmod : places % 10 ^ Decimal.digitCount places = places :=
      Nat.mod_eq_of_lt (Decimal.lt_pow_digitCount places)
    have hadm := @admissible_digits (Decimal.digitCount places) places (by
      rw [hmod]
      exact hfits places rfl)
    have hdescribe := describe_digits (Decimal.digitCount places) places style
    rw [hmod] at hdescribe
    refine ⟨_, style.letter, .float style, false, ?_, letter_mem_letters style, ?_, ?_, hadm,
      by simp [Conversion.texts], hdescribe.symm⟩
    · rw [spell_cons, spell_digits, ← Digits.decimal_eq]
      rfl
    · intro hlast
      rcases of_mem_point_digits (List.mem_of_getLast? hlast) with hpoint | ⟨d, hd⟩ <;>
        contradiction
    · intro hmem
      rcases of_mem_point_digits hmem with hpoint | ⟨d, hd⟩ <;> contradiction

end FloatDirective

/-! ## Formatting one directive -/

theorem Mark.Starts.ne {text : Bytes} {d : Directive} (h : Starts text d []) {byte : UInt8}
    (hbyte : byte ∈ text) : byte ≠ 0 ∧ byte ≠ 37 := by
  obtain ⟨marks, last, conversion, uppercase, rfl, hlast, -⟩ := h
  rcases List.mem_append.mp hbyte with hmarks | hend
  · exact Mark.spell_ne hmarks
  · obtain rfl := List.mem_singleton.mp hend
    have hletter := Conversion.isLetter_of_mem_letters hlast
    constructor
    · rintro rfl
      contradiction
    · rintro rfl
      contradiction

/-- A text that is one directive comes to the segment of its directive. -/
theorem Reading.ofText_directive {text : Bytes} {d : Directive} (h : Mark.Starts text d [])
    {args rest : List Arg} {segment : Segment} (hresolve : d.resolve args = (.ok segment, rest)) :
    ofText (37 :: text) args = ⟨[segment], rest, none⟩ := by
  have hwhole : (37 :: text).takeWhile (· != 0) = 37 :: text := by
    rw [List.takeWhile_cons_of_pos (by decide), List.cons.injEq]
    refine ⟨rfl, List.takeWhile_eq_self_iff.mpr ?_⟩
    intro byte hbyte
    simpa using (h.ne hbyte).1
  have hhead : text.head? ≠ some 37 := by
    intro hhead
    exact (h.ne (List.mem_of_head? hhead)).2 rfl
  have hparse := ((Mark.parse_eq_ok_iff_starts text [] args args d).mpr ⟨h, rfl⟩).1
  unfold ofText
  rw [hwhole, ofTextAt_directive 0 args hhead, hparse]
  simp only
  rw [hresolve]
  simp only
  rw [ofTextAt.eq_def]
  rfl

theorem FloatDirective.resolve_directive (e : FloatDirective) (bits : UInt64) (args : List Arg) :
    e.directive.resolve (.double bits :: args) = (.ok (.double e.directive bits), args) := rfl

/-- A finite value is formatted as its sign and the text of its parts. -/
theorem FloatDirective.format_text (e : FloatDirective) {bits : UInt64}
    (hfinite : (Binary64.ofBits bits).exponent ≠ 2047) :
    (format .full e.text [.double bits]).failure = none ∧
      (format .full e.text [.double bits]).args = [] ∧
      (format .full e.text [.double bits]).bytes =
        e.directive.signText (Binary64.ofBits bits).negative ++
          (e.directive.floatParts (Binary64.ofBits bits)).text := by
  have hread : Reading.ofText e.text [.double bits] = ⟨[.double e.directive bits], [], none⟩ :=
    Reading.ofText_directive e.starts_text (e.resolve_directive bits [])
  unfold format Formatted.bytes
  simp only
  rw [hread]
  refine ⟨rfl, rfl, ?_⟩
  simp only [Reading.pieces, Segment.pieces, Renderer.double, List.flatMap_cons, List.flatMap_nil,
    List.append_nil]
  exact e.directive.concat_floatField hfinite rfl (le_refl 0) (fun _ => rfl)

end FormattedOutput
