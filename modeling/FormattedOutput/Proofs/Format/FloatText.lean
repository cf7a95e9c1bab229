import FormattedOutput.Proofs.Format.OneDirective
import FormattedOutput.Proofs.Number.DecimalText
import FormattedOutput.Proofs.Number.HexText

/-!
# What a floating-point directive writes

Where nothing is filled, a directive writes a finite value as a sign and the text that its layout
asks for. The decimal layouts are given the shortest decimal of the value. The hexadecimal one is
given the value itself.
-/

namespace FormattedOutput

/-! ## The precision -/

namespace Directive

variable {d : Directive} {text : Bytes} {start stop : Nat} {args args' : List Arg}

/-- Digits and arguments do not make the precision negative. -/
theorem precision_nonneg_of_read
    (hread : Directive.read text start args = (.ok (d, stop), args')) :
    0 ≤ d.precision.value := by
  obtain ⟨t, after, -, -, hdirective⟩ := DirectiveText.exists_of_read hread
  exact (DirectiveText.valid_of_directive hdirective).modifiers.precision.nonneg

/-- The precision of a floating-point number, if the directive has one. It is 4096 at most. -/
def places? (d : Directive) : Option Nat :=
  d.precision.effective.map fun precision => min precision.toNat 4096

/-- The precision of a floating-point number. It is 6 if the directive has none. -/
def places (d : Directive) : Nat := d.places?.getD 6

theorem floatPrecision?_eq (h : 0 ≤ d.precision.value) :
    d.floatPrecision? = d.places?.map Nat.cast := by
  unfold floatPrecision? places? Extent.effective floatPrecisionLimit
  split_ifs
  · simp only [Option.map_some, Option.some.injEq]
    omega
  · rfl

theorem floatPrecision_eq (h : 0 ≤ d.precision.value) :
    d.floatPrecision?.getD usualFloatPrecision = d.places := by
  unfold places
  rw [floatPrecision?_eq h]
  cases d.places? <;> rfl

end Directive

/-! ## The value -/

/-- A decimal is the shortest one of a value, or zero for a zero. -/
def Binary64.HasDecimal (x : Binary64) (decimal : Decimal) : Prop :=
  if x.position = 0 then decimal = .zero else decimal.IsShortest x.position

theorem Binary64.IsFinite.hasDecimal {x : Binary64} (hx : x.IsFinite) :
    x.HasDecimal x.decimal := by
  unfold HasDecimal
  by_cases hzero : x.position = 0
  · rw [if_pos hzero]
    exact decimal_eq_zero hx hzero
  · have hpos := mt position_eq_zero_iff.mpr hzero
    obtain ⟨hcoarsest, hsmall⟩ :=
      Decimal.isCoarsest_shortest hx.fraction_lt hx.exponent_le (by omega)
    have hdecimal : x.decimal = Decimal.shortest x.fraction x.exponent := by
      unfold decimal
      rw [hx.shortest?_eq hpos, Option.getD_some]
    rw [if_neg hzero, hdecimal]
    exact hcoarsest.isShortest hx.position_lt hsmall

theorem Binary64.HasDecimal.unique {x : Binary64} {c d : Decimal} (h : x.HasDecimal c)
    (h' : x.HasDecimal d) : c = d := by
  unfold HasDecimal at h h'
  by_cases hzero : x.position = 0
  · rw [if_pos hzero] at h h'
    rw [h, h']
  · rw [if_neg hzero] at h h'
    exact h.unique h'

/-- A finite value has one such decimal. -/
theorem Binary64.IsFinite.hasDecimal_iff {x : Binary64} (hx : x.IsFinite) (other : Decimal) :
    x.HasDecimal other ↔ other = x.decimal := by
  constructor
  · intro h
    exact h.unique hx.hasDecimal
  · rintro rfl
    exact hx.hasDecimal

/-! ## The sign and the number -/

/-- Where nothing is filled, a directive writes this text for a value. A directive for a
`long double` converts nothing. -/
structure Directive.WritesPlain (d : Directive) (bits : UInt64) (plain : Bytes) : Prop where
  segment : (Segment.double (d.withWidth 0) bits).bytes .full = plain
  argument : ∀ left, (d.withWidth 0).writes .full (.double bits :: left) =
    (.ok (if d.length = .longDouble then latin ['(', 'n', '/', 'a', ')'] else plain), left)

/-- Where nothing is filled, a directive writes the sign of a value and the one number of a kind. -/
def Directive.WritesNumber (d : Directive) (bits : UInt64) (IsNumber : Bytes → Prop) : Prop :=
  ∃ number, (∀ other, IsNumber other ↔ other = number) ∧
    d.WritesPlain bits (d.flags.sign (Binary64.ofBits bits).negative ++ number)

variable {text : Bytes} {start stop : Nat} {args args' : List Arg} {d : Directive} {bits : UInt64}

namespace Directive

theorem writes_double (hfloat : d.conversion.isFloat = true) (hlength : d.length ≠ .longDouble)
    (r : Renderer) (left : List Arg) :
    d.writes r (.double bits :: left) = (.ok ((Segment.double d bits).bytes r), left) := by
  unfold writes resolve
  cases hconversion : d.conversion with
  | float style =>
    simp [resolveFloat, hlength, Arg.takeDouble, Arg.take, Arg.double?, Taken.map]
  | _ => simp [hconversion, Conversion.isFloat] at hfloat

/-- A `double` that stands for a `long double` is passed over. -/
theorem writes_longDouble (hfloat : d.conversion.isFloat = true) (hlength : d.length = .longDouble)
    (hwidth : d.width.value = 0) (hsettled : d.IsSettled) (left : List Arg) :
    d.writes .full (.double bits :: left) = (.ok (latin ['(', 'n', '/', 'a', ')']), left) := by
  have hmakes : d.Makes (.unavailable d) := .unavailable hfloat
  have hbytes := Segment.bytes_full hmakes hsettled
  rw [fill_of_le (Segment.opening_isPrefix hmakes hsettled) (by omega)] at hbytes
  unfold writes resolve
  cases hconversion : d.conversion with
  | float style =>
    simp only [resolveFloat, hlength, if_true]
    exact congrArg (fun bytes => (Except.ok bytes, left)) hbytes
  | _ => simp [hconversion, Conversion.isFloat] at hfloat

/-- A directive that is accepted writes a finite value as its sign and the text of its parts. -/
theorem writesNumber_floatParts
    (hread : Directive.read text start args = (.ok (d, stop), args'))
    (hfloat : d.conversion.isFloat = true) (hfinite : (Binary64.ofBits bits).exponent ≠ 2047)
    {IsNumber : Bytes → Prop} (hunique : ∀ {text text'}, IsNumber text → IsNumber text' →
      text = text') (hnumber : IsNumber (d.floatParts (.ofBits bits)).text) :
    d.WritesNumber bits IsNumber := by
  have hsettled := isSettled_of_read hread
  have hsegment : (Segment.double (d.withWidth 0) bits).bytes .full =
      d.flags.sign (Binary64.ofBits bits).negative ++ (d.floatParts (.ofBits bits)).text := by
    rw [← signText_eq]
    exact (d.withWidth 0).concat_floatField hfinite hfloat (le_refl 0)
      hsettled.zeroPad_of_leftAdjust
  refine ⟨_, fun other => ⟨fun h => hunique h hnumber, ?_⟩, hsegment, ?_⟩
  · rintro rfl
    exact hnumber
  intro left
  by_cases hlength : d.length = .longDouble
  · rw [if_pos hlength]
    exact (d.withWidth 0).writes_longDouble hfloat hlength rfl (hsettled.withWidth 0) left
  · rw [if_neg hlength, ← hsegment]
    exact (d.withWidth 0).writes_double hfloat hlength .full left

end Directive

/-! ## The four layouts -/

/-- A directive with a fixed radix point writes the shortest decimal of a finite value, rounded to
the last of its places. -/
theorem directive_fixed (hread : Directive.read text start args = (.ok (d, stop), args'))
    (hstyle : d.conversion = .float .fixed) (hfinite : (Binary64.ofBits bits).exponent ≠ 2047) :
    ∃ decimal, (∀ other, (Binary64.ofBits bits).HasDecimal other ↔ other = decimal) ∧
      d.WritesNumber bits (FixedText decimal.toRat d.places d.flags.alternate false) := by
  have hprecision := Directive.floatPrecision_eq (Directive.precision_nonneg_of_read hread)
  refine ⟨_, (Binary64.isFinite_ofBits hfinite).hasDecimal_iff, ?_⟩
  apply Directive.writesNumber_floatParts hread (by rw [hstyle]; rfl) hfinite FixedText.unique
  unfold Directive.floatParts Directive.floatStyle
  simp only [hstyle, hprecision]
  exact FloatParts.fixedText_fixed _ _ _

/-- An eighth lies in the middle between two points of the grid. -/
theorem directive_fixed_eighth :
    ∃ d : Directive, Directive.read (latin ['%', '.', '2', 'f']) 0 [] = (.ok (d, 4), []) ∧
      d.conversion = .float .fixed ∧ (Binary64.ofBits 0x3FC0000000000000).exponent ≠ 2047 ∧
      ∃ decimal, (∀ other, (Binary64.ofBits 0x3FC0000000000000).HasDecimal other ↔
          other = decimal) ∧
        d.WritesNumber 0x3FC0000000000000 (FixedText decimal.toRat 2 false false) := by
  let d : Directive :=
    { precision := { given := true, value := 2 }
      conversion := .float .fixed }
  have hread : Directive.read (latin ['%', '.', '2', 'f']) 0 [] = (.ok (d, 4), []) := rfl
  have hfinite : (Binary64.ofBits 0x3FC0000000000000).exponent ≠ 2047 := by decide
  exact ⟨d, hread, rfl, hfinite, directive_fixed hread rfl hfinite⟩

/-- A directive with an exponent writes the shortest decimal of a finite value, rounded to one digit
more than it has places. -/
theorem directive_scientific (hread : Directive.read text start args = (.ok (d, stop), args'))
    (hstyle : d.conversion = .float .exponent) (hfinite : (Binary64.ofBits bits).exponent ≠ 2047) :
    ∃ decimal, (∀ other, (Binary64.ofBits bits).HasDecimal other ↔ other = decimal) ∧
      d.WritesNumber bits
        (ScientificText decimal.toRat d.places d.flags.alternate d.uppercase false) := by
  have hprecision := Directive.floatPrecision_eq (Directive.precision_nonneg_of_read hread)
  refine ⟨_, (Binary64.isFinite_ofBits hfinite).hasDecimal_iff, ?_⟩
  apply Directive.writesNumber_floatParts hread (by rw [hstyle]; rfl) hfinite ScientificText.unique
  unfold Directive.floatParts Directive.floatStyle
  simp only [hstyle, hprecision]
  exact FloatParts.scientificText_scientific _ _ _ _

/-- Rounding 9.999 to three digits gives 10. -/
theorem directive_scientific_carry :
    ∃ d : Directive, Directive.read (latin ['%', '.', '2', 'e']) 0 [] = (.ok (d, 4), []) ∧
      d.conversion = .float .exponent ∧ (Binary64.ofBits 0x4023FF7CED916873).exponent ≠ 2047 ∧
      ∃ decimal, (∀ other, (Binary64.ofBits 0x4023FF7CED916873).HasDecimal other ↔
          other = decimal) ∧
        d.WritesNumber 0x4023FF7CED916873 (ScientificText decimal.toRat 2 false false false) := by
  let d : Directive :=
    { precision := { given := true, value := 2 }
      conversion := .float .exponent }
  have hread : Directive.read (latin ['%', '.', '2', 'e']) 0 [] = (.ok (d, 4), []) := rfl
  have hfinite : (Binary64.ofBits 0x4023FF7CED916873).exponent ≠ 2047 := by decide
  exact ⟨d, hread, rfl, hfinite, directive_scientific hread rfl hfinite⟩

/-- A general directive writes the shortest decimal of a finite value with one of these two texts.
The precision counts its digits, and no precision is less than one digit. -/
theorem directive_general (hread : Directive.read text start args = (.ok (d, stop), args'))
    (hstyle : d.conversion = .float .general) (hfinite : (Binary64.ofBits bits).exponent ≠ 2047) :
    ∃ decimal, (∀ other, (Binary64.ofBits bits).HasDecimal other ↔ other = decimal) ∧
      d.WritesNumber bits
        (GeneralText decimal.toRat (max 1 d.places) d.flags.alternate d.uppercase) := by
  have hprecision := Directive.floatPrecision_eq (Directive.precision_nonneg_of_read hread)
  have hx := Binary64.isFinite_ofBits hfinite
  refine ⟨_, hx.hasDecimal_iff, ?_⟩
  apply Directive.writesNumber_floatParts hread (by rw [hstyle]; rfl) hfinite GeneralText.unique
  unfold Directive.floatParts Directive.floatStyle
  simp only [hstyle, hprecision]
  exact FloatParts.generalText_general (Binary64.writes hx).exponent_zero _ (le_max_left _ _)
    (by omega) _ _

/-- Rounding 999999.5 to six digits gives one more digit than these. -/
theorem directive_general_carry :
    ∃ d : Directive, Directive.read (latin ['%', 'G']) 0 [] = (.ok (d, 2), []) ∧
      d.conversion = .float .general ∧ (Binary64.ofBits 0x412E847F00000000).exponent ≠ 2047 ∧
      ∃ decimal, (∀ other, (Binary64.ofBits 0x412E847F00000000).HasDecimal other ↔
          other = decimal) ∧
        d.WritesNumber 0x412E847F00000000 (GeneralText decimal.toRat 6 false true) := by
  let d : Directive :=
    { conversion := .float .general
      uppercase := true }
  have hread : Directive.read (latin ['%', 'G']) 0 [] = (.ok (d, 2), []) := rfl
  have hfinite : (Binary64.ofBits 0x412E847F00000000).exponent ≠ 2047 := by decide
  exact ⟨d, hread, rfl, hfinite, directive_general hread rfl hfinite⟩

/-- A hexadecimal directive writes the magnitude of a finite value, rounded only if the directive
asks for fewer places than a significand has. -/
theorem directive_hex (hread : Directive.read text start args = (.ok (d, stop), args'))
    (hstyle : d.conversion = .float .hex) (hfinite : (Binary64.ofBits bits).exponent ≠ 2047) :
    d.WritesNumber bits
      (HexText (Binary64.magnitudeAt (Binary64.ofBits bits).position) d.places? d.flags.alternate
        d.uppercase) := by
  have hprecision := Directive.floatPrecision?_eq (Directive.precision_nonneg_of_read hread)
  apply Directive.writesNumber_floatParts hread (by rw [hstyle]; rfl) hfinite HexText.unique
  unfold Directive.floatParts Directive.floatStyle
  simp only [hstyle, hprecision]
  exact FloatParts.hexText_hex (Binary64.isFinite_ofBits hfinite) _ _ _

/-- Without a place 1.5 is rounded to 2, the next power of two. -/
theorem directive_hex_carry :
    ∃ d : Directive, Directive.read (latin ['%', '.', '0', 'a']) 0 [] = (.ok (d, 4), []) ∧
      d.conversion = .float .hex ∧ (Binary64.ofBits 0x3FF8000000000000).exponent ≠ 2047 ∧
      d.WritesNumber 0x3FF8000000000000
        (HexText (Binary64.magnitudeAt (Binary64.ofBits 0x3FF8000000000000).position) (some 0)
          false false) := by
  let d : Directive :=
    { precision := { given := true }
      conversion := .float .hex }
  have hread : Directive.read (latin ['%', '.', '0', 'a']) 0 [] = (.ok (d, 4), []) := rfl
  have hfinite : (Binary64.ofBits 0x3FF8000000000000).exponent ≠ 2047 := by decide
  exact ⟨d, hread, rfl, hfinite, directive_hex hread rfl hfinite⟩

end FormattedOutput
