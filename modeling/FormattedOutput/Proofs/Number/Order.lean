import FormattedOutput.Proofs.Number.ReadBack

/-!
# Layouts that keep the order

Every decimal layout writes the shortest decimal of a value, rounded. A larger value has a larger
shortest decimal, and rounding does not turn two numbers around.
-/

namespace FormattedOutput

/-! ## Rounded decimals -/

/-- The decimal that a layout writes. The hexadecimal layout does not write the decimal that it is
given. -/
def FloatStyle.rounded (style : FloatStyle) (d : Decimal) (precision : Int) : Decimal :=
  match style with
  | .fixed => FloatParts.roundPlaces d precision
  | .exponent => d.keepDigits (precision + 1)
  | .general => d.keepDigits (max precision 1)
  | .hex => d

namespace FloatParts

variable {d : Decimal} {precision : Int}

/-- All numbers are rounded to one grid, that of the last place. -/
theorem roundPlaces_roundsToGrid (d : Decimal) (precision : Int) :
    Decimal.RoundsToGrid (-precision) d.toRat (roundPlaces d precision).toRat := by
  have hgrid := d.keepDigits_roundsToGrid (d.digits + d.exponent + precision)
  have hplace : d.exponent + d.digits - (d.digits + d.exponent + precision) = -precision := by
    omega
  rw [hplace] at hgrid
  unfold roundPlaces
  simp only
  split_ifs with hzero
  · rw [Decimal.toRat_eq_zero hzero] at hgrid
    rwa [Decimal.toRat_zero]
  · exact hgrid

end FloatParts

namespace FloatStyle

variable {style : FloatStyle} {c d : Decimal} {precision : Int}

theorem toRat_rounded_mono (hprecision : 0 ≤ precision) (h : c.toRat ≤ d.toRat) :
    (style.rounded c precision).toRat ≤ (style.rounded d precision).toRat := by
  cases style with
  | fixed =>
    exact (FloatParts.roundPlaces_roundsToGrid c precision).mono
      (FloatParts.roundPlaces_roundsToGrid d precision) h
  | exponent => exact Decimal.toRat_keepDigits_mono (by omega) h
  | general => exact Decimal.toRat_keepDigits_mono (le_max_right _ _) h
  | hex => exact h

theorem toRat_rounded_zero (hprecision : 0 ≤ precision) :
    (style.rounded .zero precision).toRat = 0 := by
  have hdigits : Decimal.zero.digits = 1 := Decimal.digitCount_of_lt (by decide)
  have hkeep : ∀ keep : Int, 1 ≤ keep → (Decimal.zero.keepDigits keep).toRat = 0 := by
    intro keep hkeep
    rw [Decimal.keepDigits_of_le (by omega), Decimal.toRat_zero]
  cases style with
  | fixed =>
    simp only [rounded]
    rw [FloatParts.toRat_roundPlaces, Decimal.toRat_zero]
    exact (zero_add precision).symm ▸ hprecision
  | exponent => exact hkeep _ (by omega)
  | general => exact hkeep _ (le_max_right _ _)
  | hex => exact Decimal.toRat_zero

end FloatStyle

/-! ## Values -/

namespace Binary64

variable {x y : Binary64}

/-- The decimal that a value is written from: the shortest one, or zero. -/
def decimal (x : Binary64) : Decimal := x.shortest?.getD .zero

theorem shortest?_eq_decimal (hx : x.IsFinite) (h : 0 < x.position) :
    x.shortest? = some x.decimal := by
  have hsome := hx.shortest?_eq (mt position_eq_zero_iff.mpr (by omega))
  unfold decimal
  rw [hsome, Option.getD_some]

/-- The decimals of larger magnitudes are larger. -/
theorem toRat_decimal_lt (hx : x.IsFinite) (hy : y.IsFinite) (h : x.position < y.position) :
    x.decimal.toRat < y.decimal.toRat :=
  (writes hx).between.lt (writes hy).between h hy.position_lt

theorem decimal_eq_of_position_eq (hx : x.IsFinite) (hy : y.IsFinite)
    (h : x.position = y.position) : x.decimal = y.decimal := by
  have hfx := hx.fraction_lt
  have hfy := hy.fraction_lt
  obtain ⟨_, exponent, fraction⟩ := x
  obtain ⟨_, exponent', fraction'⟩ := y
  simp only [position, place] at h hfx hfy
  obtain rfl : exponent = exponent' := by omega
  obtain rfl : fraction = fraction' := by omega
  rfl

theorem toRat_decimal_mono (hx : x.IsFinite) (hy : y.IsFinite) (h : x.position ≤ y.position) :
    x.decimal.toRat ≤ y.decimal.toRat := by
  rcases Nat.lt_or_eq_of_le h with hlt | heq
  · exact (toRat_decimal_lt hx hy hlt).le
  · rw [decimal_eq_of_position_eq hx hy heq]

theorem decimal_eq_zero (hx : x.IsFinite) (h : x.position = 0) : x.decimal = .zero := by
  obtain ⟨_, exponent, fraction⟩ := x
  simp only [position, place] at h
  obtain rfl : exponent = 0 := by omega
  obtain rfl : fraction = 0 := by omega
  rfl

end Binary64

/-- What a directive with a decimal layout writes for a finite value without its sign stands for
the rounded decimal of the value. -/
theorem Directive.reads_rounded (d : Directive) {x : Binary64} (hx : x.IsFinite)
    (hstyle : d.floatStyle ≠ .hex)
    (hprecision : 0 ≤ d.floatPrecision?.getD usualFloatPrecision) :
    Reads (d.floatParts x).text
      (d.floatStyle.rounded x.decimal (d.floatPrecision?.getD usualFloatPrecision)).toRat := by
  have hzero := (Binary64.writes hx).exponent_zero
  unfold floatParts Binary64.decimal
  simp only
  obtain ⟨places, hplaces⟩ := Int.eq_ofNat_of_zero_le hprecision
  rw [hplaces]
  generalize x.shortest?.getD .zero = decimal at *
  cases hlayout : d.floatStyle with
  | fixed => exact FloatParts.reads_fixed decimal places _
  | exponent =>
    have hdigits := @Decimal.digits_keepDigits_le decimal (places + 1) (by omega)
    exact FloatParts.reads_scientific decimal places _ _ (by exact_mod_cast hdigits)
  | general => exact FloatParts.reads_general hzero places _ _
  | hex => exact absurd hlayout hstyle

end FormattedOutput
