import FormattedOutput.Proofs.Format.OneDirective
import FormattedOutput.Proofs.Number.Order

/-!
# Printing keeps the order

Of two finite values the larger one never prints as a smaller number, whatever the decimal layout
and its precision are. Their shortest decimals are in the same strict order as the values.
-/

namespace FormattedOutput

/-! ## Signed numbers -/

/-- A number with a sign. -/
def signed (negative : Bool) (r : Rat) : Rat := if negative then -r else r

/-- The number that a numeral stands for. -/
def Numeral.value (n : Numeral) : Rat := signed n.negative n.magnitude

namespace Binary64

/-- The number that a finite value stands for. -/
def value (x : Binary64) : Rat := signed x.negative (magnitudeAt x.position)

theorem magnitudeAt_nonneg (k : Nat) : 0 ≤ magnitudeAt k := by
  rw [← magnitudeAt_zero]
  exact strictMono_magnitudeAt.monotone (Nat.zero_le k)

theorem position_eq_zero {x : Binary64} (h : magnitudeAt x.position ≤ 0) : x.position = 0 := by
  rw [← magnitudeAt_zero, strictMono_magnitudeAt.le_iff_le] at h
  omega

/-- A positive value has no sign and is not zero. -/
theorem positive_of_value_pos {x : Binary64} (h : 0 < x.value) :
    x.negative = false ∧ 0 < x.position := by
  have hnonneg := magnitudeAt_nonneg x.position
  unfold value signed at h
  split_ifs at h with hsign
  · linarith
  · refine ⟨by simpa using hsign, ?_⟩
    by_contra hzero
    obtain hposition : x.position = 0 := by omega
    rw [hposition, magnitudeAt_zero] at h
    exact lt_irrefl 0 h

/-- A function of the magnitudes that keeps their order, and is zero at zero, keeps the order of the
values. -/
theorem signed_mono {x y : Binary64} {r s : Rat} (h : x.value ≤ y.value) (hr : 0 ≤ r) (hs : 0 ≤ s)
    (hle : x.position ≤ y.position → r ≤ s) (hge : y.position ≤ x.position → s ≤ r)
    (hzero : y.position = 0 → s = 0) (hzero' : x.position = 0 → r = 0) :
    signed x.negative r ≤ signed y.negative s := by
  have hmx := magnitudeAt_nonneg x.position
  have hmy := magnitudeAt_nonneg y.position
  unfold value signed at h
  unfold signed
  cases hx : x.negative <;> cases hy : y.negative <;>
    simp only [hx, hy, if_true, Bool.false_eq_true, if_false] at h ⊢
  · exact hle (strictMono_magnitudeAt.le_iff_le.mp h)
  · -- Only the two zeros are in this order.
    rw [hzero (position_eq_zero (by linarith)), hzero' (position_eq_zero (by linarith))]
    norm_num
  · linarith
  · have hposition := strictMono_magnitudeAt.le_iff_le.mp (neg_le_neg_iff.mp h)
    exact neg_le_neg (hge hposition)

end Binary64

/-! ## Directives -/

namespace FloatDirective

theorem floatPrecision_nonneg (e : FloatDirective) :
    0 ≤ e.directive.floatPrecision?.getD usualFloatPrecision := by
  obtain ⟨style, precision, hfits⟩ := e
  cases precision with
  | none =>
    have hnone : (directive ⟨style, none, hfits⟩).floatPrecision? = none := rfl
    rw [hnone, Option.getD_none]
    decide
  | some places =>
    have hplaces : (directive ⟨style, some places, hfits⟩).floatPrecision? =
        some (min (places : Int) floatPrecisionLimit) := rfl
    rw [hplaces, Option.getD_some]
    exact le_min (Int.natCast_nonneg places) (by decide)

/-- The number that the directive writes for a value, without its sign. -/
def written (e : FloatDirective) (x : Binary64) : Rat :=
  (e.style.rounded x.decimal (e.directive.floatPrecision?.getD usualFloatPrecision)).toRat

variable {e : FloatDirective} {x y : Binary64}

theorem written_mono (hx : x.IsFinite) (hy : y.IsFinite) (h : x.position ≤ y.position) :
    e.written x ≤ e.written y :=
  FloatStyle.toRat_rounded_mono e.floatPrecision_nonneg (Binary64.toRat_decimal_mono hx hy h)

theorem written_zero (hx : x.IsFinite) (h : x.position = 0) : e.written x = 0 := by
  unfold written
  rw [Binary64.decimal_eq_zero hx h]
  exact FloatStyle.toRat_rounded_zero e.floatPrecision_nonneg

/-- What is printed is a numeral for the rounded value. -/
theorem exists_read (e : FloatDirective) (hstyle : e.style ≠ .hex) {bits : UInt64}
    (hfinite : (Binary64.ofBits bits).exponent ≠ 2047) :
    ∃ n, Numeral.read? (format .full e.text [.double bits]).bytes = some n ∧
      n.value = signed (Binary64.ofBits bits).negative (e.written (.ofBits bits)) := by
  obtain ⟨n, hread, hmagnitude⟩ := e.directive.reads_rounded (Binary64.isFinite_ofBits hfinite)
    hstyle e.floatPrecision_nonneg
  obtain ⟨-, -, hbytes⟩ := e.format_text hfinite
  have hsigned := Numeral.read?_signed e.directive (Binary64.ofBits bits).negative hread
  rw [← hbytes] at hsigned
  exact ⟨_, hsigned, congrArg (signed _) hmagnitude⟩

end FloatDirective

/-- Finite values are printed in their order: with the same decimal layout and the same precision
the text of the smaller value stands for no larger number. The shortest decimals of two positive
values are never the same and are in their order. -/
theorem format_mono (bits bits' : UInt64) (hx : (Binary64.ofBits bits).exponent ≠ 2047)
    (hy : (Binary64.ofBits bits').exponent ≠ 2047) :
    ((Binary64.ofBits bits).value ≤ (Binary64.ofBits bits').value →
      ∀ e : FloatDirective, e.style ≠ .hex →
        (format .full e.text [.double bits]).failure = none ∧
        (format .full e.text [.double bits']).failure = none ∧
        ∃ n m, Numeral.read? (format .full e.text [.double bits]).bytes = some n ∧
          Numeral.read? (format .full e.text [.double bits']).bytes = some m ∧
          n.value ≤ m.value) ∧
      (0 < (Binary64.ofBits bits).value →
        (Binary64.ofBits bits).value < (Binary64.ofBits bits').value →
        ∃ c d, (Binary64.ofBits bits).shortest? = some c ∧
          (Binary64.ofBits bits').shortest? = some d ∧ c.toRat < d.toRat) := by
  have hfx := Binary64.isFinite_ofBits hx
  have hfy := Binary64.isFinite_ofBits hy
  constructor
  · intro hle e hstyle
    obtain ⟨n, hn, hnvalue⟩ := e.exists_read hstyle hx
    obtain ⟨m, hm, hmvalue⟩ := e.exists_read hstyle hy
    refine ⟨(e.format_text hx).1, (e.format_text hy).1, n, m, hn, hm, ?_⟩
    rw [hnvalue, hmvalue]
    exact Binary64.signed_mono hle (Decimal.toRat_nonneg _) (Decimal.toRat_nonneg _)
      (FloatDirective.written_mono hfx hfy) (FloatDirective.written_mono hfy hfx)
      (FloatDirective.written_zero hfy) (FloatDirective.written_zero hfx)
  · intro hpos hlt
    obtain ⟨hsign, hposition⟩ := Binary64.positive_of_value_pos hpos
    obtain ⟨hsign', hposition'⟩ := Binary64.positive_of_value_pos (hpos.trans hlt)
    unfold Binary64.value at hlt
    rw [hsign, hsign'] at hlt
    exact ⟨_, _, Binary64.shortest?_eq_decimal hfx hposition,
      Binary64.shortest?_eq_decimal hfy hposition',
      Binary64.toRat_decimal_lt hfx hfy (Binary64.strictMono_magnitudeAt.lt_iff_lt.mp hlt)⟩

/-- The two least values print as 5e-324 and 1e-323. -/
theorem format_mono_least :
    0 < (Binary64.ofBits 1).value ∧ (Binary64.ofBits 1).value < (Binary64.ofBits 2).value ∧
      (∃ e : FloatDirective, e.style = .general ∧ e.precision = some 1 ∧
        ∃ n m, Numeral.read? (format .full e.text [.double 1]).bytes = some n ∧
          Numeral.read? (format .full e.text [.double 2]).bytes = some m ∧ n.value ≤ m.value) ∧
      ∃ c d, (Binary64.ofBits 1).shortest? = some c ∧ (Binary64.ofBits 2).shortest? = some d ∧
        c.toRat < d.toRat := by
  have hone : (Binary64.ofBits 1).value = Binary64.magnitudeAt 1 := by
    have hposition : (Binary64.ofBits 1).position = 1 := by decide +kernel
    rw [Binary64.value, hposition]
    rfl
  have htwo : (Binary64.ofBits 2).value = Binary64.magnitudeAt 2 := by
    have hposition : (Binary64.ofBits 2).position = 2 := by decide +kernel
    rw [Binary64.value, hposition]
    rfl
  have hpos : 0 < (Binary64.ofBits 1).value := by
    rw [hone, ← Binary64.magnitudeAt_zero]
    exact Binary64.strictMono_magnitudeAt (by decide)
  have hlt : (Binary64.ofBits 1).value < (Binary64.ofBits 2).value := by
    rw [hone, htwo]
    exact Binary64.strictMono_magnitudeAt (by decide)
  let e : FloatDirective :=
    { style := .general
      precision := some 1
      fits := by
        rintro places ⟨⟩
        decide }
  obtain ⟨hprinted, hshortest⟩ := format_mono 1 2 (by decide) (by decide)
  exact ⟨hpos, hlt, ⟨e, rfl, rfl, (hprinted hlt.le e (by decide)).2.2⟩, hshortest hpos hlt⟩

end FormattedOutput
