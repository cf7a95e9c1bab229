import FormattedOutput.Proofs.Format.OneDirective
import FormattedOutput.Proofs.Number.ReadBack

/-!
# Printing and reading back

A directive with enough places and no width prints a finite value as a numeral. Read as an exact
number and rounded to binary64, it is the value again. So two values never print the same.
-/

namespace FormattedOutput

/-! ## Exact directives -/

/-- A directive that writes all digits of every value. It has no flags and no width. -/
structure ExactDirective extends FloatDirective where
  exact : style.IsExact (precision.map Nat.cast)

/-! ## Reading back -/

namespace Binary64

variable {x y : Binary64}

/-- A finite value is known by its sign and its place. -/
theorem IsFinite.eq_of_position_eq (hx : x.IsFinite) (hy : y.IsFinite)
    (hsign : x.negative = y.negative) (hposition : x.position = y.position) : x = y := by
  have := hx.fraction_lt
  have := hy.fraction_lt
  unfold position place at hposition
  obtain ⟨_, exponent, fraction⟩ := x
  obtain ⟨_, exponent', fraction'⟩ := y
  simp only at *
  obtain rfl : exponent = exponent' := by omega
  obtain rfl : fraction = fraction' := by omega
  rw [hsign]

theorem ofBits_injective {bits bits' : UInt64} (h : ofBits bits = ofBits bits') : bits = bits' := by
  unfold ofBits at h
  rw [mk.injEq, decide_eq_decide] at h
  have := bits.toNat_lt
  have := bits'.toNat_lt
  apply UInt64.toNat_inj.mp
  omega

end Binary64

/-- A text reads back as a value: it is a numeral with the sign of the value, and the number that
it stands for rounds to the magnitude of the value. -/
def ReadsBack (text : Bytes) (x : Binary64) : Prop :=
  ∃ n, Numeral.read? text = some n ∧ n.negative = x.negative ∧
    Binary64.RoundsTo n.magnitude x.position

/-- A text reads back as one finite value only. -/
theorem ReadsBack.unique {text : Bytes} {x y : Binary64} (hx : ReadsBack text x)
    (hy : ReadsBack text y) (hfx : x.IsFinite) (hfy : y.IsFinite) : x = y := by
  obtain ⟨n, hn, hsignx, hroundx⟩ := hx
  obtain ⟨m, hm, hsigny, hroundy⟩ := hy
  obtain rfl : n = m := by
    rw [hn] at hm
    exact Option.some.inj hm
  exact hfx.eq_of_position_eq hfy (hsignx.symm.trans hsigny) (hroundx.unique hroundy)

theorem ExactDirective.readsBack_format (e : ExactDirective) {bits : UInt64}
    (hfinite : (Binary64.ofBits bits).exponent ≠ 2047) :
    ReadsBack (format .full e.text [.double bits]).bytes (Binary64.ofBits bits) := by
  have hx := Binary64.isFinite_ofBits hfinite
  obtain ⟨-, -, hbytes⟩ := e.format_text hfinite
  have hexact : e.directive.floatStyle.IsExact e.directive.precision.effective := by
    obtain ⟨⟨style, precision, hfits⟩, hexact⟩ := e
    cases precision <;> exact hexact
  obtain ⟨r, ⟨n, hread, hmagnitude⟩, hbetween⟩ := e.directive.reads_floatParts hx hexact
  rw [hbytes]
  refine ⟨_, Numeral.read?_signed e.directive _ hread, rfl, ?_⟩
  have hround := Binary64.roundsTo_of_between hx.position_lt hbetween
  rw [← hmagnitude] at hround
  exact hround

/-- A finite value that is printed with enough places reads back as itself and as no other value.
Whatever two such directives print for two different values is different. -/
theorem format_readsBack (e : ExactDirective) (bits : UInt64)
    (hfinite : (Binary64.ofBits bits).exponent ≠ 2047) :
    (format .full e.text [.double bits]).failure = none ∧
      (format .full e.text [.double bits]).args = [] ∧
      ReadsBack (format .full e.text [.double bits]).bytes (Binary64.ofBits bits) ∧
      (∀ bits', (Binary64.ofBits bits').exponent ≠ 2047 →
        ReadsBack (format .full e.text [.double bits]).bytes (Binary64.ofBits bits') →
          bits' = bits) ∧
      ∀ (e' : ExactDirective) (bits' : UInt64), (Binary64.ofBits bits').exponent ≠ 2047 →
        (format .full e'.text [.double bits']).bytes = (format .full e.text [.double bits]).bytes →
          bits' = bits := by
  obtain ⟨hfailure, hargs, -⟩ := e.format_text hfinite
  have hback := e.readsBack_format hfinite
  have honly : ∀ bits', (Binary64.ofBits bits').exponent ≠ 2047 →
      ReadsBack (format .full e.text [.double bits]).bytes (Binary64.ofBits bits') →
        bits' = bits := by
    intro bits' hfinite' hback'
    apply Binary64.ofBits_injective
    exact hback'.unique hback (Binary64.isFinite_ofBits hfinite') (Binary64.isFinite_ofBits hfinite)
  refine ⟨hfailure, hargs, hback, honly, ?_⟩
  -- A text that is printed for both values reads back as both.
  intro e' bits' hfinite' hsame
  apply honly bits' hfinite'
  rw [← hsame]
  exact e'.readsBack_format hfinite'

/-- The least subnormal value with 17 digits, and the negative zero in hexadecimal. -/
theorem format_readsBack_least :
    (Binary64.ofBits 1).exponent ≠ 2047 ∧
      (Binary64.ofBits 0x8000000000000000).exponent ≠ 2047 ∧
      ∃ e e' : ExactDirective, e.style = .exponent ∧ e.precision = some 16 ∧ e'.style = .hex ∧
        e'.precision = none ∧
        ReadsBack (format .full e.text [.double 1]).bytes (Binary64.ofBits 1) ∧
        ReadsBack (format .full e'.text [.double 0x8000000000000000]).bytes
          (Binary64.ofBits 0x8000000000000000) := by
  have hleast : (Binary64.ofBits 1).exponent ≠ 2047 := by decide
  have hzero : (Binary64.ofBits 0x8000000000000000).exponent ≠ 2047 := by decide
  let e : ExactDirective :=
    { style := .exponent
      precision := some 16
      fits := by
        rintro places ⟨⟩
        decide
      exact := ⟨16, rfl, le_refl 16⟩ }
  let e' : ExactDirective :=
    { style := .hex
      precision := none
      fits := by
        rintro places ⟨⟩
      exact := by
        rintro places ⟨⟩ }
  exact ⟨hleast, hzero, e, e', rfl, rfl, rfl, rfl, (format_readsBack e 1 hleast).2.2.1,
    (format_readsBack e' 0x8000000000000000 hzero).2.2.1⟩

end FormattedOutput
