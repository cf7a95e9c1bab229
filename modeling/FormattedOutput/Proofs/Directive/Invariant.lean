import FormattedOutput.Proofs.Directive.Reach

/-!
# What every directive keeps to

Flags, digits and stars may stand in any order and in any number. After each of them the width and
the precision are sizes that an `int` can hold, and the length has no more than 64 bits. The
conversion settles what is left: the radix, the case, and whether zeros may fill the field.
-/

namespace FormattedOutput

/-! ## Sizes -/

/-- The number is an `int` and is not negative. -/
structure Extent.IsSize (e : Extent) : Prop where
  nonneg : 0 ≤ e.value
  le_maxInt : e.value ≤ 2147483647

theorem appendDigit?_bounds {value next : Int} {digit : Nat} (hvalue : 0 ≤ value)
    (h : appendDigit? value digit = some next) : 0 ≤ next ∧ next ≤ 2147483647 := by
  unfold appendDigit? at h
  split at h
  · obtain rfl := Option.some.inj h
    exact ⟨by omega, by assumption⟩
  · contradiction

/-- The argument of a star is an `int`. -/
theorem Arg.le_maxInt_of_takeInt {args left : List Arg} {n : Int}
    (h : takeInt args = (.ok n, left)) : n ≤ 2147483647 := by
  unfold takeInt at h
  rcases hword : takeWord args with ⟨fault | word, rest⟩
  · simp [hword, Taken.map] at h
  · simp only [hword, Taken.map, Prod.mk.injEq, Except.ok.injEq] at h
    have hlt := @Int.bmod_lt word.toNat (2 ^ 32) (by decide)
    rw [h.1] at hlt
    exact Int.le_sub_one_of_lt hlt

/-! ## Lengths -/

namespace Length

theorem bits_withBits_le (l : Length) {bits : Nat} (hbits : bits ≤ 64) (hl : l.bits ≤ 64) :
    (l.withBits bits).bits ≤ 64 := by
  cases l with
  | exact _ => exact hbits
  | fast _ => exact hbits
  | _ => exact hl

/-- A letter leaves no number of bits. -/
theorem bits_of_extend? {l next : Length} {x : LengthLetter} (h : l.extend? x = some next) :
    next.bits = 0 := by
  cases l <;> cases x <;> simp [extend?] at h <;> subst h <;> rfl

theorem eq_of_bits_ne_zero {l : Length} (h : l.bits ≠ 0) :
    l = .exact l.bits ∨ l = .fast l.bits := by
  cases l with
  | exact bits => exact Or.inl rfl
  | fast bits => exact Or.inr rfl
  | _ => exact absurd rfl h

end Length

/-! ## One mark -/

/-- What modifiers keep to, whatever marks they were read from. -/
structure Modifiers.Valid (m : Modifiers) : Prop where
  width : m.width.IsSize
  precision : m.precision.IsSize
  width_given : m.width.value ≠ 0 ∨ m.width.fromArgument = true → m.width.given = true
  bits_le : m.length.bits ≤ 64

namespace Modifiers

variable {m m' : Modifiers} {args args' : List Arg}

theorem valid_empty : Valid {} := by
  refine ⟨⟨by decide, by decide⟩, ⟨by decide, by decide⟩, ?_, by decide⟩
  rintro (hvalue | hsource)
  · exact absurd rfl hvalue
  · contradiction

theorem Valid.bitDigit (h : m.Valid) {bits digit : Nat} (hstep : m.bitDigit bits digit = .ok m') :
    m'.Valid := by
  unfold Modifiers.bitDigit at hstep
  split at hstep
  · contradiction
  · obtain rfl := Except.ok.inj hstep
    exact { h with bits_le := m.length.bits_withBits_le (by omega) h.bits_le }

theorem Valid.zeroFlag (h : m.Valid) (hstep : m.zeroFlag = .ok m') : m'.Valid := by
  unfold Modifiers.zeroFlag at hstep
  split at hstep
  · contradiction
  · obtain rfl := Except.ok.inj hstep
    exact ⟨h.width, h.precision, h.width_given, h.bits_le⟩

theorem Valid.precisionDigit (h : m.Valid) {digit : Nat} (hstep : m.precisionDigit digit = .ok m') :
    m'.Valid := by
  unfold Modifiers.precisionDigit at hstep
  split at hstep
  · contradiction
  · split at hstep
    · rename_i value hvalue
      obtain rfl := Except.ok.inj hstep
      obtain ⟨hnonneg, hle⟩ := appendDigit?_bounds h.precision.nonneg hvalue
      exact { h with precision := ⟨hnonneg, hle⟩ }
    · contradiction

theorem Valid.widthDigit (h : m.Valid) {digit : Nat} (hstep : m.widthDigit digit = .ok m') :
    m'.Valid := by
  unfold Modifiers.widthDigit at hstep
  split at hstep
  · contradiction
  · split at hstep
    · rename_i value hvalue
      obtain rfl := Except.ok.inj hstep
      obtain ⟨hnonneg, hle⟩ := appendDigit?_bounds h.width.nonneg hvalue
      exact { h with width := ⟨hnonneg, hle⟩, width_given := fun _ => rfl }
    · contradiction

/-- A digit belongs to the length, is a flag, or belongs to one of the two numbers. -/
theorem Valid.digit (h : m.Valid) {digit : Nat} (hstep : m.digit digit = .ok m') : m'.Valid := by
  unfold Modifiers.digit at hstep
  split at hstep
  · exact h.bitDigit hstep
  · split at hstep
    · exact h.zeroFlag hstep
    · split at hstep
      · exact h.precisionDigit hstep
      · exact h.widthDigit hstep

theorem Valid.point (h : m.Valid) (hstep : m.point = .ok m') : m'.Valid := by
  unfold Modifiers.point at hstep
  split at hstep
  · contradiction
  · obtain rfl := Except.ok.inj hstep
    exact { h with precision := ⟨h.precision.nonneg, h.precision.le_maxInt⟩ }

theorem Valid.starWidth (h : m.Valid) {n : Int} (hstep : m.starWidth n = .ok m') : m'.Valid := by
  unfold Modifiers.starWidth at hstep
  split at hstep
  · contradiction
  · rename_i hle
    obtain rfl := Except.ok.inj hstep
    exact { h with width := ⟨Int.natCast_nonneg _, Int.not_lt.mp hle⟩, width_given := fun _ => rfl }

/-- A negative precision leaves the number that was there. -/
theorem Valid.starPrecision (h : m.Valid) {n : Int} (hn : n ≤ 2147483647) :
    (m.starPrecision n).Valid := by
  unfold Modifiers.starPrecision
  split
  · exact { h with precision := ⟨h.precision.nonneg, h.precision.le_maxInt⟩ }
  · rename_i hnonneg
    exact { h with precision := ⟨Int.not_lt.mp hnonneg, hn⟩ }

theorem Valid.star (h : m.Valid) (hstep : m.star args = (.ok m', args')) : m'.Valid := by
  unfold Modifiers.star at hstep
  split at hstep
  · simp at hstep
  · rcases hvalue : Arg.takeInt args with ⟨fault | n, rest⟩
    · simp [hvalue] at hstep
    · simp only [hvalue] at hstep
      split at hstep
      · obtain rfl := Except.ok.inj (Prod.mk.inj hstep).1
        exact h.starPrecision (Arg.le_maxInt_of_takeInt hvalue)
      · exact h.starWidth (Prod.mk.inj hstep).1

theorem Valid.withLength (h : m.Valid) {length : Length} (hlength : length.bits = 0) :
    Valid { m with length } :=
  { h with bits_le := by rw [hlength]; decide }

end Modifiers

namespace Mark

variable {m m' : Modifiers} {args args' : List Arg} {mark : Mark}

/-- A mark that is accepted leaves valid modifiers. -/
theorem valid_step (h : m.Valid) (hstep : mark.step m args = (.ok m', args')) : m'.Valid := by
  cases mark with
  | flag f =>
    obtain rfl := Except.ok.inj (Prod.mk.inj hstep).1
    exact ⟨h.width, h.precision, h.width_given, h.bits_le⟩
  | digit d => exact h.digit (Prod.mk.inj hstep).1
  | point => exact h.point (Prod.mk.inj hstep).1
  | star => exact h.star hstep
  | letter x =>
    simp only [step] at hstep
    split at hstep
    · rename_i length hlength
      obtain rfl := Except.ok.inj (Prod.mk.inj hstep).1
      exact h.withLength (Length.bits_of_extend? hlength)
    · simp at hstep
  | fast =>
    simp only [step] at hstep
    split at hstep
    · obtain rfl := Except.ok.inj (Prod.mk.inj hstep).1
      exact h.withLength rfl
    · simp at hstep

/-- And so does a row of marks that runs through. -/
theorem valid_run {marks : List Mark} (h : m.Valid) (hrun : run m args marks = (.ok m', args')) :
    m'.Valid := by
  induction marks generalizing m args with
  | nil =>
    obtain rfl := Except.ok.inj (Prod.mk.inj hrun).1
    exact h
  | cons mark marks ih =>
    rw [run] at hrun
    rcases hstep : mark.step m args with ⟨fault | next, rest⟩
    · simp [hstep] at hrun
    · simp only [hstep] at hrun
      exact ih (valid_step h hstep) hrun

end Mark

/-! ## The conversion -/

/-- What the byte of a conversion says of the conversion and of its case. -/
def Conversion.IsNamedBy (conversion : Conversion) (uppercase : Bool) (byte : UInt8) : Prop :=
  (conversion = .signed ↔ byte ∈ latin ['d', 'i']) ∧
  (conversion = .pointer ↔ byte ∈ latin ['p']) ∧
  (conversion.isInteger = true ↔ byte ∈ latin ['d', 'i', 'u', 'o', 'x', 'X', 'b', 'B', 'p']) ∧
  (conversion.isText = true ↔ byte ∈ latin ['c', 's']) ∧
  (uppercase = true ↔ 65 ≤ byte ∧ byte ≤ 90) ∧
  conversion.radix =
    if byte ∈ latin ['o'] then .octal
    else if byte ∈ latin ['b', 'B'] then .binary
    else if byte ∈ latin ['x', 'X', 'p', 'a', 'A'] then .hex
    else .decimal

instance (conversion : Conversion) (uppercase : Bool) (byte : UInt8) :
    Decidable (conversion.IsNamedBy uppercase byte) :=
  inferInstanceAs (Decidable (_ ∧ _))

namespace Conversion

theorem isNamedBy_all : ∀ entry ∈ letters, entry.2.1.IsNamedBy entry.2.2 entry.1 := by
  decide +kernel

theorem isNamedBy {byte : UInt8} {conversion : Conversion} {uppercase : Bool}
    (h : (byte, conversion, uppercase) ∈ letters) : conversion.IsNamedBy uppercase byte :=
  isNamedBy_all _ h

end Conversion

/-- What a directive keeps to that is accepted, told with the byte of its conversion. -/
structure Directive.Valid (d : Directive) (last : UInt8) : Prop where
  modifiers : d.toModifiers.Valid
  bits_eq : d.length.bits ≠ 0 → d.length = .exact d.length.bits ∨ d.length = .fast d.length.bits
  zeroPad_of_leftAdjust : d.flags.leftAdjust = true → d.flags.zeroPad = false
  zeroPad_of_precision :
    d.conversion.isInteger = true → d.precision.given = true → d.flags.zeroPad = false
  length_of_text : d.conversion.isText = true → d.length ≠ .long ∧ d.length ≠ .longDouble
  alternate_of_pointer : d.conversion = .pointer → d.flags.alternate = true
  named : d.conversion.IsNamedBy d.uppercase last

theorem Directive.valid_of_finish {m : Modifiers} {conversion : Conversion} {uppercase : Bool}
    {d : Directive} {last : UInt8} (hm : m.Valid) (h : m.finish conversion uppercase = .ok d)
    (hlast : (last, conversion, uppercase) ∈ Conversion.letters) : d.Valid last := by
  obtain ⟨htext, rfl⟩ := (m.finish_eq_ok_iff conversion uppercase d).mp h
  constructor
  · exact ⟨hm.width, hm.precision, hm.width_given, hm.bits_le⟩
  · exact Length.eq_of_bits_ne_zero
  · intro hleft
    simp only at hleft ⊢
    rw [hleft, Bool.not_true, Bool.and_false]
  · intro hinteger hgiven
    simp only at hinteger hgiven ⊢
    rw [hinteger, hgiven, Bool.and_true, Bool.not_true, Bool.and_false, Bool.false_and]
  · exact htext
  · intro hpointer
    simp only at hpointer ⊢
    rw [decide_eq_true hpointer, Bool.or_true]
  · exact Conversion.isNamedBy hlast

/-! ## A whole directive -/

/-- The marks of a directive run through, and its conversion ends it. -/
theorem DirectiveText.exists_of_directive {t : DirectiveText} {args left : List Arg}
    {d : Directive} (h : t.directive args = (.ok d, left)) :
    ∃ m, Mark.run {} args t.marks = (.ok m, left) ∧
      m.finish t.conversion t.uppercase = .ok d := by
  unfold directive at h
  rcases hrun : Mark.run {} args t.marks with ⟨fault | m, middle⟩
  · simp [hrun, Taken.andThen] at h
  · simp only [hrun, Taken.andThen, Prod.mk.injEq] at h
    obtain ⟨hfinish, rfl⟩ := h
    exact ⟨m, rfl, hfinish⟩

/-- What is read of a directive is valid. -/
theorem DirectiveText.valid_of_directive {t : DirectiveText} {args left : List Arg} {d : Directive}
    (h : t.directive args = (.ok d, left)) : d.Valid t.last := by
  obtain ⟨m, hrun, hfinish⟩ := exists_of_directive h
  exact Directive.valid_of_finish (Mark.valid_run Modifiers.valid_empty hrun) hfinish t.named

/-- However a directive is put together, what is read of it is valid: its numbers are sizes, its
flags do not contradict each other, and the rest is what the byte of its conversion says. -/
theorem directive_valid {text : Bytes} {start stop : Nat} {args left : List Arg} {d : Directive}
    (hread : Directive.read text start args = (.ok (d, stop), left)) :
    ∃ last, text[stop - 1]? = some last ∧ d.Valid last := by
  obtain ⟨t, after, hdrop, rfl, hdirective⟩ := DirectiveText.exists_of_read hread
  refine ⟨t.last, ?_, DirectiveText.valid_of_directive hdirective⟩
  -- The conversion is the last byte of the directive.
  have hend : start + 1 + t.bytes.length - 1 = start + 1 + (Mark.spell t.marks).length := by
    rw [DirectiveText.bytes, List.length_append, List.length_singleton]
    omega
  rw [hend, ← List.getElem?_drop, hdrop, DirectiveText.bytes, List.append_assoc,
    List.getElem?_append_right (Nat.le_refl _), Nat.sub_self]
  rfl

/-- The marks come in no order, and both arguments are negative. -/
theorem directive_valid_disorder :
    ∃ d : Directive,
      Directive.read (latin ['%', 'h', '.', '*', '0', '#', '*', 'X']) 0 [.int (-3), .int (-4)] =
        (.ok (d, 8), []) ∧
      ∃ last, (latin ['%', 'h', '.', '*', '0', '#', '*', 'X'])[8 - 1]? = some last ∧
        d.Valid last := by
  have hread : Directive.read (latin ['%', 'h', '.', '*', '0', '#', '*', 'X']) 0
      [.int (-3), .int (-4)] =
        (.ok ({ flags := { alternate := true, leftAdjust := true }
                width := { given := true, fromArgument := true, value := 4 }
                length := .half
                conversion := .unsigned .hex
                uppercase := true }, 8), []) := by
    decide +kernel
  exact ⟨_, hread, directive_valid hread⟩

end FormattedOutput
