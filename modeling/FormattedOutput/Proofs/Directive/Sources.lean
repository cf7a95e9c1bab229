import FormattedOutput.Proofs.Directive.Consumption
import FormattedOutput.Proofs.Directive.Language

/-!
# Where the numbers of a directive come from

A directive knows whether its width and its precision came from an argument. Once both numbers are
read nothing depends on that: not the length, not the conversion, and not what is written.
-/

namespace FormattedOutput

/-! ## Forgetting the source -/

/-- The number, and not where it came from. -/
def Extent.unsourced (e : Extent) : Extent := { e with fromArgument := false }

/-- The modifiers, and not where their numbers came from. -/
def Modifiers.unsourced (m : Modifiers) : Modifiers :=
  { m with width := m.width.unsourced, precision := m.precision.unsourced }

/-- The directive, and not where its numbers came from. -/
def Directive.unsourced (d : Directive) : Directive :=
  { d with toModifiers := d.toModifiers.unsourced }

/-- The segment, and not where the numbers of its directive came from. -/
def Segment.unsourced : Segment → Segment
  | .literal byte => .literal byte
  | .integer d value => .integer d.unsourced value
  | .double d bits => .double d.unsourced bits
  | .text d bytes => .text d.unsourced bytes
  | .unavailable d => .unavailable d.unsourced

theorem Taken.map_map {α β γ : Type} (f : α → β) (g : β → γ) (taken : Taken α) :
    (taken.map f).map g = taken.map fun x => g (f x) := by
  obtain ⟨_ | _, _⟩ := taken <;> rfl

/-- What is done to a value before one goes on can be done to the result as well. -/
theorem Taken.map_andThen {α α' β β' : Type} {f : α → α'} {g : β → β'}
    {next : α → List Arg → Taken β} {next' : α' → List Arg → Taken β'}
    (h : ∀ x args, next' (f x) args = (next x args).map g) (taken : Taken α) :
    (taken.map f).andThen next' = (taken.andThen next).map g := by
  obtain ⟨_ | x, args⟩ := taken
  · rfl
  · exact h x args

/-! ## The length -/

/-- Only a length without a number of bits has one more letter. After a `w` it has that number. -/
theorem Length.bits?_of_extend? {length next : Length} {x : LengthLetter}
    (h : length.extend? x = some next) :
    length.bits? = none ∧ (x = .w → next.bits?.isSome = true) := by
  cases length <;> cases x <;> simp [extend?] at h
  all_goals
    subst h
    simp [bits?]

theorem Length.bits?_withBits {length : Length} {bits : Nat} (h : length.bits? = some bits)
    (bits' : Nat) : (length.withBits bits').bits? = some bits' := by
  cases length <;> simp_all [bits?, withBits]

namespace Mark

variable {m : Modifiers} {length : Length} {marks : List Mark} {mark : Mark}

theorem front_cons (h : isWide mark = false) (marks : List Mark) :
    front (mark :: marks) = mark :: front marks :=
  List.takeWhile_cons_of_pos (by simp [h])

/-- A mark of a length looks at the length alone, and it changes nothing else. Once there is a
number of bits, every digit belongs to it. -/
theorem exists_length_of_step
    (hmark : mark.isLength = true ∨ (∃ d, mark = .digit d) ∧ length.bits?.isSome = true) :
    ∃ result : Except Fault Length,
      (∀ (m : Modifiers) (args : List Arg), m.length = length →
        step m args mark = (result.map fun length => { m with length }, args)) ∧
      ∀ next, result = .ok next → next.bits? = none →
        length.bits? = none ∧ isWide mark = false := by
  cases mark with
  | letter x =>
    cases hx : length.extend? x with
    | none =>
      refine ⟨.error .conflictingLengths, ?_, by simp⟩
      rintro m args rfl
      simp [step, hx, Except.map]
    | some next =>
      obtain ⟨hbits, hwide⟩ := Length.bits?_of_extend? hx
      refine ⟨.ok next, ?_, ?_⟩
      · rintro m args rfl
        simp [step, hx, Except.map]
      · rintro _ ⟨⟩ hnone
        refine ⟨hbits, ?_⟩
        cases x with
        | w => simp [hnone] at hwide
        | _ => rfl
  | fast =>
    cases hx : length.extend? .w with
    | none =>
      refine ⟨.error .conflictingLengths, ?_, by simp⟩
      rintro m args rfl
      simp [step, hx, Except.map]
    | some next =>
      refine ⟨.ok (.fast 0), ?_, ?_⟩
      · rintro m args rfl
        simp [step, hx, Except.map]
      · rintro _ ⟨⟩ hnone
        simp [Length.bits?] at hnone
  | digit d =>
    have hsome : length.bits?.isSome = true := by simpa [isLength] using hmark
    obtain ⟨bits, hbits⟩ := Option.isSome_iff_exists.mp hsome
    by_cases hlarge : 64 < bits * 10 + d.val
    · refine ⟨.error .bitWidthTooLarge, ?_, by simp⟩
      rintro m args rfl
      simp [step, Modifiers.digit, Modifiers.bitDigit, hbits, hlarge, Except.map]
    · refine ⟨.ok (length.withBits (bits * 10 + d)), ?_, ?_⟩
      · rintro m args rfl
        simp [step, Modifiers.digit, Modifiers.bitDigit, hbits, hlarge, Except.map]
      · rintro _ ⟨⟩ hnone
        simp [Length.bits?_withBits hbits] at hnone
  | _ => simp [isLength] at hmark

/-- The marks of a length change the length alone. A digit belongs to it if a `w` stands before the
digit. -/
theorem exists_length_of_run (hrow : ∀ mark ∈ marks, mark.isLength = true ∨ ∃ d, mark = .digit d)
    (hfront : length.bits? = none → ∀ mark ∈ front marks, mark.isLength = true) :
    ∃ result : Except Fault Length, ∀ (m : Modifiers) (args : List Arg), m.length = length →
      run m args marks = (result.map fun length => { m with length }, args) := by
  induction marks generalizing length with
  | nil =>
    refine ⟨.ok length, ?_⟩
    rintro m args rfl
    rfl
  | cons mark marks ih =>
    have hmark : mark.isLength = true ∨ (∃ d, mark = .digit d) ∧ length.bits?.isSome = true := by
      rcases hrow mark List.mem_cons_self with hlength | ⟨d, rfl⟩
      · exact Or.inl hlength
      · refine Or.inr ⟨⟨d, rfl⟩, Option.isSome_iff_ne_none.mpr fun hnone => ?_⟩
        have hall := hfront hnone
        rw [front_cons rfl] at hall
        exact absurd (hall _ List.mem_cons_self) (by simp [isLength])
    obtain ⟨first, hstep, hnext⟩ := exists_length_of_step hmark
    cases first with
    | error fault =>
      refine ⟨.error fault, ?_⟩
      rintro m args rfl
      rw [run, hstep m args rfl]
      rfl
    | ok next =>
      -- If there is no number of bits yet, the marks behind this one are in front of a `w` as well.
      have hbehind : next.bits? = none → ∀ mark ∈ front marks, mark.isLength = true := by
        intro hnone later hlater
        obtain ⟨hbits, hnarrow⟩ := hnext next rfl hnone
        have hall := hfront hbits
        rw [front_cons hnarrow] at hall
        exact hall later (List.mem_cons_of_mem _ hlater)
      obtain ⟨result, hrun⟩ := ih (fun later h => hrow later (List.mem_cons_of_mem _ h)) hbehind
      refine ⟨result, ?_⟩
      rintro m args rfl
      rw [run, hstep m args rfl]
      exact hrun { m with length := next } args rfl

/-- No mark of a length sees where the numbers came from. -/
theorem run_unsourced (hrow : ∀ mark ∈ marks, mark.isLength = true ∨ ∃ d, mark = .digit d)
    (hfront : m.length.bits? = none → ∀ mark ∈ front marks, mark.isLength = true)
    (args : List Arg) :
    run m.unsourced args marks = (run m args marks).map Modifiers.unsourced := by
  obtain ⟨result, hrun⟩ := exists_length_of_run hrow hfront
  rw [hrun m.unsourced args rfl, hrun m args rfl]
  cases result <;> rfl

end Mark

/-! ## The conversion -/

theorem Modifiers.finish_unsourced (m : Modifiers) (conversion : Conversion) (uppercase : Bool) :
    m.unsourced.finish conversion uppercase =
      (m.finish conversion uppercase).map Directive.unsourced := by
  have hlength : m.unsourced.length = m.length := rfl
  unfold finish
  rw [hlength]
  split
  · rfl
  · rfl

theorem Taken.finish_unsourced (taken : Taken Modifiers) (conversion : Conversion)
    (uppercase : Bool) :
    (taken.map Modifiers.unsourced).andThen (fun m args => (m.finish conversion uppercase, args)) =
      (taken.andThen fun m args => (m.finish conversion uppercase, args)).map
        Directive.unsourced := by
  obtain ⟨_ | m, args⟩ := taken
  · rfl
  · simp only [Taken.map, Taken.andThen, Modifiers.finish_unsourced]
    cases m.finish conversion uppercase <;> rfl

/-- The segment with something done to its directive. -/
def Segment.mapDirective (f : Directive → Directive) : Segment → Segment
  | .literal byte => .literal byte
  | .integer d value => .integer (f d) value
  | .double d bits => .double (f d) bits
  | .text d bytes => .text (f d) bytes
  | .unavailable d => .unavailable (f d)

theorem Segment.mapDirective_unsourced : mapDirective Directive.unsourced = unsourced := by
  funext segment
  cases segment <;> rfl

namespace Directive

variable {f : Directive → Directive} {d : Directive}

theorem resolveInteger_map (hconversion : (f d).conversion = d.conversion) (bits : Nat)
    (args : List Arg) :
    (f d).resolveInteger bits args = (d.resolveInteger bits args).map (Segment.mapDirective f) := by
  unfold resolveInteger readBits isSigned
  rw [hconversion, Taken.map_map]
  rfl

theorem resolveSized_map (hconversion : (f d).conversion = d.conversion)
    (hlength : (f d).length = d.length) (args : List Arg) :
    (f d).resolveSized args = (d.resolveSized args).map (Segment.mapDirective f) := by
  unfold resolveSized
  rw [hlength]
  cases d.length.argumentBits with
  | ok bits => exact resolveInteger_map hconversion bits args
  | error fault => rfl

theorem resolveFloat_map (hlength : (f d).length = d.length) (args : List Arg) :
    (f d).resolveFloat args = (d.resolveFloat args).map (Segment.mapDirective f) := by
  unfold resolveFloat
  rw [hlength]
  split
  · rw [Taken.map_map]
    rfl
  · rw [Taken.map_map]
    rfl

/-- How an argument is read depends on the conversion, the length and the precision only. -/
theorem resolve_map (hconversion : (f d).conversion = d.conversion)
    (hlength : (f d).length = d.length)
    (hprecision : (f d).precision.effective = d.precision.effective) (args : List Arg) :
    (f d).resolve args = (d.resolve args).map (Segment.mapDirective f) := by
  have hsized := resolveSized_map hconversion hlength args
  unfold resolve
  rw [hconversion]
  cases d.conversion with
  | signed => exact hsized
  | unsigned radix => exact hsized
  | pointer => exact resolveInteger_map hconversion 64 args
  | float style => exact resolveFloat_map hlength args
  | char =>
    simp only [Taken.map_map]
    rfl
  | string =>
    simp only [Taken.map_map, shownText, hprecision]
    rfl

/-- No argument is read another way. -/
theorem resolve_unsourced (d : Directive) (args : List Arg) :
    d.unsourced.resolve args = (d.resolve args).map Segment.unsourced := by
  rw [← Segment.mapDirective_unsourced]
  exact resolve_map rfl rfl rfl args

end Directive

/-! ## The output -/

theorem Directive.forValue_unsourced (d : Directive) (x : Binary64) :
    d.unsourced.forValue x = (d.forValue x).unsourced := by
  unfold forValue
  split
  · rfl
  · rfl

/-- Nothing is written another way. -/
theorem Segment.pieces_unsourced (r : Renderer) (segment : Segment) :
    segment.unsourced.pieces r = segment.pieces r := by
  cases segment with
  | literal byte => rfl
  | integer d value => cases r <;> rfl
  | double d bits =>
    cases r with
    | full =>
      simp only [unsourced, pieces, Renderer.double, Directive.forValue_unsourced]
      rfl
    | reduced => rfl
  | text d bytes => cases r <;> rfl
  | unavailable d => cases r <;> rfl

end FormattedOutput
