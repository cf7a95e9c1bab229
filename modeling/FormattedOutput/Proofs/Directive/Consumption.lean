import FormattedOutput.Format
import FormattedOutput.Proofs.Directive.Marks

/-!
# What a directive takes

A directive takes one argument for each of its stars and one to convert. It looks at no argument
after these, and it has too few as soon as one of them is missing. Each step of the reading is told
by the arguments that it takes, and the steps are put together.
-/

namespace FormattedOutput

variable {α β : Type} {f : List Arg → Taken α} {g : α → List Arg → Taken β}

/-! ## Taking arguments -/

/-- Goes on with a value. A fault ends it. -/
def Taken.andThen (taken : Taken α) (next : α → List Arg → Taken β) : Taken β :=
  match taken with
  | (.ok value, args) => next value args
  | (.error fault, args) => (.error fault, args)

/-- These arguments give a value. What stands after them is left, and with fewer of them there are
too few. -/
structure Consumes (f : List Arg → Taken α) (taken : List Arg) (value : α) : Prop where
  enough : ∀ rest, f (taken ++ rest) = (.ok value, rest)
  short : ∀ n < taken.length, f (taken.take n) = (.error .tooFewArguments, [])

/-- Whenever there is a value, as many arguments gave it. -/
structure Takes (f : List Arg → Taken α) (count : Nat) : Prop where
  exists_taken : ∀ {args value left}, f args = (.ok value, left) →
    ∃ taken, args = taken ++ left ∧ taken.length = count ∧ Consumes f taken value

theorem Consumes.andThen {front back : List Arg} {x : α} {y : β} (hf : Consumes f front x)
    (hg : Consumes (g x) back y) :
    Consumes (fun args => (f args).andThen g) (front ++ back) y := by
  constructor
  · intro rest
    simp [hf.enough, Taken.andThen, hg.enough]
  · intro n hn
    rw [List.length_append] at hn
    rw [List.take_append]
    by_cases hfront : n < front.length
    · have hback : n - front.length = 0 := by omega
      simp [hback, hf.short n hfront, Taken.andThen]
    · have hshort := hg.short (n - front.length) (by omega)
      simp [List.take_of_length_le (Nat.le_of_not_lt hfront), hf.enough, Taken.andThen, hshort]

theorem Takes.andThen {n m : Nat} (hf : Takes f n) (hg : ∀ x, Takes (g x) m) :
    Takes (fun args => (f args).andThen g) (n + m) := by
  constructor
  intro args value left h
  rcases hfirst : f args with ⟨fault | x, middle⟩
  · simp [hfirst, Taken.andThen] at h
  · simp only [hfirst, Taken.andThen] at h
    obtain ⟨front, rfl, rfl, hfront⟩ := hf.exists_taken hfirst
    obtain ⟨back, rfl, rfl, hback⟩ := (hg x).exists_taken h
    exact ⟨front ++ back, by simp, by simp, hfront.andThen hback⟩

/-- What leaves all arguments takes none. -/
theorem takes_zero {result : Except Fault α} (h : ∀ args, f args = (result, args)) :
    Takes f 0 := by
  constructor
  intro args value left hf
  rw [h] at hf
  obtain ⟨rfl, rfl⟩ := Prod.mk.inj hf
  exact ⟨[], rfl, rfl, fun rest => h rest, by simp⟩

theorem Takes.map {n : Nat} (hf : Takes f n) (h : α → β) :
    Takes (fun args => (f args).map h) n := by
  constructor
  intro args value left heq
  rcases hfirst : f args with ⟨fault | x, middle⟩
  · simp [hfirst, Taken.map] at heq
  · simp only [hfirst, Taken.map, Prod.mk.injEq, Except.ok.injEq] at heq
    obtain ⟨rfl, rfl⟩ := heq
    obtain ⟨taken, rfl, hlength, hconsumes⟩ := hf.exists_taken hfirst
    refine ⟨taken, rfl, hlength, ?_, ?_⟩
    · intro rest
      simp [hconsumes.enough, Taken.map]
    · intro k hk
      simp [hconsumes.short k hk, Taken.map]

/-- If all arguments are taken, they are the ones that give the value. -/
theorem Takes.consumes {n : Nat} (hf : Takes f n) {taken : List Arg} {value : α}
    (h : f taken = (.ok value, [])) : Consumes f taken value := by
  obtain ⟨own, rfl, -, hconsumes⟩ := hf.exists_taken h
  rw [List.append_nil]
  exact hconsumes

/-- What never gives a value takes any number of arguments. -/
theorem takes_of_error {n : Nat} (h : ∀ args, ∃ fault left, f args = (.error fault, left)) :
    Takes f n := by
  constructor
  intro args value left hf
  obtain ⟨fault, left', herror⟩ := h args
  simp [herror] at hf

theorem Arg.takes_take (want : Arg → Option α) (misfit : Fault) : Takes (take want misfit) 1 := by
  constructor
  intro args value left h
  cases args with
  | nil => simp [take] at h
  | cons arg args =>
    cases hwant : want arg with
    | none => simp [take, hwant] at h
    | some x =>
      simp only [take, hwant, Prod.mk.injEq, Except.ok.injEq] at h
      obtain ⟨rfl, rfl⟩ := h
      refine ⟨[arg], rfl, rfl, ?_, ?_⟩
      · intro rest
        simp [take, hwant]
      · intro n hn
        obtain rfl : n = 0 := by simpa using hn
        rfl

/-! ## The marks of a directive -/

theorem Modifiers.takes_star (m : Modifiers) : Takes m.star 1 := by
  by_cases hthird : (m.width.fromArgument && m.precision.fromArgument) = true
  · exact takes_of_error fun args => ⟨.thirdStar, args, by simp [star, hthird]⟩
  · -- The number is taken first, and what it says is settled without an argument.
    have hsettle : ∀ n : Int, Takes
        (fun args => (if m.precision.given then .ok (m.starPrecision n) else m.starWidth n, args))
        0 := fun n => takes_zero fun _ => rfl
    have htake := ((Arg.takes_take Arg.word? .integerExpected).map
      fun word => Int.bmod word.toNat (2 ^ 32)).andThen hsettle
    have hstar : m.star = fun args => (Arg.takeInt args).andThen fun n args =>
        (if m.precision.given then .ok (m.starPrecision n) else m.starWidth n, args) := by
      funext args
      unfold star
      rw [if_neg hthird]
      rcases Arg.takeInt args with ⟨fault | n, rest⟩
      · rfl
      · by_cases hgiven : m.precision.given = true <;> simp [Taken.andThen, hgiven]
    rw [hstar]
    exact htake

namespace Mark

/-- Only a star takes an argument. -/
theorem takes_step (m : Modifiers) (mark : Mark) :
    Takes (fun args => mark.step m args) (if mark = .star then 1 else 0) := by
  cases mark with
  | flag f => exact takes_zero fun _ => rfl
  | digit d => exact takes_zero fun _ => rfl
  | point => exact takes_zero fun _ => rfl
  | star => exact m.takes_star
  | letter x =>
    simp only [step]
    cases m.length.extend? x with
    | none => exact takes_zero fun _ => rfl
    | some length => exact takes_zero fun _ => rfl
  | fast =>
    simp only [step]
    cases m.length.extend? .w with
    | none => exact takes_zero fun _ => rfl
    | some length => exact takes_zero fun _ => rfl

theorem run_cons (m : Modifiers) (args : List Arg) (mark : Mark) (marks : List Mark) :
    run m args (mark :: marks) = (mark.step m args).andThen fun m args => run m args marks := by
  rw [run]
  rcases mark.step m args with ⟨fault | m, left⟩ <;> rfl

theorem run_andThen (m : Modifiers) (args : List Arg) (front back : List Mark) :
    run m args (front ++ back) = (run m args front).andThen fun m args => run m args back := by
  rw [run_append]
  rcases run m args front with ⟨fault | m, left⟩ <;> rfl

theorem takes_run (m : Modifiers) (marks : List Mark) :
    Takes (fun args => run m args marks) (marks.count .star) := by
  induction marks generalizing m with
  | nil => exact takes_zero fun _ => rfl
  | cons mark marks ih =>
    have hstep := (takes_step m mark).andThen ih
    have hcount : (mark :: marks).count .star =
        (if mark = .star then 1 else 0) + marks.count .star := by
      rw [List.count_cons, Nat.add_comm]
      simp
    simp only [run_cons, hcount]
    exact hstep

end Mark

namespace Directive

/-- Takes an integer of the length of the directive. -/
def resolveSized (d : Directive) (args : List Arg) : Taken Segment :=
  match d.length.argumentBits with
  | .ok bits => d.resolveInteger bits args
  | .error fault => (.error fault, args)

theorem takes_resolveInteger (d : Directive) (bits : Nat) : Takes (d.resolveInteger bits) 1 :=
  (Arg.takes_take Arg.word? .integerExpected).map _

theorem takes_resolveSized (d : Directive) : Takes d.resolveSized 1 := by
  unfold resolveSized
  cases d.length.argumentBits with
  | ok bits => exact d.takes_resolveInteger bits
  | error fault => exact takes_of_error fun args => ⟨fault, args, rfl⟩

theorem takes_resolveFloat (d : Directive) : Takes d.resolveFloat 1 := by
  unfold resolveFloat
  by_cases hlong : d.length = .longDouble
  · simp only [hlong, if_true]
    exact (Arg.takes_take Arg.longDouble? .longDoubleExpected).map _
  · simp only [hlong, if_false]
    exact (Arg.takes_take Arg.double? .doubleExpected).map _

/-- One argument is converted. -/
theorem takes_resolve (d : Directive) : Takes d.resolve 1 := by
  unfold resolve
  cases d.conversion with
  | signed => exact d.takes_resolveSized
  | unsigned radix => exact d.takes_resolveSized
  | pointer => exact d.takes_resolveInteger 64
  | float style => exact d.takes_resolveFloat
  | char => exact (Arg.takes_take Arg.word? .integerExpected).map _
  | string => exact (Arg.takes_take Arg.string? .stringExpected).map _

end Directive

/-! ## A directive as a text -/

/-- The bytes of a directive after its `%`: marks and a conversion. An `f` right after a `w` is no
conversion. -/
structure DirectiveText where
  marks : List Mark
  last : UInt8
  conversion : Conversion
  uppercase : Bool
  named : (last, conversion, uppercase) ∈ Conversion.letters
  last_ne : marks.getLast? = some (.letter .w) → last ≠ 102

namespace DirectiveText

/-- The bytes in order. -/
def bytes (t : DirectiveText) : Bytes := Mark.spell t.marks ++ [t.last]

/-- The directive that the marks make, once they have taken their arguments. -/
def directive (t : DirectiveText) (args : List Arg) : Taken Directive :=
  (Mark.run {} args t.marks).andThen fun m args => (m.finish t.conversion t.uppercase, args)

/-- The segment of the directive with its argument. -/
def segment (t : DirectiveText) (args : List Arg) : Taken Segment :=
  (t.directive args).andThen Directive.resolve

theorem ofByte_last (t : DirectiveText) :
    Symbol.ofByte t.last = .conversion t.conversion t.uppercase :=
  Symbol.ofByte_eq_conversion_iff.mpr t.named

/-- The marks and the conversion make no `wf` where they meet. -/
theorem head_last_ne (t : DirectiveText) (after : Bytes) :
    t.marks.getLast? = some (.letter .w) → (t.last :: after).head? ≠ some 102 := by
  intro hw hhead
  exact t.last_ne hw (by simpa using hhead)

/-- What stands after a directive is left by the parser, whatever it is. -/
theorem parse_bytes (t : DirectiveText) (after : Bytes) (args : List Arg) :
    Modifiers.parse {} (t.bytes ++ after) args = (t.directive args).map (·, after) := by
  rw [bytes, List.append_assoc, List.singleton_append,
    Mark.parse_spell _ _ _ (t.head_last_ne after), directive]
  rcases Mark.run {} args t.marks with ⟨fault | m, left⟩
  · rfl
  · simp only [Modifiers.parse, t.ofByte_last, Taken.andThen]
    cases m.finish t.conversion t.uppercase <;> rfl

/-- What the parser accepts is the text of a directive. -/
theorem exists_of_parse {text rest : Bytes} {args left : List Arg} {d : Directive}
    (h : Modifiers.parse {} text args = (.ok (d, rest), left)) :
    ∃ t : DirectiveText, text = t.bytes ++ rest ∧ t.directive args = (.ok d, left) := by
  obtain ⟨marks, last, conversion, uppercase, _, rfl, hlast, hne, _⟩ :=
    Mark.exists_accepted_of_parse h
  let t : DirectiveText := ⟨marks, last, conversion, uppercase, hlast, hne⟩
  have hbytes : Mark.spell marks ++ last :: rest = t.bytes ++ rest := by simp [t, bytes]
  refine ⟨t, hbytes, ?_⟩
  rw [hbytes, t.parse_bytes] at h
  rcases hdirective : t.directive args with ⟨fault | directive, middle⟩
  · simp [hdirective, Taken.map] at h
  · simp only [hdirective, Taken.map, Prod.mk.injEq, Except.ok.injEq, and_true] at h
    rw [h.1, h.2]

/-- No byte of a directive ends the format text, and none starts another directive. -/
theorem bytes_ne (t : DirectiveText) {byte : UInt8} (h : byte ∈ t.bytes) :
    byte ≠ 0 ∧ byte ≠ 37 := by
  rcases List.mem_append.mp h with hmarks | hlast
  · exact Mark.spell_ne hmarks
  · obtain rfl := List.mem_singleton.mp hlast
    constructor
    · intro hzero
      have hsymbol := t.ofByte_last
      rw [hzero] at hsymbol
      contradiction
    · intro hpercent
      have hsymbol := t.ofByte_last
      rw [hpercent] at hsymbol
      contradiction

theorem bytes_ne_nil (t : DirectiveText) : t.bytes ≠ [] := by
  simp [bytes]

theorem length_of_drop {t : DirectiveText} {text after : Bytes} {start : Nat}
    (h : text.drop (start + 1) = t.bytes ++ after) :
    text.length = start + 1 + t.bytes.length + after.length := by
  have hlength := congrArg List.length h
  have hpos := List.length_pos_iff_ne_nil.mpr t.bytes_ne_nil
  rw [List.length_drop, List.length_append] at hlength
  omega

/-- A directive ends behind its bytes, whatever stands there. -/
theorem read_of_drop {t : DirectiveText} {text after : Bytes} {start : Nat}
    (h : text.drop (start + 1) = t.bytes ++ after) (args : List Arg) :
    Directive.read text start args =
      match t.directive args with
      | (.ok d, args) => (.ok (d, start + 1 + t.bytes.length), args)
      | (.error fault, args) => (.error (fault.error start), args) := by
  have hstop : text.length - after.length = start + 1 + t.bytes.length := by
    rw [length_of_drop h, Nat.add_sub_cancel]
  rw [Directive.read, h, t.parse_bytes]
  rcases t.directive args with ⟨fault | d, left⟩
  · rfl
  · simp only [Taken.map, hstop]

theorem head_bytes_ne (t : DirectiveText) (after : Bytes) : (t.bytes ++ after).head? ≠ some 37 := by
  rw [List.head?_append_of_ne_nil _ t.bytes_ne_nil]
  intro hhead
  exact (t.bytes_ne (List.mem_of_head? hhead)).2 rfl

/-- The stars of a directive are those of its marks. -/
theorem count_bytes (t : DirectiveText) : t.bytes.count 42 = t.marks.count .star := by
  have hmark : ∀ mark : Mark, mark.bytes.count 42 = if mark = .star then 1 else 0 := by
    intro mark
    cases mark with
    | flag f => cases f <;> decide
    | digit d => revert d; decide
    | point => decide
    | star => decide
    | letter x => cases x <;> decide
    | fast => decide
  have hmarks : ∀ marks : List Mark, (Mark.spell marks).count 42 = marks.count .star := by
    intro marks
    induction marks with
    | nil => rfl
    | cons mark marks ih =>
      rw [Mark.spell_cons, List.count_append, hmark, ih, List.count_cons, Nat.add_comm]
      simp
  have hlast : t.last ≠ 42 := by
    intro hstar
    have hsymbol := t.ofByte_last
    rw [hstar] at hsymbol
    contradiction
  rw [bytes, List.count_append, hmarks]
  simp [hlast]

/-- The marks of a directive take an argument for each star. -/
theorem takes_directive (t : DirectiveText) : Takes t.directive (t.marks.count .star) := by
  have hfinish : ∀ m : Modifiers, Takes
      (fun args => (m.finish t.conversion t.uppercase, args)) 0 := fun m => takes_zero fun _ => rfl
  exact (Mark.takes_run {} t.marks).andThen hfinish

/-- A directive takes an argument for each star and one to convert. -/
theorem takes_segment (t : DirectiveText) : Takes t.segment (t.marks.count .star + 1) :=
  t.takes_directive.andThen Directive.takes_resolve

end DirectiveText

end FormattedOutput
