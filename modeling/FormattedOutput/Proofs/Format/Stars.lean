import FormattedOutput.Proofs.Directive.Sources
import FormattedOutput.Proofs.Format.Splitting

/-!
# Numbers from arguments

A width and a precision are given in digits, or by an argument for a `*`. A number means the same
either way: the directive is the same but for the source of the number, and so is the output. A
negative width is a `-` flag and its magnitude, and a negative precision is none.
-/

namespace FormattedOutput

/-! ## Numbers as they are given -/

/-- A number of a directive as it is given: in digits, or by an argument for a `*`. -/
inductive GivenNumber where
  | inline (digits : List (Fin 10))
  | argument (arg : Arg)

namespace GivenNumber

/-- What stands in the directive. -/
def marks : GivenNumber → List Mark
  | inline digits => digits.map .digit
  | argument _ => [.star]

/-- The arguments that it takes. -/
def args : GivenNumber → List Arg
  | inline _ => []
  | argument arg => [arg]

/-- The number that it stands for. Of an argument the low 32 bits count, as a signed number. -/
def value? : GivenNumber → Option Int
  | inline digits => some (Mark.numberOf (digits.map Fin.val))
  | argument arg => arg.word?.map fun word => Int.bmod word.toNat (2 ^ (32 : Nat))

/-- The number is given for a width. In digits it does not start with a zero, which would be a
flag. -/
structure GivesWidth (given : GivenNumber) (n : Int) : Prop where
  value : given.value? = some n
  fits : n.natAbs ≤ 2147483647
  first : ∀ digits, given = inline digits → ∃ d rest, digits = d :: rest ∧ d ≠ 0

/-- The number is given for a precision. Without a digit it is 0. -/
structure GivesPrecision (given : GivenNumber) (p : Int) : Prop where
  value : given.value? = some p
  fits : p ≤ 2147483647

theorem takeInt_of_value? {arg : Arg} {n : Int} (h : (argument arg).value? = some n)
    (rest : List Arg) : Arg.takeInt (arg :: rest) = (.ok n, rest) := by
  obtain ⟨word, hword, rfl⟩ := Option.map_eq_some_iff.mp h
  simp [Arg.takeInt, Arg.takeWord, Arg.take, hword, Taken.map]

end GivenNumber

open GivenNumber

/-! ## Running through flags and numbers -/

theorem Modifiers.starWidth_of_le (m : Modifiers) {n : Int} (h : n.natAbs ≤ 2147483647) :
    m.starWidth n = .ok { m with
      flags := if n < 0 then m.flags.set .leftAdjust else m.flags
      width := { given := true, fromArgument := true, value := n.natAbs } } := by
  rw [starWidth, if_neg (by rw [maxInt_eq]; omega)]

theorem Modifiers.starWidth_of_lt (m : Modifiers) {n : Int} (h : 2147483647 < n.natAbs) :
    m.starWidth n = .error .widthOverflow := by
  rw [starWidth, if_pos (by rw [maxInt_eq]; omega)]

namespace Mark

/-- The number with these digits at its end. -/
def extended (n : Nat) (digits : List (Fin 10)) : Nat :=
  digits.foldl (fun m d => m * 10 + d.val) n

theorem extended_cons (n : Nat) (d : Fin 10) (digits : List (Fin 10)) :
    extended n (d :: digits) = extended (n * 10 + d) digits := rfl

theorem le_extended (n : Nat) (digits : List (Fin 10)) : n ≤ extended n digits := by
  induction digits generalizing n with
  | nil => exact Nat.le_refl n
  | cons d digits ih =>
    have hnext := ih (n * 10 + d)
    rw [extended_cons]
    omega

theorem numberOf_map_val (digits : List (Fin 10)) :
    numberOf (digits.map Fin.val) = extended 0 digits := by
  rw [numberOf, List.foldl_map, extended]

/-- Digits add to a number, as long as the whole number fits. -/
theorem run_digits {put : Nat → Modifiers}
    (hput : ∀ (n : Nat) (d : Fin 10), n * 10 + d ≤ 2147483647 →
      (put n).digit d = .ok (put (n * 10 + d)))
    {digits : List (Fin 10)} {n : Nat} (hfits : extended n digits ≤ 2147483647) (args : List Arg) :
    run (put n) args (digits.map .digit) = (.ok (put (extended n digits)), args) := by
  induction digits generalizing n with
  | nil => rfl
  | cons d digits ih =>
    rw [extended_cons] at hfits
    have hle := le_extended (n * 10 + d) digits
    rw [List.map_cons, run_cons, step, hput n d (by omega), extended_cons]
    exact ih hfits

theorem appendDigit?_eq {n : Nat} {d : Fin 10} (h : n * 10 + d ≤ 2147483647) :
    appendDigit? n d = some ((n * 10 + d : Nat) : Int) := by
  rw [appendDigit?_natCast, if_pos h]

/-- A precision has begun with its point, so a zero is one of its digits. -/
theorem digit_precision {m : Modifiers} (hlength : m.length = .plain) (n : Nat) (d : Fin 10)
    (h : n * 10 + d ≤ 2147483647) :
    { m with precision := { given := true, value := n } : Modifiers }.digit d =
      .ok { m with precision := { given := true, value := (n * 10 + d : Nat) } } := by
  unfold Modifiers.digit Modifiers.precisionDigit
  simp [hlength, Length.bits?, Extent.inline, appendDigit?_eq h]

/-- A width begins with its first digit, and then a zero is one of its digits. -/
theorem digit_width (f : Flags) (n : Nat) (d : Fin 10) (h : n * 10 + d ≤ 2147483647) :
    { flags := f, width := { given := true, value := n } : Modifiers }.digit d =
      .ok { flags := f, width := { given := true, value := (n * 10 + d : Nat) } } := by
  unfold Modifiers.digit Modifiers.widthDigit
  simp [Length.bits?, Extent.inline, appendDigit?_eq h]

theorem digit_width_first (f : Flags) {d : Fin 10} (h : d ≠ 0) :
    { flags := f : Modifiers }.digit d =
      .ok { flags := f, width := { given := true, value := (d : Nat) } } := by
  have hvalue : (d : Nat) ≠ 0 := fun hzero => h (Fin.ext hzero)
  have hdigit := @appendDigit?_eq 0 d (by omega)
  unfold Modifiers.digit Modifiers.widthDigit
  simp_all [Length.bits?, Extent.inline]

/-- Flags and at most one zero are accepted, whatever the arguments are. -/
theorem run_flags {flags : List Mark} {f : Flags}
    (hrow : ∀ mark ∈ flags, mark = .digit 0 ∨ ∃ flag, mark = .flag flag)
    (hone : flags.count (.digit 0) + f.zeroPad.toNat ≤ 1) :
    ∃ f' : Flags, ∀ args, run { flags := f } args flags = (.ok { flags := f' }, args) := by
  induction flags generalizing f with
  | nil => exact ⟨f, fun _ => rfl⟩
  | cons mark flags ih =>
    have hrest := fun mark' hmark => hrow mark' (List.mem_cons_of_mem mark hmark)
    rcases hrow mark List.mem_cons_self with rfl | ⟨flag, rfl⟩
    · rw [List.count_cons_self] at hone
      -- There is no second zero, so none was met before.
      have hzero : f.zeroPad = false := by
        cases hpad : f.zeroPad with
        | false => rfl
        | true => simp [hpad] at hone
      obtain ⟨f', hrun⟩ := @ih { f with zeroPad := true } hrest (by simpa [hzero] using hone)
      refine ⟨f', fun args => ?_⟩
      have hdigit : { flags := f : Modifiers }.digit 0 =
          .ok { flags := { f with zeroPad := true } } := by
        simp [Modifiers.digit, Modifiers.zeroFlag, Length.bits?, Extent.inline, hzero]
      rw [run_cons]
      simp only [step, Fin.val_zero, hdigit]
      exact hrun args
    · have hset : (f.set flag).zeroPad = f.zeroPad := by cases flag <;> rfl
      have hcount : (Mark.flag flag :: flags).count (.digit 0) = flags.count (.digit 0) :=
        List.count_cons_of_ne (by simp)
      obtain ⟨f', hrun⟩ := @ih (f.set flag) hrest (by rw [hset, ← hcount]; exact hone)
      exact ⟨f', hrun⟩

end Mark

/-! ## What the numbers of a directive say -/

/-- The flags with those of a width, of which a negative one is a `-`. -/
def Flags.withWidth (f : Flags) : Option Int → Flags
  | some n => if n < 0 then f.set .leftAdjust else f
  | none => f

/-- The magnitude of a width. -/
def Extent.ofWidth : Option Int → Extent
  | some n => { given := true, value := n.natAbs }
  | none => {}

/-- A precision, if it is not negative. -/
def Extent.ofPrecision : Option Int → Extent
  | some p => if p < 0 then {} else { given := true, value := p }
  | none => {}

/-- The modifiers that flags, a width and a precision make, without the source of the numbers. -/
def Modifiers.ofNumbers (f : Flags) (n p : Option Int) : Modifiers where
  flags := f.withWidth n
  width := .ofWidth n
  precision := .ofPrecision p

namespace GivenNumber

theorem value?_inline (digits : List (Fin 10)) :
    (inline digits).value? = some (Mark.extended 0 digits : Int) := by
  rw [value?, Mark.numberOf_map_val]

/-- The marks of a width. -/
def widthMarks (w : Option GivenNumber) : List Mark := w.toList.flatMap marks

/-- The point of a precision and its marks. -/
def precisionMarks (q : Option GivenNumber) : List Mark := q.toList.flatMap (.point :: ·.marks)

/-- The arguments of a number that may be missing. -/
def ownArgs (given : Option GivenNumber) : List Arg := given.toList.flatMap args

@[simp] theorem widthMarks_some (given : GivenNumber) :
    widthMarks (some given) = given.marks := by
  simp [widthMarks]

@[simp] theorem precisionMarks_some (given : GivenNumber) :
    precisionMarks (some given) = .point :: given.marks := by
  simp [precisionMarks]

@[simp] theorem ownArgs_some (given : GivenNumber) : ownArgs (some given) = given.args := by
  simp [ownArgs]

/-- A width comes to its number, however it is given. -/
theorem run_width (f : Flags) {w : Option GivenNumber} {n : Option Int}
    (h : Option.Rel GivesWidth w n) :
    ∃ m : Modifiers, m.unsourced = .ofNumbers f n none ∧ m.precision = {} ∧ m.length = .plain ∧
      ∀ rest, Mark.run { flags := f } (ownArgs w ++ rest) (widthMarks w) = (.ok m, rest) := by
  cases h with
  | none => exact ⟨{ flags := f }, rfl, rfl, rfl, fun _ => rfl⟩
  | @some given n h =>
    cases given with
    | inline digits =>
      obtain ⟨d, digits, rfl, hd⟩ := h.first digits rfl
      have hvalue := h.value
      have hfits := h.fits
      rw [value?_inline, Mark.extended_cons, Nat.zero_mul, Nat.zero_add] at hvalue
      obtain rfl := Option.some.inj hvalue
      refine ⟨{ flags := f, width := { given := true, value := Mark.extended d digits } }, ?_, rfl,
        rfl, fun rest => ?_⟩
      · have hpos : ¬ (Mark.extended d digits : Int) < 0 := by omega
        simp [Modifiers.unsourced, Modifiers.ofNumbers, Flags.withWidth, hpos, Extent.ofWidth,
          Extent.ofPrecision, Extent.unsourced]
      · have hrun := Mark.run_digits (Mark.digit_width f) hfits rest
        rw [widthMarks_some, ownArgs_some, marks, args, List.nil_append, List.map_cons,
          Mark.run_cons, Mark.step, Mark.digit_width_first f hd]
        exact hrun
    | argument arg =>
      have htake := takeInt_of_value? h.value
      have hwidth := Modifiers.starWidth_of_le { flags := f } h.fits
      refine ⟨{ flags := f.withWidth (some n)
                width := { given := true, fromArgument := true, value := n.natAbs } },
        rfl, rfl, rfl, fun rest => ?_⟩
      simp [args, marks, Mark.run, Mark.step, Modifiers.star, htake, hwidth, Flags.withWidth]

/-- A precision comes to its number, however it is given. -/
theorem run_precision {m : Modifiers} (hprecision : m.precision = {}) (hlength : m.length = .plain)
    {q : Option GivenNumber} {p : Option Int} (h : Option.Rel GivesPrecision q p) :
    ∃ m' : Modifiers, m'.unsourced = { m.unsourced with precision := .ofPrecision p } ∧
      ∀ rest, Mark.run m (ownArgs q ++ rest) (precisionMarks q) = (.ok m', rest) := by
  cases h with
  | none =>
    refine ⟨m, ?_, fun _ => rfl⟩
    simp [Modifiers.unsourced, hprecision, Extent.ofPrecision, Extent.unsourced]
  | @some given p h =>
    have hpoint : m.point = .ok { m with precision := { given := true } } := by
      simp [Modifiers.point, hprecision]
    cases given with
    | inline digits =>
      have hvalue := h.value
      have hfits := h.fits
      rw [value?_inline] at hvalue
      obtain rfl := Option.some.inj hvalue
      refine ⟨{ m with precision := { given := true, value := Mark.extended 0 digits } }, ?_,
        fun rest => ?_⟩
      · simp [Modifiers.unsourced, Extent.ofPrecision, Extent.unsourced]
      · have hrun := Mark.run_digits (Mark.digit_precision hlength) (Int.ofNat_le.mp hfits) rest
        rw [precisionMarks_some, ownArgs_some, marks, args, List.nil_append, Mark.run_cons,
          Mark.step, hpoint]
        exact hrun
    | argument arg =>
      have htake := takeInt_of_value? h.value
      refine ⟨{ m with precision :=
        if p < 0 then {} else { given := true, fromArgument := true, value := p } }, ?_,
        fun rest => ?_⟩
      · by_cases hp : p < 0 <;> simp [Modifiers.unsourced, Extent.ofPrecision, Extent.unsourced, hp]
      · by_cases hp : p < 0 <;>
          simp [args, marks, Mark.run, Mark.step, hpoint, Modifiers.star, htake,
            Modifiers.starPrecision, hp]

end GivenNumber

/-! ## Directives with given numbers -/

/-- The flags of a directive: any flag letters, and at most one zero. -/
structure FlagRun where
  marks : List Mark
  flag_or_zero : ∀ mark ∈ marks, mark = .digit 0 ∨ ∃ flag, mark = .flag flag
  one_zero : marks.count (.digit 0) ≤ 1

namespace FlagRun

theorem exists_flags (flags : FlagRun) :
    ∃ f : Flags, ∀ args, Mark.run {} args flags.marks = (.ok { flags := f }, args) :=
  Mark.run_flags flags.flag_or_zero flags.one_zero

/-- One more flag, a `-`. -/
def leftAdjusted (flags : FlagRun) : FlagRun where
  marks := flags.marks ++ [.flag .leftAdjust]
  flag_or_zero := by
    intro mark hmark
    rcases List.mem_append.mp hmark with hold | hnew
    · exact flags.flag_or_zero mark hold
    · exact Or.inr ⟨_, List.mem_singleton.mp hnew⟩
  one_zero := by
    simpa [List.count_append] using flags.one_zero

theorem run_leftAdjusted {flags : FlagRun} {f : Flags}
    (h : ∀ args, Mark.run {} args flags.marks = (.ok { flags := f }, args)) (args : List Arg) :
    Mark.run {} args flags.leftAdjusted.marks = (.ok { flags := f.set .leftAdjust }, args) := by
  rw [leftAdjusted, Mark.run_andThen, h]
  rfl

end FlagRun

/-- What stands behind the numbers of a directive: a length, which has digits only behind a `w`, and
a conversion. An `f` right behind a `w` is no conversion. -/
structure DirectiveEnd where
  length : List Mark
  last : UInt8
  conversion : Conversion
  uppercase : Bool
  letter_or_digit : ∀ mark ∈ length, mark.isLength = true ∨ ∃ d, mark = .digit d
  letters_first : ∀ mark ∈ Mark.front length, mark.isLength = true
  named : (last, conversion, uppercase) ∈ Conversion.letters
  last_ne : length.getLast? = some (.letter .w) → last ≠ 102

/-- The directive that these modifiers make in front of the end, with the arguments that are
left. -/
def DirectiveEnd.directive (ending : DirectiveEnd) (m : Modifiers) (args : List Arg) :
    Taken Directive :=
  (Mark.run m args ending.length).andThen fun m args =>
    (m.finish ending.conversion ending.uppercase, args)

/-- A directive whose numbers are given in one way or another. -/
structure NumberedDirective where
  flags : FlagRun
  width : Option GivenNumber
  precision : Option GivenNumber
  ending : DirectiveEnd

namespace NumberedDirective

/-- The marks in front of the length. -/
def numberMarks (x : NumberedDirective) : List Mark :=
  x.flags.marks ++ (widthMarks x.width ++ precisionMarks x.precision)

/-- The arguments for the stars. -/
def args (x : NumberedDirective) : List Arg :=
  ownArgs x.width ++ ownArgs x.precision

theorem letter_notMem_marks (given : GivenNumber) (x : LengthLetter) :
    .letter x ∉ given.marks := by
  cases given <;> simp [GivenNumber.marks]

theorem letter_notMem_numberMarks (x : NumberedDirective) (letter : LengthLetter) :
    .letter letter ∉ x.numberMarks := by
  intro hmem
  simp only [numberMarks, widthMarks, precisionMarks, List.mem_append, List.mem_flatMap,
    List.mem_cons] at hmem
  rcases hmem with hflag | ⟨given, _, hwidth⟩ | ⟨given, _, hpoint | hprecision⟩
  · rcases x.flags.flag_or_zero _ hflag with hzero | ⟨flag, hflag⟩
    · contradiction
    · contradiction
  · exact letter_notMem_marks given letter hwidth
  · contradiction
  · exact letter_notMem_marks given letter hprecision

/-- The directive as a text. -/
def text (x : NumberedDirective) : DirectiveText where
  marks := x.numberMarks ++ x.ending.length
  last := x.ending.last
  conversion := x.ending.conversion
  uppercase := x.ending.uppercase
  named := x.ending.named
  last_ne := by
    intro hlast
    rw [List.getLast?_append] at hlast
    cases hlength : x.ending.length.getLast? with
    | none =>
      simp only [hlength, Option.none_or] at hlast
      exact absurd (List.mem_of_getLast? hlast) (x.letter_notMem_numberMarks .w)
    | some mark =>
      simp only [hlength, Option.some_or] at hlast
      exact x.ending.last_ne (hlength.trans hlast)

/-- The whole directive. -/
def bytes (x : NumberedDirective) : Bytes := 37 :: x.text.bytes

/-- The directive that the parser reads between two texts, but for the source of its numbers. -/
def describe (x : NumberedDirective) (front after : Bytes) (args : List Arg) :
    Except Error Directive × List Arg :=
  (Directive.read (front ++ x.bytes ++ after) front.length args).map
    (Except.map fun result => result.1.unsourced) id

/-- The modifiers have these numbers in front of the length, whatever the other arguments are. -/
def ComesTo (x : NumberedDirective) (m : Modifiers) : Prop :=
  ∃ m' : Modifiers, m'.unsourced = m ∧
    ∀ rest, Mark.run {} (x.args ++ rest) x.numberMarks = (.ok m', rest)

/-- Flags and numbers make the modifiers that they say, however the numbers are given. -/
theorem comesTo {flags : FlagRun} {f : Flags}
    (hflags : ∀ args, Mark.run {} args flags.marks = (.ok { flags := f }, args))
    {w q : Option GivenNumber} {n p : Option Int} (hwidth : Option.Rel GivesWidth w n)
    (hprecision : Option.Rel GivesPrecision q p) (ending : DirectiveEnd) :
    ComesTo ⟨flags, w, q, ending⟩ (.ofNumbers f n p) := by
  obtain ⟨m, hm, hnone, hplain, hrun⟩ := run_width f hwidth
  obtain ⟨m', hm', hrun'⟩ := run_precision hnone hplain hprecision
  refine ⟨m', ?_, fun rest => ?_⟩
  · rw [hm', hm]
    rfl
  · simp only [numberMarks, args]
    rw [Mark.run_andThen, hflags, Taken.andThen, Mark.run_andThen, List.append_assoc, hrun,
      Taken.andThen, hrun']

section

variable {x y : NumberedDirective} {m : Modifiers}

/-- The source of the numbers is all that the directive has beyond its modifiers. -/
theorem ComesTo.directive (h : x.ComesTo m) (rest : List Arg) :
    (x.text.directive (x.args ++ rest)).map Directive.unsourced = x.ending.directive m rest := by
  -- Only the length is left to run through, and no mark of it sees the source.
  obtain ⟨m', rfl, hrun⟩ := h
  have hfront : m'.length.bits? = none →
      ∀ mark ∈ Mark.front x.ending.length, mark.isLength = true :=
    fun _ => x.ending.letters_first
  rw [DirectiveEnd.directive, Mark.run_unsourced x.ending.letter_or_digit hfront,
    Taken.finish_unsourced, DirectiveText.directive]
  simp only [text]
  rw [Mark.run_andThen, hrun]
  rfl

theorem ComesTo.segment (h : x.ComesTo m) (rest : List Arg) :
    (x.text.segment (x.args ++ rest)).map Segment.unsourced =
      (x.ending.directive m rest).andThen Directive.resolve := by
  rw [DirectiveText.segment, ← h.directive, Taken.map_andThen Directive.resolve_unsourced]

end

/-! ## Two spellings of a directive -/

/-- What the directive comes to alone. -/
theorem format_bytes (x : NumberedDirective) (r : Renderer) (args : List Arg) :
    format r x.bytes args =
      match (x.text.segment args).map Segment.unsourced with
      | (.ok segment, args) => ⟨segment.pieces r, args, none⟩
      | (.error fault, args) => ⟨[], args, some (fault.error 0)⟩ := by
  have hformat := format_directive r x.text [] args
  rw [List.append_nil] at hformat
  rw [bytes, hformat]
  rcases x.text.segment args with ⟨fault | segment, left⟩
  · rfl
  · simp [format_nil, Taken.map, Segment.pieces_unsourced]

theorem describe_eq (x : NumberedDirective) (front after : Bytes) (args : List Arg) :
    x.describe front after args =
      match (x.text.directive args).map Directive.unsourced with
      | (.ok d, args) => (.ok d, args)
      | (.error fault, args) => (.error (fault.error front.length), args) := by
  have hdrop : (front ++ 37 :: (x.text.bytes ++ after)).drop (front.length + 1) =
      x.text.bytes ++ after := by
    rw [List.drop_append]
    simp
  rw [describe, bytes, List.append_assoc, List.cons_append, DirectiveText.read_of_drop hdrop]
  rcases x.text.directive args with ⟨fault | d, left⟩ <;> rfl

/-- Two directives are the same with their own arguments at the cursor: they are read as one
directive but for the source of its numbers, the same arguments are left, and they write the same
with the same result. -/
structure Alike (x y : NumberedDirective) : Prop where
  directive : ∀ front after rest,
    x.describe front after (x.args ++ rest) = y.describe front after (y.args ++ rest)
  formatted : ∀ r front own rest, Preface r front own →
    format r (front ++ x.bytes) (own ++ (x.args ++ rest)) =
      format r (front ++ y.bytes) (own ++ (y.args ++ rest))
  written : ∀ {σ : Type} [Sink σ] (sink : σ) r front own rest, Preface r front own →
    Sink.format sink r (front ++ x.bytes) (own ++ (x.args ++ rest)) =
      Sink.format sink r (front ++ y.bytes) (own ++ (y.args ++ rest))

theorem alike_of_comesTo {x y : NumberedDirective} {m : Modifiers} (hx : x.ComesTo m)
    (hy : y.ComesTo m) (hending : x.ending = y.ending) : Alike x y := by
  have hformatted : ∀ r front own rest, Preface r front own →
      format r (front ++ x.bytes) (own ++ (x.args ++ rest)) =
        format r (front ++ y.bytes) (own ++ (y.args ++ rest)) := by
    intro r front own rest hpreface
    apply hpreface.format_congr
    rw [format_bytes, format_bytes, hx.segment, hy.segment, hending]
  refine ⟨?_, hformatted, ?_⟩
  · intro front after rest
    rw [describe_eq, describe_eq, hx.directive, hy.directive, hending]
  · intro σ _ sink r front own rest hpreface
    exact Sink.format_congr sink (hformatted r front own rest hpreface)

/-- A width that is out of range is rejected as soon as its argument is taken. -/
theorem directive_of_overflow {x : NumberedDirective} {arg : Arg} {n : Int}
    (hwidth : x.width = some (.argument arg)) (hvalue : (argument arg).value? = some n)
    (hn : 2147483647 < n.natAbs) (rest : List Arg) :
    x.text.directive (arg :: rest) = (.error .widthOverflow, rest) := by
  obtain ⟨f, hflags⟩ := x.flags.exists_flags
  have htake := takeInt_of_value? hvalue rest
  have hstar : Modifiers.star { flags := f } (arg :: rest) = (.error .widthOverflow, rest) := by
    simp [Modifiers.star, htake, Modifiers.starWidth_of_lt _ hn]
  rw [DirectiveText.directive]
  simp only [text, numberMarks, hwidth, widthMarks_some, marks]
  rw [List.append_assoc, Mark.run_andThen, hflags, Taken.andThen, List.append_assoc,
    List.singleton_append, Mark.run_cons, Mark.step, hstar]
  rfl

end NumberedDirective

open NumberedDirective

/-- A star means the number that its argument gives, whatever flags stand before it and whatever
length and conversion behind it. It is the same as that number in digits. For a width a negative
number is one more `-` and its magnitude, but -2^31 is rejected. For a precision it is as if the
point and the star were missing, apart from the argument. -/
theorem star_stands_for_number (flags : FlagRun) (ending : DirectiveEnd) :
    (∀ n p w w' q q', Option.Rel GivesWidth w n → Option.Rel GivesWidth w' n →
      Option.Rel GivesPrecision q p → Option.Rel GivesPrecision q' p →
      Alike ⟨flags, w, q, ending⟩ ⟨flags, w', q', ending⟩) ∧
    (∀ n p arg w q q', 1 ≤ n → GivesWidth (.argument arg) (-n) → GivesWidth w n →
      Option.Rel GivesPrecision q p → Option.Rel GivesPrecision q' p →
      Alike ⟨flags, some (.argument arg), q, ending⟩ ⟨flags.leftAdjusted, some w, q', ending⟩) ∧
    (∀ n p arg w w', p < 0 → GivesPrecision (.argument arg) p →
      Option.Rel GivesWidth w n → Option.Rel GivesWidth w' n →
      Alike ⟨flags, w, some (.argument arg), ending⟩ ⟨flags, w', none, ending⟩) ∧
    (∀ arg q, (argument arg).value? = some (-2 ^ (31 : Nat)) → ∀ front after rest,
      (describe ⟨flags, some (.argument arg), q, ending⟩ front after (arg :: rest)).1 =
          .error ⟨.invalidArgument, "width overflows int", front.length⟩ ∧
        ∀ r own, Preface r front own →
          (format r (front ++ (bytes ⟨flags, some (.argument arg), q, ending⟩ ++ after))
            (own ++ arg :: rest)).failure =
              some ⟨.invalidArgument, "width overflows int", front.length⟩) := by
  obtain ⟨f, hflags⟩ := flags.exists_flags
  refine ⟨?_, ?_, ?_, ?_⟩
  · intro n p w w' q q' hw hw' hq hq'
    exact alike_of_comesTo (comesTo hflags hw hq ending) (comesTo hflags hw' hq' ending) rfl
  · intro n p arg w q q' hn harg hw hq hq'
    have hnumbers : Modifiers.ofNumbers f (some (-n)) p =
        .ofNumbers (f.set .leftAdjust) (some n) p := by
      have hpos : 0 < n := by omega
      have hneg : ¬ n < 0 := by omega
      simp [Modifiers.ofNumbers, Flags.withWidth, hpos, hneg, Extent.ofWidth]
    have hx := comesTo hflags (.some harg) hq ending
    have hy := comesTo (FlagRun.run_leftAdjusted hflags) (.some hw) hq' ending
    rw [hnumbers] at hx
    exact alike_of_comesTo hx hy rfl
  · intro n p arg w w' hp harg hw hw'
    have hnumbers : Modifiers.ofNumbers f n (some p) = .ofNumbers f n none := by
      simp [Modifiers.ofNumbers, Extent.ofPrecision, hp]
    have hx := comesTo hflags hw (.some harg) ending
    have hy := comesTo hflags hw' .none ending
    rw [hnumbers] at hx
    exact alike_of_comesTo hx hy rfl
  · intro arg q hvalue front after rest
    have hdirective := directive_of_overflow (x := ⟨flags, some (.argument arg), q, ending⟩) rfl
      hvalue (by decide) rest
    refine ⟨?_, ?_⟩
    · rw [describe_eq, hdirective]
      rfl
    · intro r own hpreface
      have halone := format_directive r (text ⟨flags, some (.argument arg), q, ending⟩) after
        (arg :: rest)
      rw [DirectiveText.segment, hdirective] at halone
      rw [hpreface.format_behind, bytes, List.cons_append, halone]
      rfl

/-- A negative width and a precision from arguments are the digits behind one more `-`. -/
theorem star_stands_for_number_negative :
    format .full (latin ['%', '0', '*', '.', '*', 'd']) [.int (-7), .int 3, .int 5] =
      format .full (latin ['%', '0', '-', '7', '.', '3', 'd']) [.int 5] := by
  let flags : FlagRun := ⟨[.digit 0], by simp, by decide⟩
  let ending : DirectiveEnd :=
    ⟨[], 100, .signed, false, by simp, by simp [Mark.front], by decide, by simp⟩
  have hwidth : GivesWidth (.argument (.int (-7))) (-7) := ⟨by decide, by decide, by simp⟩
  have hdigits : GivesWidth (.inline [7]) 7 := ⟨by decide, by decide, by simp⟩
  have hprecision : GivesPrecision (.argument (.int 3)) 3 := ⟨by decide, by decide⟩
  have hdigits' : GivesPrecision (.inline [3]) 3 := ⟨by decide, by decide⟩
  have hpreface : Preface .full [] [] := ⟨by simp, by simp [format_nil], by simp [format_nil]⟩
  have halike := (star_stands_for_number flags ending).2.1 7 (some 3) _ _ _ _ (by decide) hwidth
    hdigits (.some hprecision) (.some hdigits')
  exact halike.formatted .full [] [] [.int 5] hpreface

end FormattedOutput
