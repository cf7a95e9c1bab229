import FormattedOutput.Proofs.Directive.Marks
import Mathlib.Data.List.Induction
import Mathlib.Data.List.TakeWhile

/-!
# The language of directives

Which rows of marks make a directive can be told without the parser. The letters have to spell a
length. The digits fall into a width, a precision and a number of bits, by what stands before them,
and each of these has its limit. The directive says what the marks say, whatever their order.
-/

namespace FormattedOutput

/-! ## Kinds of conversions -/

namespace Conversion

/-- The conversions that write an integer. -/
def integers : List Conversion :=
  [.signed, .unsigned .decimal, .unsigned .octal, .unsigned .hex, .unsigned .binary, .pointer]

/-- The conversions that read one character or a text. -/
def texts : List Conversion := [.char, .string]

theorem decide_mem_integers (conversion : Conversion) :
    decide (conversion ∈ integers) = conversion.isInteger := by
  cases conversion with
  | unsigned radix => cases radix <;> decide
  | float style => cases style <;> decide
  | _ => decide

theorem mem_texts_iff (conversion : Conversion) :
    conversion ∈ texts ↔ conversion.isText = true := by
  cases conversion with
  | unsigned radix => cases radix <;> decide
  | float style => cases style <;> decide
  | _ => decide

end Conversion

namespace Mark

/-! ## Parts of a row of marks -/

/-- The mark is a `w` or `wf`. Digits after it are a number of bits. -/
def isWide : Mark → Bool
  | .letter .w | .fast => true
  | _ => false

/-- The mark belongs to a length. -/
def isLength : Mark → Bool
  | .letter _ | .fast => true
  | _ => false

/-- The number of a digit. -/
def value? : Mark → Option Nat
  | .digit d => some d
  | _ => none

/-- The number that a row of digits stands for. -/
def numberOf (digits : List Nat) : Nat := digits.foldl (fun n d => n * 10 + d) 0

/-- The marks before a `w` or `wf`. -/
def front (marks : List Mark) : List Mark := marks.takeWhile (!isWide ·)

/-- The digits before the point, the zero flag among them. -/
def leadingDigits (marks : List Mark) : List Nat :=
  ((front marks).takeWhile (· ≠ .point)).filterMap value?

/-- The digits after the point. -/
def precisionDigits (marks : List Mark) : List Nat :=
  ((front marks).dropWhile (· ≠ .point)).filterMap value?

/-- The digits after a `w` or `wf`. -/
def bitDigits (marks : List Mark) : List Nat :=
  (marks.dropWhile (!isWide ·)).filterMap value?

/-- The first digit of all is a zero. -/
def hasZeroFlag (marks : List Mark) : Bool := (leadingDigits marks).head? = some 0

/-- The digits of the width. -/
def widthDigits (marks : List Mark) : List Nat :=
  if hasZeroFlag marks then (leadingDigits marks).tail else leadingDigits marks

/-- The length that a row of letters spells, with a number of bits. -/
def spelledLength? (letters : List Mark) (bits : Nat) : Option Length :=
  match letters with
  | [] => some .plain
  | [.letter .h] => some .half
  | [.letter .h, .letter .h] => some .halfHalf
  | [.letter .l] => some .long
  | [.letter .l, .letter .l] => some .longLong
  | [.letter .L] => some .longDouble
  | [.letter .j] => some .intMax
  | [.letter .z] => some .size
  | [.letter .t] => some .pointerDifference
  | [.letter .w] => some (.exact bits)
  | [.fast] => some (.fast bits)
  | _ => none

/-- The length that the marks spell, wherever the letters stand. -/
def length? (marks : List Mark) : Option Length :=
  spelledLength? (marks.filter isLength) (numberOf (bitDigits marks))

/-- The marks make a directive. -/
structure Admissible (marks : List Mark) : Prop where
  one_point : marks.count .point ≤ 1
  length : (length? marks).isSome
  one_zero : (widthDigits marks).head? ≠ some 0
  width_le : numberOf (widthDigits marks) ≤ 2147483647
  precision_le : numberOf (precisionDigits marks) ≤ 2147483647
  bits_le : numberOf (bitDigits marks) ≤ 64

/-- What the marks say. -/
def modifiers (marks : List Mark) : Modifiers where
  flags :=
    { alternate := .flag .alternate ∈ marks
      zeroPad := hasZeroFlag marks
      leftAdjust := .flag .leftAdjust ∈ marks
      spaceSign := .flag .spaceSign ∈ marks
      plusSign := .flag .plusSign ∈ marks }
  width := { given := widthDigits marks ≠ [], value := numberOf (widthDigits marks) }
  precision := { given := .point ∈ marks, value := numberOf (precisionDigits marks) }
  length := (length? marks).getD .plain

/-- The directive that the marks and a conversion make. -/
def describe (marks : List Mark) (conversion : Conversion) (uppercase : Bool) : Directive where
  flags :=
    { alternate := .flag .alternate ∈ marks || conversion = .pointer
      zeroPad := hasZeroFlag marks && !(conversion ∈ Conversion.integers && .point ∈ marks) &&
        !(.flag .leftAdjust ∈ marks : Bool)
      leftAdjust := .flag .leftAdjust ∈ marks
      spaceSign := .flag .spaceSign ∈ marks
      plusSign := .flag .plusSign ∈ marks }
  width := { given := widthDigits marks ≠ [], value := numberOf (widthDigits marks) }
  precision := { given := .point ∈ marks, value := numberOf (precisionDigits marks) }
  length := (length? marks).getD .plain
  conversion := conversion
  uppercase := uppercase

/-- A text starts with a directive that takes no argument for itself. Its conversion is the first
byte that is one, apart from the `f` of a `wf`. A wide character or text is no directive. -/
def Starts (text : Bytes) (d : Directive) (rest : Bytes) : Prop :=
  ∃ marks byte conversion uppercase, text = spell marks ++ byte :: rest ∧
    (byte, conversion, uppercase) ∈ Conversion.letters ∧
    (marks.getLast? = some (.letter .w) → byte ≠ 102) ∧ .star ∉ marks ∧ Admissible marks ∧
    (conversion ∈ Conversion.texts →
      length? marks ≠ some .long ∧ length? marks ≠ some .longDouble) ∧
    d = describe marks conversion uppercase

/-! ## One more mark -/

variable {marks : List Mark} {mark : Mark}

theorem numberOf_append (digits : List Nat) (d : Nat) :
    numberOf (digits ++ [d]) = numberOf digits * 10 + d := by
  simp [numberOf]

theorem takeWhile_concat (p : Mark → Bool) (marks : List Mark) (mark : Mark) :
    (marks ++ [mark]).takeWhile p =
      if marks.all p then marks ++ (if p mark then [mark] else []) else marks.takeWhile p := by
  induction marks with
  | nil => cases h : p mark <;> simp [h]
  | cons first marks ih =>
    rw [List.cons_append, List.takeWhile_cons, List.takeWhile_cons, ih, List.all_cons]
    cases p first
    · simp
    · cases marks.all p <;> simp

theorem dropWhile_concat (p : Mark → Bool) (marks : List Mark) (mark : Mark) :
    (marks ++ [mark]).dropWhile p =
      if marks.all p then (if p mark then [] else [mark]) else marks.dropWhile p ++ [mark] := by
  induction marks with
  | nil => cases h : p mark <;> simp [h]
  | cons first marks ih =>
    rw [List.cons_append, List.dropWhile_cons, List.dropWhile_cons, ih, List.all_cons]
    cases p first
    · simp
    · cases marks.all p <;> simp

theorem filterMap_value?_concat (marks : List Mark) (mark : Mark) :
    (marks ++ [mark]).filterMap value? = marks.filterMap value? ++ (value? mark).toList := by
  rw [List.filterMap_append]
  cases h : value? mark <;> simp [h]

/-- No `w` stands among the marks. -/
def isNarrow (marks : List Mark) : Bool := marks.all (!isWide ·)

theorem front_concat (marks : List Mark) (mark : Mark) :
    front (marks ++ [mark]) =
      if isNarrow marks then marks ++ (if isWide mark then [] else [mark]) else front marks := by
  unfold front isNarrow
  rw [takeWhile_concat]
  cases isWide mark <;> rfl

theorem front_of_narrow (h : isNarrow marks = true) : front marks = marks :=
  List.takeWhile_eq_self_iff.mpr (List.all_eq_true.mp h)

/-- A digit is one of the number of bits just if a `w` stands before it. -/
theorem bitDigits_concat (marks : List Mark) (mark : Mark) :
    bitDigits (marks ++ [mark]) =
      if isNarrow marks then [] else bitDigits marks ++ (value? mark).toList := by
  unfold bitDigits isNarrow
  rw [dropWhile_concat]
  split_ifs with hnarrow hwide
  · rfl
  · cases mark with
    | letter x => rfl
    | fast => rfl
    | _ => simp [isWide] at hwide
  · exact filterMap_value?_concat _ _

theorem isWide_value? (h : isWide mark = true) : value? mark = none := by
  cases mark with
  | letter x => rfl
  | fast => rfl
  | _ => simp [isWide] at h

theorem all_ne_point (h : .point ∉ marks) : marks.all (· ≠ .point) = true := by
  rw [List.all_eq_true]
  intro mark hmark
  rw [decide_eq_true_eq]
  rintro rfl
  exact h hmark

theorem takeWhile_ne_point (h : .point ∉ marks) : marks.takeWhile (· ≠ .point) = marks :=
  List.takeWhile_eq_self_iff.mpr (List.all_eq_true.mp (all_ne_point h))

theorem dropWhile_ne_point (h : .point ∉ marks) : marks.dropWhile (· ≠ .point) = [] :=
  List.dropWhile_eq_nil_iff.mpr (List.all_eq_true.mp (all_ne_point h))

theorem not_all_ne_point (h : .point ∈ marks) : ¬marks.all (· ≠ .point) = true := by
  intro hall
  have hne := List.all_eq_true.mp hall .point h
  rw [decide_eq_true_eq] at hne
  exact hne rfl

/-- A digit is one of the precision if the point stands before it, and no `w`. -/
theorem precisionDigits_concat (marks : List Mark) (mark : Mark) :
    precisionDigits (marks ++ [mark]) =
      if isNarrow marks then
        (if .point ∈ marks then precisionDigits marks ++ (value? mark).toList else [])
      else precisionDigits marks := by
  unfold precisionDigits
  rw [front_concat]
  split_ifs with hnarrow hwide hpoint hpoint
  · rw [front_of_narrow hnarrow, isWide_value? hwide]
    simp
  · rw [List.append_nil, dropWhile_ne_point hpoint]
    rfl
  · rw [front_of_narrow hnarrow, dropWhile_concat, if_neg (not_all_ne_point hpoint)]
    exact filterMap_value?_concat _ _
  · rw [dropWhile_concat, if_pos (all_ne_point hpoint)]
    split_ifs with hmark
    · rfl
    · obtain rfl : mark = .point := by simpa using hmark
      rfl
  · rfl

/-- A digit is a leading one if neither a point nor a `w` stands before it. -/
theorem leadingDigits_concat (marks : List Mark) (mark : Mark) :
    leadingDigits (marks ++ [mark]) =
      if isNarrow marks ∧ .point ∉ marks then leadingDigits marks ++ (value? mark).toList
      else leadingDigits marks := by
  unfold leadingDigits
  rw [front_concat]
  by_cases hnarrow : isNarrow marks = true
  · rw [if_pos hnarrow, front_of_narrow hnarrow]
    by_cases hpoint : .point ∈ marks
    · have hcond : ¬(isNarrow marks = true ∧ .point ∉ marks) := fun h => h.2 hpoint
      rw [if_neg hcond]
      by_cases hwide : isWide mark = true
      · rw [if_pos hwide, List.append_nil]
      · rw [if_neg hwide, takeWhile_concat, if_neg (not_all_ne_point hpoint)]
    · have hcond : isNarrow marks = true ∧ .point ∉ marks := ⟨hnarrow, hpoint⟩
      rw [if_pos hcond, takeWhile_ne_point hpoint]
      by_cases hwide : isWide mark = true
      · rw [if_pos hwide, List.append_nil, takeWhile_ne_point hpoint, isWide_value? hwide]
        simp
      · rw [if_neg hwide, takeWhile_concat, if_pos (all_ne_point hpoint)]
        by_cases hmark : mark = .point
        · rw [hmark]
          simp [value?]
        · rw [if_pos (by simpa using hmark)]
          exact filterMap_value?_concat _ _
  · have hcond : ¬(isNarrow marks = true ∧ .point ∉ marks) := fun h => hnarrow h.1
    rw [if_neg hnarrow, if_neg hcond]

/-! ## The length -/

theorem isNarrow_filter (marks : List Mark) :
    isNarrow (marks.filter isLength) = isNarrow marks := by
  unfold isNarrow
  induction marks with
  | nil => rfl
  | cons first marks ih =>
    rw [List.all_cons, ← ih]
    cases first with
    | letter x => rfl
    | fast => rfl
    | _ => rfl

/-- The length carries a number of bits just if a `w` stands among its letters. -/
theorem bits?_of_spelledLength? {letters : List Mark} {bits : Nat} {length : Length}
    (h : spelledLength? letters bits = some length) :
    length.bits? = if isNarrow letters then none else some bits := by
  unfold spelledLength? at h
  split at h <;> first
    | contradiction
    | (obtain rfl := Option.some.inj h
       rfl)

/-- One more letter extends the length. -/
theorem spelledLength?_letter {letters : List Mark} {bits : Nat} {length : Length}
    (h : spelledLength? letters bits = some length) (x : LengthLetter) :
    spelledLength? (letters ++ [.letter x]) 0 = length.extend? x := by
  unfold spelledLength? at h
  split at h <;> first
    | contradiction
    | (obtain rfl := Option.some.inj h
       cases x <;> rfl)

theorem spelledLength?_fast {letters : List Mark} {bits : Nat} {length : Length}
    (h : spelledLength? letters bits = some length) :
    spelledLength? (letters ++ [.fast]) 0 = (length.extend? .w).map fun _ => .fast 0 := by
  unfold spelledLength? at h
  split at h <;> first
    | contradiction
    | (obtain rfl := Option.some.inj h
       rfl)

/-- Nothing extends a length with a number of bits. -/
theorem spelledLength?_wide {letters : List Mark} {mark : Mark} {bits : Nat} {length : Length}
    (h : spelledLength? letters bits = some length) (hwide : isNarrow letters = false)
    (hmark : isLength mark = true) (bits' : Nat) :
    spelledLength? (letters ++ [mark]) bits' = none := by
  unfold spelledLength? at h
  split at h <;> first
    | contradiction
    | (cases mark <;> first
        | contradiction
        | rfl)

/-- The letters stay a length with another number of bits. -/
theorem spelledLength?_bits {letters : List Mark} {bits : Nat} {length : Length}
    (h : spelledLength? letters bits = some length) (bits' : Nat) :
    spelledLength? letters bits' = some (length.withBits bits') := by
  unfold spelledLength? at h
  split at h <;> first
    | contradiction
    | (obtain rfl := Option.some.inj h
       rfl)

/-- What spells a length does so without its last letter. -/
theorem isSome_spelledLength?_of_concat {letters : List Mark} {mark : Mark} {bits : Nat}
    (h : (spelledLength? (letters ++ [mark]) bits).isSome) :
    (spelledLength? letters bits).isSome := by
  match letters with
  | [] => rfl
  | [first] =>
    unfold spelledLength? at h
    split at h <;> simp_all [spelledLength?]
  | first :: second :: letters =>
    unfold spelledLength? at h
    split at h <;> simp_all

/-! ## What one mark does -/

variable {args args' : List Arg} {m : Modifiers}

theorem bitDigits_of_narrow (h : isNarrow marks = true) : bitDigits marks = [] := by
  unfold bitDigits
  rw [List.dropWhile_eq_nil_iff.mpr (List.all_eq_true.mp h)]
  rfl

theorem precisionDigits_of_not_mem (h : .point ∉ marks) : precisionDigits marks = [] := by
  have hfront : .point ∉ front marks := fun hmem => h ((List.takeWhile_sublist _).mem hmem)
  unfold precisionDigits
  rw [dropWhile_ne_point hfront]
  rfl

/-- A mark that is no digit leaves the digits as they are. -/
theorem digits_concat (h : value? mark = none) :
    leadingDigits (marks ++ [mark]) = leadingDigits marks ∧
      precisionDigits (marks ++ [mark]) = precisionDigits marks ∧
      bitDigits (marks ++ [mark]) = bitDigits marks := by
  rw [leadingDigits_concat, precisionDigits_concat, bitDigits_concat, h]
  simp only [Option.toList_none, List.append_nil, ite_self, true_and]
  constructor
  · split_ifs with hnarrow hpoint
    · rfl
    · exact (precisionDigits_of_not_mem hpoint).symm
    · rfl
  · split_ifs with hnarrow
    · exact (bitDigits_of_narrow hnarrow).symm
    · rfl

theorem widthDigits_congr {marks' : List Mark} (h : leadingDigits marks' = leadingDigits marks) :
    hasZeroFlag marks' = hasZeroFlag marks ∧ widthDigits marks' = widthDigits marks := by
  have hzero : hasZeroFlag marks' = hasZeroFlag marks := by
    unfold hasZeroFlag
    rw [h]
  refine ⟨hzero, ?_⟩
  unfold widthDigits
  rw [hzero, h]

/-- A mark outside the length leaves the letters as they are. -/
theorem length?_concat (h : isLength mark = false) :
    length? (marks ++ [mark]) =
      spelledLength? (marks.filter isLength) (numberOf (bitDigits (marks ++ [mark]))) := by
  unfold length?
  rw [List.filter_append, List.filter_cons_of_neg (by simp [h]), List.filter_nil, List.append_nil]

theorem length?_concat_of_none (hvalue : value? mark = none) (hmark : isLength mark = false) :
    length? (marks ++ [mark]) = length? marks := by
  rw [length?_concat hmark, (digits_concat hvalue).2.2]
  rfl

/-- One more letter comes before any number of bits. -/
theorem length?_concat_letter (h : (length? marks).isSome) (hvalue : value? mark = none)
    (hmark : isLength mark = true) :
    length? (marks ++ [mark]) = spelledLength? (marks.filter isLength ++ [mark]) 0 := by
  obtain ⟨length, hlength⟩ := Option.isSome_iff_exists.mp h
  unfold length? at hlength ⊢
  rw [(digits_concat hvalue).2.2, List.filter_append, List.filter_cons_of_pos hmark,
    List.filter_nil]
  by_cases hnarrow : isNarrow marks = true
  · rw [bitDigits_of_narrow hnarrow]
    rfl
  · rw [Bool.not_eq_true, ← isNarrow_filter] at hnarrow
    rw [spelledLength?_wide hlength hnarrow hmark, spelledLength?_wide hlength hnarrow hmark]

/-- A mark that is no digit is admissible if it is not a second point and leaves a length. -/
theorem Admissible.concat (h : Admissible marks) (hvalue : value? mark = none)
    (hpoint : mark = .point → .point ∉ marks) (hlength : (length? (marks ++ [mark])).isSome) :
    Admissible (marks ++ [mark]) := by
  obtain ⟨hlead, hprecision, hbits⟩ := @digits_concat marks mark hvalue
  obtain ⟨_, hwidth⟩ := widthDigits_congr hlead
  constructor
  · rw [List.count_append]
    by_cases hmark : mark = .point
    · rw [List.count_eq_zero_of_not_mem (hpoint hmark), hmark, List.count_singleton_self]
    · have hnone : List.count .point [mark] = 0 :=
        List.count_eq_zero_of_not_mem (by simpa using Ne.symm hmark)
      rw [hnone]
      exact h.one_point
  · exact hlength
  · rw [hwidth]
    exact h.one_zero
  · rw [hwidth]
    exact h.width_le
  · rw [hprecision]
    exact h.precision_le
  · rw [hbits]
    exact h.bits_le

theorem step_flag (f : Flag) (args : List Arg) :
    step (modifiers marks) args (.flag f) = (.ok (modifiers (marks ++ [.flag f])), args) := by
  obtain ⟨hlead, hprecision, hbits⟩ := @digits_concat marks (.flag f) rfl
  obtain ⟨hzero, hwidth⟩ := widthDigits_congr hlead
  unfold step modifiers
  rw [hzero, hwidth, hprecision, length?_concat_of_none rfl rfl]
  cases f <;> simp [Flags.set]

theorem step_point (args : List Arg) : step (modifiers marks) args .point =
    if .point ∈ marks then (.error .repeatedPrecision, args)
    else (.ok (modifiers (marks ++ [.point])), args) := by
  obtain ⟨hlead, hprecision, hbits⟩ := @digits_concat marks .point rfl
  obtain ⟨hzero, hwidth⟩ := widthDigits_congr hlead
  unfold step Modifiers.point modifiers
  rw [hzero, hwidth, hprecision, length?_concat_of_none rfl rfl]
  by_cases hpoint : .point ∈ marks <;> simp [hpoint]

theorem not_point_mem_of_concat (h : Admissible (marks ++ [.point])) : .point ∉ marks := by
  intro hmem
  have hpos := List.count_pos_iff.mpr hmem
  have hone := h.one_point
  rw [List.count_append, List.count_singleton_self] at hone
  omega

theorem step_letter (h : (length? marks).isSome) (x : LengthLetter) (args : List Arg) :
    step (modifiers marks) args (.letter x) =
      if (length? (marks ++ [.letter x])).isSome then
        (.ok (modifiers (marks ++ [.letter x])), args)
      else (.error .conflictingLengths, args) := by
  obtain ⟨hlead, hprecision, hbits⟩ := @digits_concat marks (.letter x) rfl
  obtain ⟨hzero, hwidth⟩ := widthDigits_congr hlead
  have hlength := @length?_concat_letter marks (.letter x) h rfl rfl
  obtain ⟨length, hsome⟩ := Option.isSome_iff_exists.mp h
  rw [spelledLength?_letter hsome] at hlength
  unfold step modifiers
  rw [hzero, hwidth, hprecision, hlength, hsome, Option.getD_some]
  cases hx : length.extend? x <;> simp [hx]

theorem step_fast (h : (length? marks).isSome) (args : List Arg) :
    step (modifiers marks) args .fast =
      if (length? (marks ++ [.fast])).isSome then (.ok (modifiers (marks ++ [.fast])), args)
      else (.error .conflictingLengths, args) := by
  obtain ⟨hlead, hprecision, hbits⟩ := @digits_concat marks .fast rfl
  obtain ⟨hzero, hwidth⟩ := widthDigits_congr hlead
  have hlength := @length?_concat_letter marks .fast h rfl rfl
  obtain ⟨length, hsome⟩ := Option.isSome_iff_exists.mp h
  rw [spelledLength?_fast hsome] at hlength
  unfold step modifiers
  rw [hzero, hwidth, hprecision, hlength, hsome, Option.getD_some]
  cases length.extend? .w <;> simp

/-! ## What one digit does -/

/-- The digits of the width take a digit at their end, unless it is the zero flag. -/
theorem widthDigits_concat {n : Nat}
    (hlead : leadingDigits (marks ++ [mark]) = leadingDigits marks ++ [n])
    (hwidth : widthDigits marks ≠ [] ∨ n ≠ 0) :
    hasZeroFlag (marks ++ [mark]) = hasZeroFlag marks ∧
      widthDigits (marks ++ [mark]) = widthDigits marks ++ [n] := by
  unfold widthDigits hasZeroFlag at *
  rw [hlead]
  cases hdigits : leadingDigits marks with
  | nil =>
    rw [hdigits] at hwidth
    simpa using hwidth
  | cons first digits =>
    simp only [List.cons_append, List.head?_cons, List.tail_cons]
    by_cases hfirst : first = 0 <;> simp [hfirst]

/-- A zero before the width is the zero flag, and only once. -/
theorem zeroFlag_concat (hlead : leadingDigits (marks ++ [mark]) = leadingDigits marks ++ [0])
    (hwidth : widthDigits marks = []) :
    hasZeroFlag (marks ++ [mark]) = true ∧
      widthDigits (marks ++ [mark]) = if hasZeroFlag marks then [0] else [] := by
  unfold widthDigits hasZeroFlag at *
  rw [hlead]
  cases hdigits : leadingDigits marks with
  | nil => simp
  | cons first digits =>
    rw [hdigits] at hwidth
    by_cases hzero : first = 0
    · subst hzero
      simp at hwidth
      simp [hwidth]
    · simp [hzero] at hwidth

/-- A digit is admissible if the numbers that it belongs to keep their limits. -/
theorem admissible_digit_iff (h : Admissible marks) (d : Fin 10) :
    Admissible (marks ++ [.digit d]) ↔
      (widthDigits (marks ++ [.digit d])).head? ≠ some 0 ∧
      numberOf (widthDigits (marks ++ [.digit d])) ≤ 2147483647 ∧
      numberOf (precisionDigits (marks ++ [.digit d])) ≤ 2147483647 ∧
      numberOf (bitDigits (marks ++ [.digit d])) ≤ 64 := by
  constructor
  · intro hadm
    exact ⟨hadm.one_zero, hadm.width_le, hadm.precision_le, hadm.bits_le⟩
  · rintro ⟨hzero, hwidth, hprecision, hbits⟩
    refine ⟨?_, ?_, hzero, hwidth, hprecision, hbits⟩
    · rw [List.count_append]
      exact h.one_point
    · obtain ⟨length, hlength⟩ := Option.isSome_iff_exists.mp h.length
      rw [length?_concat rfl, spelledLength?_bits hlength]
      rfl

theorem modifiers_concat_digit (marks : List Mark) (d : Fin 10) :
    modifiers (marks ++ [.digit d]) =
      { flags :=
          { (modifiers marks).flags with zeroPad := hasZeroFlag (marks ++ [.digit d]) }
        width :=
          { given := widthDigits (marks ++ [.digit d]) ≠ []
            value := numberOf (widthDigits (marks ++ [.digit d])) }
        precision :=
          { given := .point ∈ marks
            value := numberOf (precisionDigits (marks ++ [.digit d])) }
        length := (length? (marks ++ [.digit d])).getD .plain } := by
  simp [modifiers]

theorem length_modifiers {length : Length} (h : length? marks = some length) :
    (modifiers marks).length = length := by
  unfold modifiers
  rw [h]
  rfl

/-- A mark is taken if the marks are admissible with it, and refused if they are not. -/
def Decides (marks : List Mark) (mark : Mark) (args : List Arg) : Prop :=
  Admissible (marks ++ [mark]) ∧
      step (modifiers marks) args mark = (.ok (modifiers (marks ++ [mark])), args) ∨
    ¬Admissible (marks ++ [mark]) ∧ ∃ fault, step (modifiers marks) args mark = (.error fault, args)

theorem decides_of_ok (h : Admissible (marks ++ [mark]))
    (hstep : step (modifiers marks) args mark = (.ok (modifiers (marks ++ [mark])), args)) :
    Decides marks mark args := Or.inl ⟨h, hstep⟩

theorem decides_of_error {fault : Fault} (h : ¬Admissible (marks ++ [mark]))
    (hstep : step (modifiers marks) args mark = (.error fault, args)) :
    Decides marks mark args := Or.inr ⟨h, fault, hstep⟩

/-- After a `w` a digit belongs to the number of bits. -/
theorem decides_bitDigit (h : Admissible marks) (d : Fin 10) (args : List Arg)
    (hwide : isNarrow marks = false) : Decides marks (.digit d) args := by
  have hlead : leadingDigits (marks ++ [.digit d]) = leadingDigits marks := by
    rw [leadingDigits_concat, if_neg (by simp [hwide])]
  have hprecision : precisionDigits (marks ++ [.digit d]) = precisionDigits marks := by
    rw [precisionDigits_concat, if_neg (by simp [hwide])]
  have hbits : bitDigits (marks ++ [.digit d]) = bitDigits marks ++ [(d : Nat)] := by
    rw [bitDigits_concat, if_neg (by simp [hwide])]
    rfl
  obtain ⟨hzero, hwidth⟩ := widthDigits_congr hlead
  obtain ⟨length, hlength⟩ := Option.isSome_iff_exists.mp h.length
  have hlengthBits : length.bits? = some (numberOf (bitDigits marks)) := by
    rw [bits?_of_spelledLength? hlength, isNarrow_filter, hwide]
    rfl
  have hnext : length? (marks ++ [.digit d]) =
      some (length.withBits (numberOf (bitDigits marks) * 10 + d)) := by
    rw [length?_concat rfl, spelledLength?_bits hlength, hbits, numberOf_append]
  have hadm : Admissible (marks ++ [.digit d]) ↔ numberOf (bitDigits marks) * 10 + d ≤ 64 := by
    rw [admissible_digit_iff h, hwidth, hprecision, hbits, numberOf_append]
    exact ⟨fun hall => hall.2.2.2, fun hle => ⟨h.one_zero, h.width_le, h.precision_le, hle⟩⟩
  have hstep : step (modifiers marks) args (.digit d) =
      ((modifiers marks).bitDigit (numberOf (bitDigits marks)) d, args) := by
    unfold step Modifiers.digit
    simp only [length_modifiers hlength, hlengthBits]
  unfold Modifiers.bitDigit at hstep
  by_cases hle : numberOf (bitDigits marks) * 10 + d ≤ 64
  · apply decides_of_ok (hadm.mpr hle)
    rw [hstep, if_neg (Nat.not_lt.mpr hle), modifiers_concat_digit, hzero, hwidth, hprecision,
      hnext, length_modifiers hlength]
    rfl
  · rw [if_pos (Nat.not_le.mp hle)] at hstep
    exact decides_of_error (mt hadm.mp hle) hstep

/-- Before a `w` there is no number of bits, and a digit does not make one. -/
theorem bitDigits_digit_of_narrow (hnarrow : isNarrow marks = true) (d : Fin 10) :
    bitDigits (marks ++ [.digit d]) = bitDigits marks := by
  rw [bitDigits_concat, if_pos hnarrow, bitDigits_of_narrow hnarrow]

theorem length?_digit_of_narrow (h : (length? marks).isSome) (hnarrow : isNarrow marks = true)
    (d : Fin 10) : ∃ length, length? marks = some length ∧ length.bits? = none ∧
      length? (marks ++ [.digit d]) = some length := by
  obtain ⟨length, hlength⟩ := Option.isSome_iff_exists.mp h
  refine ⟨length, hlength, ?_, ?_⟩
  · rw [bits?_of_spelledLength? hlength, isNarrow_filter, hnarrow]
    rfl
  · rw [length?_concat rfl, bitDigits_digit_of_narrow hnarrow]
    exact hlength

/-- Before the point and the `w` a digit is a leading one. -/
theorem leadingDigits_digit (hnarrow : isNarrow marks = true) (hpoint : .point ∉ marks)
    (d : Fin 10) :
    leadingDigits (marks ++ [.digit d]) = leadingDigits marks ++ [(d : Nat)] ∧
      precisionDigits (marks ++ [.digit d]) = precisionDigits marks := by
  constructor
  · rw [leadingDigits_concat, if_pos ⟨hnarrow, hpoint⟩]
    rfl
  · rw [precisionDigits_concat, if_pos hnarrow, if_neg hpoint, precisionDigits_of_not_mem hpoint]

/-- After the point a digit belongs to the precision. -/
theorem decides_precisionDigit (h : Admissible marks) (d : Fin 10) (args : List Arg)
    (hnarrow : isNarrow marks = true) (hpoint : .point ∈ marks) :
    Decides marks (.digit d) args := by
  have hlead : leadingDigits (marks ++ [.digit d]) = leadingDigits marks := by
    rw [leadingDigits_concat, if_neg fun hcond => hcond.2 hpoint]
  have hprecision : precisionDigits (marks ++ [.digit d]) =
      precisionDigits marks ++ [(d : Nat)] := by
    rw [precisionDigits_concat, if_pos hnarrow, if_pos hpoint]
    rfl
  have hbits := bitDigits_digit_of_narrow hnarrow d
  obtain ⟨hzero, hwidth⟩ := widthDigits_congr hlead
  obtain ⟨length, hlength, hlengthBits, hnext⟩ := length?_digit_of_narrow h.length hnarrow d
  have hadm : Admissible (marks ++ [.digit d]) ↔
      numberOf (precisionDigits marks) * 10 + d ≤ 2147483647 := by
    rw [admissible_digit_iff h, hwidth, hprecision, hbits, numberOf_append]
    exact ⟨fun hall => hall.2.2.1, fun hle => ⟨h.one_zero, h.width_le, hle, h.bits_le⟩⟩
  have hgiven : (modifiers marks).precision.given = true := by simp [modifiers, hpoint]
  have hinline : (modifiers marks).precision.inline = true := by
    unfold Extent.inline
    rw [hgiven]
    rfl
  have hstep : step (modifiers marks) args (.digit d) =
      ((modifiers marks).precisionDigit d, args) := by
    unfold step Modifiers.digit
    simp [length_modifiers hlength, hlengthBits, hinline, hgiven]
  have hvalue : (modifiers marks).precision.value = numberOf (precisionDigits marks) := rfl
  have hargument : (modifiers marks).precision.fromArgument = false := rfl
  unfold Modifiers.precisionDigit at hstep
  rw [hargument, if_neg Bool.false_ne_true, hvalue, appendDigit?_natCast] at hstep
  by_cases hle : numberOf (precisionDigits marks) * 10 + d ≤ 2147483647
  · apply decides_of_ok (hadm.mpr hle)
    rw [hstep, if_pos hle, modifiers_concat_digit, hzero, hwidth, hprecision, hnext,
      numberOf_append]
    simp [modifiers, hlength, hpoint]
  · rw [if_neg hle] at hstep
    exact decides_of_error (mt hadm.mp hle) hstep

/-- A first zero is the zero flag. -/
theorem decides_zeroFlag (h : Admissible marks) (args : List Arg) (hnarrow : isNarrow marks = true)
    (hpoint : .point ∉ marks) (hfirst : widthDigits marks = []) :
    Decides marks (.digit 0) args := by
  obtain ⟨hlead, hprecision⟩ := leadingDigits_digit hnarrow hpoint 0
  have hbits := bitDigits_digit_of_narrow hnarrow 0
  obtain ⟨hzero, hwidth⟩ := zeroFlag_concat hlead hfirst
  obtain ⟨length, hlength, hlengthBits, hnext⟩ := length?_digit_of_narrow h.length hnarrow 0
  have hprecisionInline : (modifiers marks).precision.inline = false := by
    simp [Extent.inline, modifiers, hpoint]
  -- No number has begun, so the zero is read as a flag.
  have hwidthInline : (modifiers marks).width.inline = false := by
    simp [Extent.inline, modifiers, hfirst]
  have hstep : step (modifiers marks) args (.digit 0) = ((modifiers marks).zeroFlag, args) := by
    unfold step Modifiers.digit
    simp [length_modifiers hlength, hlengthBits, hprecisionInline, hwidthInline]
  have hflag : (modifiers marks).flags.zeroPad = hasZeroFlag marks := rfl
  unfold Modifiers.zeroFlag at hstep
  rw [hflag] at hstep
  -- A second one is refused, and then it would be the first digit of a width.
  by_cases hset : hasZeroFlag marks = true
  · rw [if_pos hset] at hstep hwidth
    refine decides_of_error ?_ hstep
    rw [admissible_digit_iff h, hwidth]
    simp
  · rw [if_neg hset] at hstep hwidth
    apply decides_of_ok
    · rw [admissible_digit_iff h, hwidth, hprecision, hbits]
      exact ⟨by simp, by decide, h.precision_le, h.bits_le⟩
    · rw [hstep, modifiers_concat_digit, hzero, hwidth, hprecision, hnext]
      simp [modifiers, hlength, hfirst]

/-- Before the point any other digit belongs to the width. -/
theorem decides_widthDigit (h : Admissible marks) (d : Fin 10) (args : List Arg)
    (hnarrow : isNarrow marks = true) (hpoint : .point ∉ marks)
    (hfirst : widthDigits marks ≠ [] ∨ (d : Nat) ≠ 0) : Decides marks (.digit d) args := by
  obtain ⟨hlead, hprecision⟩ := leadingDigits_digit hnarrow hpoint d
  have hbits := bitDigits_digit_of_narrow hnarrow d
  obtain ⟨hzero, hwidth⟩ := widthDigits_concat hlead hfirst
  obtain ⟨length, hlength, hlengthBits, hnext⟩ := length?_digit_of_narrow h.length hnarrow d
  -- The zero flag is set apart, so the first digit of the width is not a zero.
  have hhead : (widthDigits marks ++ [(d : Nat)]).head? ≠ some 0 := by
    have hone := h.one_zero
    cases hdigits : widthDigits marks with
    | nil =>
      rw [hdigits] at hfirst
      simpa using hfirst
    | cons first digits =>
      rw [hdigits] at hone
      exact hone
  have hadm : Admissible (marks ++ [.digit d]) ↔
      numberOf (widthDigits marks) * 10 + d ≤ 2147483647 := by
    rw [admissible_digit_iff h, hwidth, hprecision, hbits, numberOf_append]
    exact ⟨fun hall => hall.2.1, fun hle => ⟨hhead, hle, h.precision_le, h.bits_le⟩⟩
  have hgiven : (modifiers marks).precision.given = false := by simp [modifiers, hpoint]
  have hstep : step (modifiers marks) args (.digit d) =
      ((modifiers marks).widthDigit d, args) := by
    unfold step Modifiers.digit
    -- A digit is no flag if the width has begun or if it is not a zero.
    rcases hfirst with hstarted | hnonzero
    · have hwidthInline : (modifiers marks).width.inline = true := by
        simp [Extent.inline, modifiers, hstarted]
      simp [length_modifiers hlength, hlengthBits, hgiven, hwidthInline]
    · simp only [length_modifiers hlength, hlengthBits]
      simp [hnonzero, hgiven]
  have hvalue : (modifiers marks).width.value = numberOf (widthDigits marks) := rfl
  have hargument : ((modifiers marks).width.fromArgument ||
      (modifiers marks).precision.fromArgument) = false := rfl
  unfold Modifiers.widthDigit at hstep
  rw [hargument, if_neg Bool.false_ne_true, hvalue, appendDigit?_natCast] at hstep
  by_cases hle : numberOf (widthDigits marks) * 10 + d ≤ 2147483647
  · apply decides_of_ok (hadm.mpr hle)
    rw [hstep, if_pos hle, modifiers_concat_digit, hzero, hwidth, hprecision, hnext,
      numberOf_append]
    simp [modifiers, hlength]
  · rw [if_neg hle] at hstep
    exact decides_of_error (mt hadm.mp hle) hstep

/-- Every mark that is not a star is decided. -/
theorem decides (h : Admissible marks) (hstar : mark ≠ .star) (args : List Arg) :
    Decides marks mark args := by
  cases mark with
  | flag f =>
    refine decides_of_ok (h.concat rfl (by simp) ?_) (step_flag f args)
    rw [length?_concat_of_none rfl rfl]
    exact h.length
  | digit d =>
    by_cases hnarrow : isNarrow marks = true
    · by_cases hpoint : .point ∈ marks
      · exact decides_precisionDigit h d args hnarrow hpoint
      · by_cases hfirst : widthDigits marks ≠ [] ∨ (d : Nat) ≠ 0
        · exact decides_widthDigit h d args hnarrow hpoint hfirst
        · push Not at hfirst
          obtain rfl : d = 0 := Fin.ext hfirst.2
          exact decides_zeroFlag h args hnarrow hpoint hfirst.1
    · exact decides_bitDigit h d args (by simpa using hnarrow)
  | point =>
    have hstep := @step_point marks args
    by_cases hpoint : .point ∈ marks
    · rw [if_pos hpoint] at hstep
      exact decides_of_error (fun hadm => not_point_mem_of_concat hadm hpoint) hstep
    · rw [if_neg hpoint] at hstep
      refine decides_of_ok (h.concat rfl (fun _ => hpoint) ?_) hstep
      rw [length?_concat_of_none rfl rfl]
      exact h.length
  | star => contradiction
  | letter x =>
    have hstep := step_letter h.length x args
    by_cases hlength : (length? (marks ++ [.letter x])).isSome
    · rw [if_pos hlength] at hstep
      exact decides_of_ok (h.concat rfl (by simp) hlength) hstep
    · rw [if_neg hlength] at hstep
      exact decides_of_error (fun hadm => hlength hadm.length) hstep
  | fast =>
    have hstep := step_fast h.length args
    by_cases hlength : (length? (marks ++ [.fast])).isSome
    · rw [if_pos hlength] at hstep
      exact decides_of_ok (h.concat rfl (by simp) hlength) hstep
    · rw [if_neg hlength] at hstep
      exact decides_of_error (fun hadm => hlength hadm.length) hstep

/-! ## Fewer marks -/

theorem numberOf_le (digits : List Nat) (last : Option Nat) :
    numberOf digits ≤ numberOf (digits ++ last.toList) := by
  cases last with
  | none =>
    rw [Option.toList_none, List.append_nil]
  | some n =>
    rw [Option.toList_some, numberOf_append]
    omega

theorem isSome_length?_of_concat (h : (length? (marks ++ [mark])).isSome) :
    (length? marks).isSome := by
  have hletters : ∀ bits, (spelledLength? (marks.filter isLength) bits).isSome →
      (length? marks).isSome := by
    intro bits hsome
    obtain ⟨length, hlength⟩ := Option.isSome_iff_exists.mp hsome
    unfold length?
    rw [spelledLength?_bits hlength]
    rfl
  -- A letter made the length longer, anything else at most its number of bits.
  by_cases hmark : isLength mark = true
  · unfold length? at h
    rw [List.filter_append, List.filter_cons_of_pos hmark, List.filter_nil] at h
    exact hletters _ (isSome_spelledLength?_of_concat h)
  · rw [length?_concat (by simpa using hmark)] at h
    exact hletters _ h

/-- The digits of the width start like those of fewer marks. -/
theorem widthDigits_prefix (marks : List Mark) (mark : Mark) :
    widthDigits marks = [] ∨ ∃ last : Option Nat,
      widthDigits (marks ++ [mark]) = widthDigits marks ++ last.toList := by
  have hlead := leadingDigits_concat marks mark
  by_cases hempty : widthDigits marks = []
  · exact Or.inl hempty
  · right
    split_ifs at hlead with hcond
    · cases hvalue : value? mark with
      | none =>
        rw [hvalue, Option.toList_none, List.append_nil] at hlead
        exact ⟨none, by rw [(widthDigits_congr hlead).2, Option.toList_none, List.append_nil]⟩
      | some n =>
        rw [hvalue, Option.toList_some] at hlead
        exact ⟨some n, (widthDigits_concat hlead (Or.inl hempty)).2⟩
    · exact ⟨none, by rw [(widthDigits_congr hlead).2, Option.toList_none, List.append_nil]⟩

/-- Marks are admissible without the last one. -/
theorem Admissible.of_concat (h : Admissible (marks ++ [mark])) : Admissible marks := by
  have hwidth := widthDigits_prefix marks mark
  refine ⟨?_, isSome_length?_of_concat h.length, ?_, ?_, ?_, ?_⟩
  · have hone := h.one_point
    rw [List.count_append] at hone
    omega
  · rcases hwidth with hempty | ⟨last, hlast⟩
    · rw [hempty]
      simp
    · have hzero := h.one_zero
      rw [hlast] at hzero
      cases hdigits : widthDigits marks with
      | nil => simp
      | cons first digits =>
        rw [hdigits] at hzero
        exact hzero
  · rcases hwidth with hempty | ⟨last, hlast⟩
    · rw [hempty]
      decide
    · have hle := h.width_le
      rw [hlast] at hle
      have hmono := numberOf_le (widthDigits marks) last
      omega
  · have hle := h.precision_le
    rw [precisionDigits_concat] at hle
    split_ifs at hle with hnarrow hpoint
    · have hmono := numberOf_le (precisionDigits marks) (value? mark)
      omega
    · rw [precisionDigits_of_not_mem hpoint]
      exact hle
    · exact hle
  · have hle := h.bits_le
    rw [bitDigits_concat] at hle
    split_ifs at hle with hnarrow
    · rw [bitDigits_of_narrow hnarrow]
      exact hle
    · have hmono := numberOf_le (bitDigits marks) (value? mark)
      omega

/-! ## Whole directives -/

theorem admissible_nil : Admissible [] where
  one_point := by decide
  length := by decide
  one_zero := by decide
  width_le := by decide
  precision_le := by decide
  bits_le := by decide

/-- Without a star the parser runs through the marks just if they are admissible, and what it
knows then is what the marks say. -/
theorem run_eq_ok_iff (args args' : List Arg) (m : Modifiers) (hstar : .star ∉ marks) :
    run {} args marks = (.ok m, args') ↔
      Admissible marks ∧ m = modifiers marks ∧ args' = args := by
  -- The last mark is taken off: what it does depends on those before it.
  induction marks using List.reverseRecOn generalizing m args' with
  | nil =>
    have hnil : modifiers [] = {} := rfl
    rw [run, hnil, Prod.mk.injEq, Except.ok.injEq]
    constructor
    · rintro ⟨rfl, rfl⟩
      exact ⟨admissible_nil, rfl, rfl⟩
    · rintro ⟨_, rfl, rfl⟩
      exact ⟨rfl, rfl⟩
  | append_singleton marks mark ih =>
    rw [List.mem_append, not_or] at hstar
    have hmark : mark ≠ .star := by
      rintro rfl
      exact hstar.2 (List.mem_singleton_self _)
    rw [run_append]
    constructor
    · intro hrun
      -- A fault of the front is a fault of the whole.
      rcases hfront : run {} args marks with ⟨_ | front, middle⟩
      · rw [hfront] at hrun
        simp at hrun
      · obtain ⟨hadm, rfl, rfl⟩ := (ih middle front hstar.1).mp hfront
        rw [hfront] at hrun
        simp only [run] at hrun
        rcases decides hadm hmark middle with ⟨hnext, hstep⟩ | ⟨_, fault, hstep⟩
        · rw [hstep] at hrun
          simp only [Prod.mk.injEq, Except.ok.injEq] at hrun
          exact ⟨hnext, hrun.1.symm, hrun.2.symm⟩
        · rw [hstep] at hrun
          simp at hrun
    · rintro ⟨hnext, rfl, rfl⟩
      have hfront := (ih args' (modifiers marks) hstar.1).mpr ⟨hnext.of_concat, rfl, rfl⟩
      rw [hfront]
      simp only [run]
      rcases decides hnext.of_concat hmark args' with ⟨_, hstep⟩ | ⟨hnot, _⟩
      · rw [hstep]
      · exact absurd hnext hnot

/-- A conversion makes the directive, unless it is one for wide characters. -/
theorem finish_eq_ok_iff (h : (length? marks).isSome) (conversion : Conversion)
    (uppercase : Bool) (d : Directive) :
    (modifiers marks).finish conversion uppercase = .ok d ↔
      (conversion ∈ Conversion.texts →
          length? marks ≠ some .long ∧ length? marks ≠ some .longDouble) ∧
        d = describe marks conversion uppercase := by
  obtain ⟨length, hlength⟩ := Option.isSome_iff_exists.mp h
  rw [Modifiers.finish_eq_ok_iff, length_modifiers hlength, hlength]
  have hdescribe : describe marks conversion uppercase =
      { flags := { (modifiers marks).flags with
          alternate := (modifiers marks).flags.alternate || conversion = .pointer
          zeroPad := (modifiers marks).flags.zeroPad &&
            !(conversion.isInteger && (modifiers marks).precision.given) &&
            !(modifiers marks).flags.leftAdjust }
        width := (modifiers marks).width
        precision := (modifiers marks).precision
        length
        conversion
        uppercase } := by
    unfold describe
    rw [hlength, conversion.decide_mem_integers]
    rfl
  rw [hdescribe, conversion.mem_texts_iff]
  simp only [ne_eq, Option.some.injEq]

theorem star_mem_spell_iff (marks : List Mark) : 42 ∈ spell marks ↔ .star ∈ marks := by
  have hbytes : ∀ mark : Mark, 42 ∈ mark.bytes ↔ mark = .star := by
    intro mark
    cases mark with
    | flag f => cases f <;> decide
    | digit d => revert d; decide
    | point => decide
    | star => decide
    | letter x => cases x <;> decide
    | fast => decide
  unfold spell
  rw [List.mem_flatMap]
  constructor
  · rintro ⟨mark, hmem, hbyte⟩
    rwa [(hbytes mark).mp hbyte] at hmem
  · intro hmem
    exact ⟨.star, hmem, by decide⟩

/-- The parser accepts a text without a star just if it starts with a directive. -/
theorem parse_eq_ok_iff_starts (text rest : Bytes) (args args' : List Arg) (d : Directive) :
    (Modifiers.parse {} text args = (.ok (d, rest), args') ∧
        ∀ front, text = front ++ rest → 42 ∉ front) ↔
      Starts text d rest ∧ args' = args := by
  rw [parse_eq_ok_iff]
  constructor
  · rintro ⟨⟨marks, byte, conversion, uppercase, m, htext, hbyte, hlast, hrun, hfinish⟩, hfront⟩
    have hstar : .star ∉ marks := by
      rw [← star_mem_spell_iff]
      intro hmem
      apply hfront (spell marks ++ [byte])
      · rw [htext, List.append_assoc]
        rfl
      · exact List.mem_append_left _ hmem
    obtain ⟨hadm, rfl, rfl⟩ := (run_eq_ok_iff _ _ _ hstar).mp hrun
    obtain ⟨hwide, rfl⟩ := (finish_eq_ok_iff hadm.length _ _ _).mp hfinish
    exact ⟨⟨marks, byte, conversion, uppercase, htext, hbyte, hlast, hstar, hadm, hwide, rfl⟩, rfl⟩
  · rintro ⟨⟨marks, byte, conversion, uppercase, rfl, hbyte, hlast, hstar, hadm, hwide, rfl⟩, rfl⟩
    constructor
    · refine ⟨marks, byte, conversion, uppercase, modifiers marks, rfl, hbyte, hlast, ?_, ?_⟩
      · exact (run_eq_ok_iff _ _ _ hstar).mpr ⟨hadm, rfl, rfl⟩
      · exact (finish_eq_ok_iff hadm.length _ _ _).mpr ⟨hwide, rfl⟩
    · intro front hfront hmem
      obtain rfl : spell marks ++ [byte] = front := by
        apply @List.append_cancel_right _ _ rest
        rw [← hfront, List.append_assoc]
        rfl
      rw [List.mem_append, star_mem_spell_iff, List.mem_singleton] at hmem
      rcases hmem with hmem | rfl
      · exact hstar hmem
      · exact absurd (Conversion.isLetter_of_mem_letters hbyte) (by decide)

end Mark

/-- Where no star stands before the byte at which the parser stops, it accepts exactly what starts
with a directive, and returns what that says. It takes no argument. -/
theorem Directive.read_eq_ok_iff (text : Bytes) (start stop : Nat) (args args' : List Arg)
    (d : Directive) :
    (Directive.read text start args = (.ok (d, stop), args') ∧
        42 ∉ (text.drop (start + 1)).take (stop - (start + 1))) ↔
      ∃ rest, Mark.Starts (text.drop (start + 1)) d rest ∧ stop + rest.length = text.length ∧
        args' = args := by
  have hparse := Mark.parse_eq_ok_iff_starts (text.drop (start + 1))
  have hlength : (text.drop (start + 1)).length = text.length - (start + 1) := List.length_drop
  -- What the parser has read is the text without its rest.
  have hfront : ∀ front rest, text.drop (start + 1) = front ++ rest →
      (text.drop (start + 1)).take (text.length - rest.length - (start + 1)) = front := by
    intro front rest htext
    have hsum := congrArg List.length htext
    rw [List.length_append, hlength] at hsum
    rw [htext]
    exact List.take_left' (by omega)
  unfold Directive.read
  constructor
  · rintro ⟨hread, hstar⟩
    rcases hresult : Modifiers.parse {} (text.drop (start + 1)) args with
      ⟨fault | ⟨directive, rest⟩, left⟩
    · rw [hresult] at hread
      simp at hread
    · rw [hresult] at hread
      simp only [Prod.mk.injEq, Except.ok.injEq] at hread
      obtain ⟨⟨rfl, rfl⟩, rfl⟩ := hread
      obtain ⟨hstarts, hargs⟩ := (hparse rest args left directive).mp
        ⟨hresult, fun front htext => by rwa [hfront front rest htext] at hstar⟩
      have hle := Modifiers.length_lt_of_parse hresult
      exact ⟨rest, hstarts, by omega, hargs⟩
  · rintro ⟨rest, hstarts, hstop, rfl⟩
    obtain ⟨hresult, hstar⟩ := (hparse rest args' args' d).mpr ⟨hstarts, rfl⟩
    obtain rfl : text.length - rest.length = stop := by omega
    rw [hresult]
    refine ⟨rfl, ?_⟩
    obtain ⟨marks, byte, conversion, uppercase, htext, _⟩ := hstarts
    have hsplit : text.drop (start + 1) = (Mark.spell marks ++ [byte]) ++ rest := by
      rw [htext, List.append_assoc]
      rfl
    rw [hfront _ rest hsplit]
    exact hstar _ hsplit

end FormattedOutput
