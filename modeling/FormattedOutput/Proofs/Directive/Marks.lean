import FormattedOutput.Directive.Parser
import Mathlib.Data.List.Basic

/-!
# The marks of a directive

Between its `%` and its conversion a directive is a row of marks. A mark is one byte, except for
the length `wf`, which has two. The parser runs through the marks one by one, and whatever it
accepts is such a row with a conversion at its end.
-/

namespace FormattedOutput

/-- What stands between the `%` of a directive and its conversion. -/
inductive Mark where
  | flag (flag : Flag)
  | digit (value : Fin 10)
  | point
  | star
  | letter (letter : LengthLetter)
  /-- `wf` -/
  | fast
  deriving DecidableEq, Repr

/-- The byte of a flag letter. -/
def Flag.byte : Flag → UInt8
  | .alternate => 35
  | .leftAdjust => 45
  | .spaceSign => 32
  | .plusSign => 43
  | .grouping => 39

/-- The byte of a letter of a length. -/
def LengthLetter.byte : LengthLetter → UInt8
  | .h => 104
  | .l => 108
  | .L => 76
  | .j => 106
  | .z => 122
  | .t => 116
  | .w => 119

/-- The letters of the conversions. Each stands with the conversion that it asks for, and with
whether it asks for capital letters. -/
def Conversion.letters : List (UInt8 × Conversion × Bool) :=
  [('d', .signed, false), ('i', .signed, false), ('u', .unsigned .decimal, false),
    ('o', .unsigned .octal, false), ('x', .unsigned .hex, false), ('X', .unsigned .hex, true),
    ('b', .unsigned .binary, false), ('B', .unsigned .binary, true), ('p', .pointer, false),
    ('f', .float .fixed, false), ('F', .float .fixed, true), ('e', .float .exponent, false),
    ('E', .float .exponent, true), ('g', .float .general, false), ('G', .float .general, true),
    ('a', .float .hex, false), ('A', .float .hex, true), ('c', .char, false),
    ('s', .string, false)].map fun (letter, named) => (UInt8.ofNat letter.toNat, named)

theorem Conversion.isLetter_of_mem_letters {byte : UInt8} {named : Conversion × Bool}
    (h : (byte, named) ∈ letters) : 65 ≤ byte := by
  have hall : ∀ entry ∈ letters, 65 ≤ entry.1 := by decide
  exact hall _ h

namespace Mark

/-- The bytes of a mark. -/
def bytes : Mark → Bytes
  | .flag f => [f.byte]
  | .digit d => [UInt8.ofNat (48 + d)]
  | .point => [46]
  | .star => [42]
  | .letter x => [x.byte]
  | .fast => [119, 102]

/-- The bytes of a row of marks. -/
def spell (marks : List Mark) : Bytes := marks.flatMap bytes

@[simp] theorem spell_cons (mark : Mark) (marks : List Mark) :
    spell (mark :: marks) = mark.bytes ++ spell marks := rfl

theorem spell_append (front back : List Mark) :
    spell (front ++ back) = spell front ++ spell back := List.flatMap_append

/-! ## Running through marks -/

/-- What a mark does to the modifiers. -/
def step (m : Modifiers) (args : List Arg) : Mark → Taken Modifiers
  | .flag f => (.ok { m with flags := m.flags.set f }, args)
  | .digit d => (m.digit d, args)
  | .point => (m.point, args)
  | .star => m.star args
  | .letter x =>
    match m.length.extend? x with
    | some length => (.ok { m with length }, args)
    | none => (.error .conflictingLengths, args)
  | .fast =>
    match m.length.extend? .w with
    | some _ => (.ok { m with length := .fast 0 }, args)
    | none => (.error .conflictingLengths, args)

/-- Runs through a row of marks, up to the first one that is rejected. -/
def run (m : Modifiers) (args : List Arg) : List Mark → Taken Modifiers
  | [] => (.ok m, args)
  | mark :: marks =>
    match mark.step m args with
    | (.ok m, args) => run m args marks
    | (.error fault, args) => (.error fault, args)

theorem run_append (m : Modifiers) (args : List Arg) (front back : List Mark) :
    run m args (front ++ back) =
      match run m args front with
      | (.ok m, args) => run m args back
      | (.error fault, args) => (.error fault, args) := by
  induction front generalizing m args with
  | nil => rfl
  | cons mark marks ih =>
    rw [List.cons_append, run, run]
    split
    · exact ih _ _
    · rfl

end Mark

/-! ## The symbols of letters -/

namespace Symbol

/-- The conversion of a symbol and its case, if it is a conversion. -/
def named? : Symbol → Option (Conversion × Bool)
  | .conversion named uppercase => some (named, uppercase)
  | _ => none

theorem mem_letters_all : ∀ n < 256, ∀ named ∈ named? (ofByte (UInt8.ofNat n)),
    (UInt8.ofNat n, named) ∈ Conversion.letters := by
  decide +kernel

theorem ofByte_letters_all : ∀ entry ∈ Conversion.letters,
    ofByte entry.1 = .conversion entry.2.1 entry.2.2 := by
  decide

/-- The parser knows the letters of the conversions, and no others. -/
theorem ofByte_eq_conversion_iff {byte : UInt8} {conversion : Conversion} {uppercase : Bool} :
    ofByte byte = .conversion conversion uppercase ↔
      (byte, conversion, uppercase) ∈ Conversion.letters := by
  constructor
  · intro h
    have hall := mem_letters_all byte.toNat byte.toNat_lt
    rw [UInt8.ofNat_toNat, h] at hall
    exact hall _ rfl
  · exact ofByte_letters_all _

end Symbol

namespace Mark

/-! ## The symbols of marks -/

theorem ofByte_flag (f : Flag) : Symbol.ofByte f.byte = .flag f := by
  cases f <;> rfl

theorem ofByte_letter (x : LengthLetter) : Symbol.ofByte x.byte = .letter x := by
  cases x <;> rfl

theorem ofByte_digit : ∀ d : Fin 10, Symbol.ofByte (UInt8.ofNat (48 + d)) = .digit d := by
  decide

/-- The mark that starts with a symbol and ends with it. -/
def ofSymbol? : Symbol → Option Mark
  | .flag f => some (.flag f)
  | .digit d => if h : d < 10 then some (.digit ⟨d, h⟩) else none
  | .point => some .point
  | .star => some .star
  | .letter x => some (.letter x)
  | _ => none

theorem bytes_ofSymbol?_all : ∀ n < 256,
    (ofSymbol? (Symbol.ofByte (UInt8.ofNat n))).all (·.bytes = [UInt8.ofNat n]) := by
  decide +kernel

/-- A byte that makes a mark is the byte of the mark. -/
theorem bytes_of_ofSymbol? {byte : UInt8} {mark : Mark}
    (h : ofSymbol? (Symbol.ofByte byte) = some mark) : mark.bytes = [byte] := by
  have hall := bytes_ofSymbol?_all byte.toNat byte.toNat_lt
  rw [UInt8.ofNat_toNat, h] at hall
  simpa using hall

/-- The number of a symbol, if it is a digit. -/
def symbolDigit? : Symbol → Option Nat
  | .digit d => some d
  | _ => none

theorem symbolDigit?_lt_all :
    ∀ n < 256, (symbolDigit? (Symbol.ofByte (UInt8.ofNat n))).all (· < 10) := by
  decide +kernel

theorem digit_lt {byte : UInt8} {n : Nat} (h : Symbol.ofByte byte = .digit n) : n < 10 := by
  have hall := symbolDigit?_lt_all byte.toNat byte.toNat_lt
  rw [UInt8.ofNat_toNat, h] at hall
  simpa [symbolDigit?] using hall

/-! ## The parser -/

/-- A mark starts with a byte that is not the second byte of `wf`. -/
theorem head_bytes_ne (mark : Mark) : mark.bytes.head? ≠ some 102 := by
  cases mark with
  | flag f => cases f <;> decide
  | digit d => revert d; decide
  | point => decide
  | star => decide
  | letter x => cases x <;> decide
  | fast => decide

/-- No byte of a mark ends the format text, and none starts another directive. -/
theorem bytes_ne {mark : Mark} {byte : UInt8} (h : byte ∈ mark.bytes) : byte ≠ 0 ∧ byte ≠ 37 := by
  cases mark with
  | flag f => cases f <;> simp_all [bytes, Flag.byte]
  | digit d => revert d; simp only [bytes, List.mem_singleton]; rintro d rfl; revert d; decide
  | point => simp_all [bytes]
  | star => simp_all [bytes]
  | letter x => cases x <;> simp_all [bytes, LengthLetter.byte]
  | fast => simp only [bytes, List.mem_cons] at h; rcases h with rfl | rfl | h <;> simp_all

theorem spell_ne {marks : List Mark} {byte : UInt8} (h : byte ∈ spell marks) :
    byte ≠ 0 ∧ byte ≠ 37 := by
  obtain ⟨mark, _, hbyte⟩ := List.mem_flatMap.mp h
  exact bytes_ne hbyte

theorem head_spell_ne {marks : List Mark} {rest : Bytes} (h : marks = [] → rest.head? ≠ some 102) :
    (spell marks ++ rest).head? ≠ some 102 := by
  cases marks with
  | nil => exact h rfl
  | cons mark marks =>
    have hne := head_bytes_ne mark
    have hbytes : mark.bytes ≠ [] := by cases mark <;> simp [bytes]
    rw [spell_cons, List.append_assoc, List.head?_append_of_ne_nil _ hbytes]
    exact hne

/-- If a row of marks and the text after it make no `wf` where they meet, then neither do its first
mark and what follows that. -/
theorem fast_ne_of_cons {mark : Mark} {marks : List Mark} {rest : Bytes}
    (h : (mark :: marks).getLast? = some (.letter .w) → rest.head? ≠ some 102) :
    (mark = .letter .w → (spell marks ++ rest).head? ≠ some 102) ∧
      (marks.getLast? = some (.letter .w) → rest.head? ≠ some 102) := by
  constructor
  · rintro rfl
    apply head_spell_ne
    rintro rfl
    exact h rfl
  · intro hlast
    apply h
    rw [List.getLast?_cons, hlast]
    rfl

/-- After a `w` that is not followed by an `f` the length is exact. -/
theorem parse_letter (m : Modifiers) (args : List Arg) (x : LengthLetter) {rest : Bytes}
    (h : x = .w → rest.head? ≠ some 102) :
    Modifiers.parse m (x.byte :: rest) args =
      match m.length.extend? x with
      | some length => Modifiers.parse { m with length } rest args
      | none => (.error .conflictingLengths, args) := by
  rw [Modifiers.parse]
  simp only [ofByte_letter]
  cases m.length.extend? x with
  | none => rfl
  | some length =>
    simp only
    split
    · exact absurd rfl (h rfl)
    · rfl

/-- The parser takes one mark and goes on. -/
theorem parse_mark (mark : Mark) (m : Modifiers) (args : List Arg) {text : Bytes}
    (h : mark = .letter .w → text.head? ≠ some 102) :
    Modifiers.parse m (mark.bytes ++ text) args =
      match mark.step m args with
      | (.ok m, args) => Modifiers.parse m text args
      | (.error fault, args) => (.error fault, args) := by
  cases mark with
  | flag f =>
    rw [bytes, List.cons_append, List.nil_append, Modifiers.parse]
    simp only [ofByte_flag]
    rfl
  | digit d =>
    rw [bytes, List.cons_append, List.nil_append, Modifiers.parse, step]
    simp only [ofByte_digit]
    cases m.digit d <;> rfl
  | point =>
    rw [bytes, List.cons_append, List.nil_append, Modifiers.parse, step]
    simp only [show Symbol.ofByte 46 = .point from rfl]
    cases m.point <;> rfl
  | star =>
    rw [bytes, List.cons_append, List.nil_append, Modifiers.parse, step]
    rcases m.star args with ⟨_ | m, args⟩ <;> simp [show Symbol.ofByte 42 = .star from rfl]
  | letter x =>
    rw [bytes, List.cons_append, List.nil_append, step, parse_letter m args x]
    · cases m.length.extend? x <;> rfl
    · rintro rfl
      exact h rfl
  | fast =>
    change Modifiers.parse m (119 :: 102 :: text) args = _
    rw [Modifiers.parse, step]
    simp only [show Symbol.ofByte 119 = .letter .w from rfl]
    cases m.length.extend? .w <;> rfl

/-- The parser runs through the marks in front of a text. -/
theorem parse_spell (marks : List Mark) (m : Modifiers) (args : List Arg) {rest : Bytes}
    (h : marks.getLast? = some (.letter .w) → rest.head? ≠ some 102) :
    Modifiers.parse m (spell marks ++ rest) args =
      match run m args marks with
      | (.ok m, args) => Modifiers.parse m rest args
      | (.error fault, args) => (.error fault, args) := by
  induction marks generalizing m args with
  | nil => rfl
  | cons mark marks ih =>
    obtain ⟨hnext, htail⟩ := fast_ne_of_cons h
    rw [spell_cons, List.append_assoc, parse_mark mark m args hnext, run]
    rcases mark.step m args with ⟨_ | m, args⟩
    · rfl
    · exact ih m args htail

/-- A text is a row of marks that runs through, a conversion and a rest, and the conversion makes
a directive of the marks. -/
def Accepted (m : Modifiers) (args : List Arg) (text : Bytes) (marks : List Mark) (d : Directive)
    (rest : Bytes) (args' : List Arg) : Prop :=
  ∃ byte conversion uppercase m', text = spell marks ++ byte :: rest ∧
    (byte, conversion, uppercase) ∈ Conversion.letters ∧
    (marks.getLast? = some (.letter .w) → byte ≠ 102) ∧
    run m args marks = (.ok m', args') ∧ m'.finish conversion uppercase = .ok d

variable {m m' : Modifiers} {args args' args'' : List Arg} {text rest : Bytes} {d : Directive}
  {marks : List Mark}

theorem Accepted.cons (mark : Mark) (hstep : mark.step m args = (.ok m', args'))
    (hnext : mark = .letter .w → text.head? ≠ some 102)
    (h : Accepted m' args' text marks d rest args'') :
    Accepted m args (mark.bytes ++ text) (mark :: marks) d rest args'' := by
  obtain ⟨byte, conversion, uppercase, last, rfl, hbyte, hlast, hrun, hfinish⟩ := h
  refine ⟨byte, conversion, uppercase, last, ?_, hbyte, ?_, ?_, hfinish⟩
  · rw [spell_cons, List.append_assoc]
  · intro hw
    cases marks with
    | nil =>
      intro hf
      rw [List.getLast?_singleton, Option.some.injEq] at hw
      exact hnext hw (congrArg some hf)
    | cons next marks =>
      rw [List.getLast?_cons_cons] at hw
      exact hlast hw
  · rw [run, hstep]
    exact hrun

/-- A byte that makes a mark comes first. -/
theorem Accepted.cons_byte {byte : UInt8} (mark : Mark)
    (hmark : ofSymbol? (Symbol.ofByte byte) = some mark)
    (hstep : mark.step m args = (.ok m', args'))
    (hnext : mark = .letter .w → text.head? ≠ some 102)
    (h : ∃ marks, Accepted m' args' text marks d rest args'') :
    ∃ marks, Accepted m args (byte :: text) marks d rest args'' := by
  obtain ⟨marks, haccepted⟩ := h
  have hcons := Accepted.cons mark hstep hnext haccepted
  rw [bytes_of_ofSymbol? hmark] at hcons
  exact ⟨_, hcons⟩

/-- What the parser accepts is a row of marks and a conversion. -/
theorem exists_accepted_of_parse (h : Modifiers.parse m text args = (.ok (d, rest), args')) :
    ∃ marks, Accepted m args text marks d rest args' := by
  fun_induction Modifiers.parse m text args with
  | case1 => simp at h
  | case2 => simp at h
  | case3 => simp at h
  | case4 m byte text args f hbyte ih =>
    exact Accepted.cons_byte (.flag f) (by rw [hbyte]; rfl) rfl (by simp) (ih h)
  | case5 m byte text args n hbyte m' hdigit ih =>
    refine Accepted.cons_byte (.digit ⟨n, digit_lt hbyte⟩) ?_ ?_ (by simp) (ih h)
    · rw [hbyte, ofSymbol?, dif_pos (digit_lt hbyte)]
    · rw [step, hdigit]
  | case6 => simp at h
  | case7 m byte text args hbyte m' hpoint ih =>
    refine Accepted.cons_byte .point (by rw [hbyte]; rfl) ?_ (by simp) (ih h)
    rw [step, hpoint]
  | case8 => simp at h
  | case9 m byte text args hbyte m' args' hstar ih =>
    exact Accepted.cons_byte .star (by rw [hbyte]; rfl) hstar (by simp) (ih h)
  | case10 => simp at h
  | case11 => simp at h
  | case12 m byte args length text hbyte hlength ih =>
    obtain ⟨marks, haccepted⟩ := ih h
    have hw := bytes_of_ofSymbol? (show ofSymbol? (.ofByte byte) = some (.letter .w) by
      rw [hbyte]; rfl)
    obtain rfl : LengthLetter.w.byte = byte := by simpa [bytes] using hw
    refine ⟨_, Accepted.cons .fast ?_ (by simp) haccepted⟩
    rw [step, hlength]
  | case13 m byte args x hbyte length hlength text hnext ih =>
    refine Accepted.cons_byte (.letter x) (by rw [hbyte]; rfl) ?_ ?_ (ih h)
    · rw [step, hlength]
    · rintro ⟨⟩ hf
      obtain ⟨text, rfl⟩ := List.head?_eq_some_iff.mp hf
      exact hnext text rfl rfl
  | case14 m byte text args conversion uppercase hbyte directive hfinish =>
    simp only [Prod.mk.injEq, Except.ok.injEq] at h
    obtain ⟨⟨rfl, rfl⟩, rfl⟩ := h
    exact ⟨[], byte, conversion, uppercase, m, rfl, Symbol.ofByte_eq_conversion_iff.mp hbyte,
      by simp, rfl, hfinish⟩
  | case15 => simp at h

theorem exists_accepted_of_read {start stop : Nat}
    (h : Directive.read text start args = (.ok (d, stop), args')) :
    ∃ marks rest, Accepted {} args (text.drop (start + 1)) marks d rest args' := by
  unfold Directive.read at h
  rcases hparse : Modifiers.parse {} (text.drop (start + 1)) args with ⟨fault | ⟨d', rest⟩, left⟩
  · simp [hparse] at h
  · simp only [hparse, Prod.mk.injEq, Except.ok.injEq] at h
    obtain ⟨⟨rfl, -⟩, rfl⟩ := h
    obtain ⟨marks, haccepted⟩ := exists_accepted_of_parse hparse
    exact ⟨marks, rest, haccepted⟩

/-- The parser accepts a row of marks that runs through, with a conversion at its end. -/
theorem parse_of_accepted (h : Accepted m args text marks d rest args') :
    Modifiers.parse m text args = (.ok (d, rest), args') := by
  obtain ⟨byte, conversion, uppercase, last, rfl, hbyte, hlast, hrun, hfinish⟩ := h
  rw [parse_spell, hrun]
  · simp only
    rw [Modifiers.parse]
    simp only [Symbol.ofByte_eq_conversion_iff.mpr hbyte, hfinish]
  · intro hw hf
    exact hlast hw (by simpa using hf)

theorem parse_eq_ok_iff : Modifiers.parse m text args = (.ok (d, rest), args') ↔
    ∃ marks, Accepted m args text marks d rest args' :=
  ⟨exists_accepted_of_parse, fun ⟨_, haccepted⟩ => parse_of_accepted haccepted⟩

end Mark

/-! ## Numbers in digits -/

/-- A number takes one more digit as long as it stays within 31 bits. -/
theorem appendDigit?_natCast (n digit : Nat) :
    appendDigit? n digit =
      if n * 10 + digit ≤ 2147483647 then some ((n * 10 + digit : Nat) : Int) else none := by
  have hfits : (n : Int) * 10 + digit ≤ maxInt ↔ n * 10 + digit ≤ 2147483647 := by
    rw [maxInt_eq]
    omega
  unfold appendDigit?
  rw [if_congr hfits rfl rfl]
  push_cast
  rfl

/-! ## The conversion -/

/-- A conversion makes the directive of its modifiers, unless it is one for wide characters. -/
theorem Modifiers.finish_eq_ok_iff (m : Modifiers) (conversion : Conversion) (uppercase : Bool)
    (d : Directive) :
    m.finish conversion uppercase = .ok d ↔
      (conversion.isText = true → m.length ≠ .long ∧ m.length ≠ .longDouble) ∧
        d = { m with
          flags := { m.flags with
            alternate := m.flags.alternate || conversion = .pointer
            zeroPad := m.flags.zeroPad && !(conversion.isInteger && m.precision.given) &&
              !m.flags.leftAdjust }
          conversion
          uppercase } := by
  have hwide : (conversion.isText && (decide (m.length = .long) ||
      decide (m.length = .longDouble))) = true ↔
      ¬(conversion.isText = true → m.length ≠ .long ∧ m.length ≠ .longDouble) := by
    simp only [Bool.and_eq_true, Bool.or_eq_true, decide_eq_true_eq]
    tauto
  unfold finish
  split_ifs with h
  · constructor
    · intro heq
      contradiction
    · rintro ⟨hnot, -⟩
      exact absurd hnot (hwide.mp h)
  · rw [Except.ok.injEq, eq_comm]
    exact (and_iff_right (not_not.mp (mt hwide.mpr h))).symm

end FormattedOutput
