import FormattedOutput.Proofs.Format.Splitting

/-!
# How many arguments a format text takes

The directives of a format text can be told without any argument, and so can the number of
arguments that it takes. It takes no more than these, whatever comes after them. If one of them is
missing, the directive that it belongs to is rejected, and all before that directive is written.
-/

namespace FormattedOutput

/-! ## The directives of a text -/

/-- A directive in a format text: the offset of its `%`, and its bytes after that, up to its
conversion. -/
structure PlacedDirective where
  position : Nat
  body : Bytes
  deriving DecidableEq, Repr

namespace PlacedDirective

/-- The byte is the letter of a conversion. -/
def isConversion (byte : UInt8) : Bool := Conversion.letters.any (·.1 = byte)

/-- The bytes up to the first conversion, and the text after it. The `f` of `wf` is no
conversion. -/
def cutBody : Bytes → Bytes × Bytes
  | [] => ([], [])
  | 119 :: 102 :: text => (119 :: 102 :: (cutBody text).1, (cutBody text).2)
  | byte :: text =>
    if isConversion byte then ([byte], text)
    else (byte :: (cutBody text).1, (cutBody text).2)

theorem length_cutBody_le (text : Bytes) : (cutBody text).2.length ≤ text.length := by
  fun_induction cutBody text <;> simp_all <;> omega

/-- The directives of a text that starts at `position`. Two `%` in a row are none. -/
def inTextAt (position : Nat) : Bytes → List PlacedDirective
  | [] => []
  | 37 :: 37 :: text => inTextAt (position + 2) text
  | 37 :: text =>
    ⟨position, (cutBody text).1⟩ ::
      inTextAt (position + ((cutBody text).1.length + 1)) (cutBody text).2
  | _ :: text => inTextAt (position + 1) text
termination_by text => text.length
decreasing_by
  · simp only [List.length_cons]
    omega
  · have := length_cutBody_le text
    simp only [List.length_cons]
    omega
  · simp

/-- The directives of a format text, which ends at its first zero byte. -/
def inText (text : Bytes) : List PlacedDirective :=
  inTextAt 0 (text.takeWhile (· != 0))

/-- How many arguments some directives take: one for each of them, and one for each star. -/
def demand (directives : List PlacedDirective) : Nat :=
  directives.length + (directives.flatMap body).count 42

theorem demand_append (front back : List PlacedDirective) :
    demand (front ++ back) = demand front + demand back := by
  simp only [demand, List.length_append, List.flatMap_append, List.count_append]
  omega

theorem demand_cons (d : PlacedDirective) (directives : List PlacedDirective) :
    demand (d :: directives) = d.body.count 42 + 1 + demand directives := by
  simp only [demand, List.length_cons, List.flatMap_cons, List.count_append]
  omega

/-! ## One directive -/

/-- Apart from `wf` a mark is one byte. It is no conversion, and only the mark `w` is a `w`. -/
theorem exists_byte_of_ne_fast {mark : Mark} (h : mark ≠ .fast) : ∃ byte, mark.bytes = [byte] ∧
    isConversion byte = false ∧ (byte = 119 → mark = .letter .w) := by
  cases mark with
  | flag f => exact ⟨f.byte, rfl, by cases f <;> decide, by cases f <;> decide⟩
  | digit d => exact ⟨_, rfl, by revert d; decide, by revert d; decide⟩
  | point => exact ⟨46, rfl, by decide, by decide⟩
  | star => exact ⟨42, rfl, by decide, by decide⟩
  | letter x => exact ⟨x.byte, rfl, by cases x <;> decide, by cases x <;> decide⟩
  | fast => contradiction

/-- A mark is passed over. -/
theorem cutBody_mark (mark : Mark) {text : Bytes} (h : mark = .letter .w → text.head? ≠ some 102) :
    cutBody (mark.bytes ++ text) = (mark.bytes ++ (cutBody text).1, (cutBody text).2) := by
  by_cases hfast : mark = .fast
  · subst hfast
    rfl
  · obtain ⟨byte, hbytes, hconversion, hw⟩ := exists_byte_of_ne_fast hfast
    rw [hbytes, List.cons_append, List.nil_append, cutBody]
    · simp [hconversion]
    · rintro rest rfl rfl
      exact h (hw rfl) rfl

theorem cutBody_spell (marks : List Mark) {text : Bytes}
    (h : marks.getLast? = some (.letter .w) → text.head? ≠ some 102) :
    cutBody (Mark.spell marks ++ text) =
      (Mark.spell marks ++ (cutBody text).1, (cutBody text).2) := by
  induction marks with
  | nil => rfl
  | cons mark marks ih =>
    obtain ⟨hnext, htail⟩ := Mark.fast_ne_of_cons h
    rw [Mark.spell_cons, List.append_assoc, cutBody_mark mark hnext, ih htail, List.append_assoc]

/-- The bytes of a directive are cut off behind its conversion. -/
theorem cutBody_bytes (t : DirectiveText) (after : Bytes) :
    cutBody (t.bytes ++ after) = (t.bytes, after) := by
  have hconversion : isConversion t.last = true :=
    List.any_eq_true.mpr ⟨_, t.named, decide_eq_true rfl⟩
  have hend : cutBody (t.last :: after) = ([t.last], after) := by
    rw [cutBody]
    · simp [hconversion]
    · rintro rest hw rfl
      rw [hw] at hconversion
      contradiction
  rw [DirectiveText.bytes, List.append_assoc, List.singleton_append,
    cutBody_spell _ (t.head_last_ne after), hend]

theorem inTextAt_literal (position : Nat) {byte : UInt8} (text : Bytes) (h : byte ≠ 37) :
    inTextAt position (byte :: text) = inTextAt (position + 1) text := by
  rw [inTextAt]
  · rintro rest rfl
    exact absurd rfl h
  · exact h

theorem inTextAt_percent (position : Nat) (text : Bytes) :
    inTextAt position (37 :: 37 :: text) = inTextAt (position + 2) text := by
  rw [inTextAt]

theorem inTextAt_bytes (position : Nat) (t : DirectiveText) (after : Bytes) :
    inTextAt position (37 :: (t.bytes ++ after)) =
      ⟨position, t.bytes⟩ :: inTextAt (position + (t.bytes.length + 1)) after := by
  rw [inTextAt, cutBody_bytes]
  intro rest hrest
  exact t.head_bytes_ne after (by rw [hrest]; rfl)

end PlacedDirective

open PlacedDirective

namespace Reading.Complete

variable {text front : Bytes} {taken : List Arg} {segments : List Segment}

/-! ## Texts without a fault -/

/-- Behind a text that is read without a fault other directives follow its own. -/
theorem inTextAt_append (h : Complete front taken segments) (position : Nat) (back : Bytes) :
    inTextAt position (front ++ back) =
      inTextAt position front ++ inTextAt (position + front.length) back := by
  induction h generalizing position with
  | nil => simp [inTextAt]
  | literal hbyte _ ih =>
    rw [List.cons_append, inTextAt_literal _ _ hbyte, inTextAt_literal _ _ hbyte, ih,
      List.length_cons, Nat.add_assoc, Nat.add_comm 1]
  | percent _ ih =>
    rw [List.cons_append, List.cons_append, inTextAt_percent, inTextAt_percent, ih,
      List.length_cons, List.length_cons, Nat.add_assoc, Nat.add_comm 2]
  | @directive text own taken segment segments t hown _ ih =>
    have hlength : position + (37 :: (t.bytes ++ text)).length =
        position + (t.bytes.length + 1) + text.length := by
      simp only [List.length_cons, List.length_append]
      omega
    rw [List.cons_append, List.append_assoc, inTextAt_bytes, inTextAt_bytes, ih, hlength,
      List.cons_append]

/-- What is taken for a directive is told by its bytes. -/
theorem length_own {t : DirectiveText} {own : List Arg} {segment : Segment}
    (h : Consumes t.segment own segment) : own.length = t.bytes.count 42 + 1 := by
  obtain ⟨taken, heq, hlength, _⟩ := t.takes_segment.exists_taken (h.enough [])
  rw [List.append_cancel_right heq, hlength, t.count_bytes]

theorem length_taken (h : Complete text taken segments) (position : Nat) :
    taken.length = demand (inTextAt position text) := by
  induction h generalizing position with
  | nil => simp [inTextAt, demand]
  | literal hbyte _ ih => rw [inTextAt_literal _ _ hbyte, ih]
  | percent _ ih => rw [inTextAt_percent, ih]
  | directive t hown _ ih =>
    rw [inTextAt_bytes, demand_cons, List.length_append, length_own hown, ← ih]

/-- Every argument that is taken belongs to a directive. -/
theorem exists_split (h : Complete text taken segments) {j : Nat} (hj : j < taken.length) :
    ∃ front before early, ∃ t : DirectiveText, ∃ own segment back after,
      text = front ++ 37 :: (t.bytes ++ back) ∧ taken = before ++ (own ++ after) ∧
        Complete front before early ∧ Consumes t.segment own segment ∧
        before.length ≤ j ∧ j < before.length + own.length := by
  induction h generalizing j with
  | nil => simp at hj
  | @literal byte _ _ _ hbyte _ ih =>
    obtain ⟨front, before, early, t, own, segment, back, after, rfl, rfl, hfront, hrest⟩ := ih hj
    exact ⟨byte :: front, before, _, t, own, segment, back, after, rfl, rfl,
      .literal hbyte hfront, hrest⟩
  | percent _ ih =>
    obtain ⟨front, before, early, t, own, segment, back, after, rfl, rfl, hfront, hrest⟩ := ih hj
    exact ⟨37 :: 37 :: front, before, _, t, own, segment, back, after, rfl, rfl,
      .percent hfront, hrest⟩
  | @directive text first taken segment segments t hfirst _ ih =>
    by_cases hmine : j < first.length
    · exact ⟨[], [], [], t, first, segment, text, taken, rfl, rfl, .nil, hfirst, Nat.zero_le _,
        by simpa using hmine⟩
    · rw [List.length_append] at hj
      obtain ⟨front, before, early, t', own, segment', back, after, rfl, rfl, hfront, hown, hle,
        hlt⟩ := ih (j := j - first.length) (by omega)
      refine ⟨37 :: (t.bytes ++ front), first ++ before, _, t', own, segment', back, after,
        by simp, by simp, .directive t hfirst hfront, hown, ?_, ?_⟩
      · rw [List.length_append]
        omega
      · rw [List.length_append]
        omega

end Reading.Complete

/-! ## Missing arguments -/

/-- A directive with too few arguments is rejected and writes nothing. -/
theorem format_of_short {t : DirectiveText} {own : List Arg} {segment : Segment}
    (hown : Consumes t.segment own segment) {n : Nat} (hn : n < own.length) (r : Renderer)
    (after : Bytes) :
    format r (37 :: (t.bytes ++ after)) (own.take n) =
      ⟨[], [], some ⟨.invalidArgument, "too few arguments", 0⟩⟩ := by
  rw [format_directive, hown.short n hn]
  rfl

/-- The directive that a missing argument belongs to is rejected. All before it is written, and
with all arguments the output goes on from there. -/
theorem format_of_missing {r : Renderer} {text : Bytes} {taken left : List Arg}
    {segments : List Segment}
    (h : Reading.Complete (text.takeWhile (· != 0)) taken segments) {j : Nat}
    (hj : j < taken.length) :
    ∃ before d after, inText text = before ++ d :: after ∧ demand before ≤ j ∧
      j < demand (before ++ [d]) ∧
      (format r text ((taken ++ left).take j)).failure =
        some ⟨.invalidArgument, "too few arguments", d.position⟩ ∧
      (format r text ((taken ++ left).take j)).bytes =
        (format r (text.take d.position) (taken ++ left)).bytes ∧
      (format r text (taken ++ left)).bytes =
        (format r (text.take d.position) (taken ++ left)).bytes ++
          (format r (text.drop d.position) ((taken ++ left).drop (demand before))).bytes := by
  obtain ⟨front, before, early, t, own, segment, back, after, htext, rfl, hfront, hown, hle, hlt⟩ :=
    h.exists_split hj
  have hzero : 0 ∉ front := by
    intro hmem
    apply zero_notMem_takeWhile text
    rw [htext]
    exact List.mem_append_left _ hmem
  have hdirectives : inText text = inTextAt 0 front ++
      ⟨front.length, t.bytes⟩ :: inTextAt (front.length + (t.bytes.length + 1)) back := by
    rw [inText, htext, hfront.inTextAt_append, inTextAt_bytes, Nat.zero_add]
  have hbefore : demand (inTextAt 0 front) = before.length := (hfront.length_taken 0).symm
  -- The text goes on behind its zero byte, if it has one.
  obtain ⟨rest, hwhole⟩ : ∃ rest, text = front ++ 37 :: (t.bytes ++ rest) := by
    refine ⟨back ++ text.dropWhile (· != 0), ?_⟩
    have hsplit := @List.takeWhile_append_dropWhile _ (· != 0) text
    rw [htext] at hsplit
    simpa using hsplit.symm
  have htake : text.take front.length = front := by rw [hwhole, List.take_left]
  have hdrop : text.drop front.length = 37 :: (t.bytes ++ rest) := by rw [hwhole, List.drop_left]
  have hargs : (before ++ (own ++ after) ++ left).take j =
      before ++ own.take (j - before.length) := by
    have hnone : j - before.length - own.length = 0 := by omega
    rw [List.append_assoc, List.take_append, List.take_of_length_le hle, List.append_assoc,
      List.take_append, hnone, List.take_zero, List.append_nil]
  have halone := hfront.format_eq hzero r (own ++ after ++ left)
  have hshort := hfront.format_behind hzero r (37 :: (t.bytes ++ rest))
    (own.take (j - before.length))
  have hlong := hfront.format_behind hzero r (37 :: (t.bytes ++ rest)) (own ++ after ++ left)
  rw [format_of_short hown (by omega), ← hwhole] at hshort
  rw [← hwhole, ← hdrop] at hlong
  refine ⟨inTextAt 0 front, ⟨front.length, t.bytes⟩, _, hdirectives, ?_, ?_, ?_, ?_, ?_⟩
  · rw [hbefore]
    exact hle
  · rw [demand_append, hbefore, demand_cons, ← Reading.Complete.length_own hown]
    omega
  · rw [hargs, hshort]
    rfl
  · rw [hargs, hshort, htake, List.append_assoc, halone]
    simp [Formatted.bytes]
  · rw [hbefore, htake, List.append_assoc, List.drop_left, halone, hlong]
    simp [Formatted.bytes]

/-- A text that is formatted without a fault takes an argument for each directive and one for each
star. What stands after these changes nothing. Without one of them the directive that it belongs to
is rejected, with the output up to that directive. -/
theorem format_demand (r : Renderer) (text : Bytes) (args : List Arg)
    (h : (format r text args).failure = none) :
    (format r text args).taken args = demand (inText text) ∧
      (∀ rest, format r text (args.take (demand (inText text)) ++ rest) =
        ⟨(format r text args).pieces, rest, none⟩) ∧
      ∀ j < demand (inText text), ∃ before d after,
        inText text = before ++ d :: after ∧ demand before ≤ j ∧ j < demand (before ++ [d]) ∧
        (format r text (args.take j)).failure =
          some ⟨.invalidArgument, "too few arguments", d.position⟩ ∧
        (format r text (args.take j)).bytes = (format r (text.take d.position) args).bytes ∧
        (format r text args).bytes = (format r (text.take d.position) args).bytes ++
          (format r (text.drop d.position) (args.drop (demand before))).bytes := by
  obtain ⟨taken, hargs, hcomplete⟩ := exists_complete h
  have hdemand : taken.length = demand (inText text) := hcomplete.length_taken 0
  generalize hleft : (format r text args).args = left at hargs
  rw [← hdemand]
  refine ⟨?_, ?_, ?_⟩
  · rw [Formatted.taken, hleft, hargs, List.length_append]
    omega
  · intro rest
    have htake : args.take taken.length = taken := by rw [hargs, List.take_left]
    rw [htake, ← format_takeWhile, hcomplete.format_eq (zero_notMem_takeWhile text)]
    rfl
  · rw [hargs]
    intro j hj
    exact format_of_missing hcomplete hj

/-- Two directives with a star take three arguments. Without the third one a directive is rejected
for it. -/
theorem format_demand_starved :
    (format .full (latin ['a', '%', 'd', '%', '*', 'x']) [.int 7, .int 5, .int 3]).taken
        [.int 7, .int 5, .int 3] = 3 ∧
      ∃ d ∈ inText (latin ['a', '%', 'd', '%', '*', 'x']),
        (format .full (latin ['a', '%', 'd', '%', '*', 'x']) [.int 7, .int 5]).failure =
          some ⟨.invalidArgument, "too few arguments", d.position⟩ := by
  have hnone : (format .full (latin ['a', '%', 'd', '%', '*', 'x'])
      [.int 7, .int 5, .int 3]).failure = none := by
    decide +kernel
  have hdemand : demand (inText (latin ['a', '%', 'd', '%', '*', 'x'])) = 3 := by
    decide +kernel
  obtain ⟨htaken, _, hmissing⟩ := format_demand _ _ _ hnone
  obtain ⟨before, d, after, hsplit, _, _, hfailure, _⟩ := hmissing 2 (by rw [hdemand]; decide)
  refine ⟨htaken.trans hdemand, d, ?_, hfailure⟩
  rw [hsplit]
  exact List.mem_append_right _ List.mem_cons_self

end FormattedOutput
