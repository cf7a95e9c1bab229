import FormattedOutput.Proofs.Directive.Precision
import FormattedOutput.Proofs.Format.IntegerText
import FormattedOutput.Proofs.Format.Stars

/-!
# What a text directive writes

Three things end a text that is written: its last byte, a zero byte, and the precision. What is
written is the longest part that none of them cuts, and a field filled with it. Nothing behind it
can be seen in the output.
-/

namespace FormattedOutput

/-! ## Cuts -/

/-- What is shown of a text: of all that it starts with, the longest that has no zero byte and no
more bytes than the limit. -/
structure IsCut (text : Bytes) (limit : Nat) (shown : Bytes) : Prop where
  isPrefix : shown <+: text
  zero_notMem : 0 ∉ shown
  length_le : shown.length ≤ limit
  longest : ∀ other, other <+: text → 0 ∉ other → other.length ≤ limit →
    other.length ≤ shown.length

variable {text shown shown' : Bytes} {limit : Nat}

theorem IsCut.unique (h : IsCut text limit shown) (h' : IsCut text limit shown') :
    shown = shown' := by
  have hle := h'.longest shown h.isPrefix h.zero_notMem h.length_le
  have hge := h.longest shown' h'.isPrefix h'.zero_notMem h'.length_le
  rw [List.prefix_iff_eq_take.mp h.isPrefix, List.prefix_iff_eq_take.mp h'.isPrefix,
    Nat.le_antisymm hle hge]

theorem isCut_cut (text : Bytes) (limit : Nat) : IsCut text limit (cut text limit) := by
  have hfront : cut text limit <+: text.take limit := List.takeWhile_prefix _
  constructor
  · exact hfront.trans (List.take_prefix _ _)
  · exact zero_notMem_takeWhile _
  · exact hfront.length_le.trans (List.length_take_le _ _)
  · intro other hprefix hzero hlength
    -- The limit does not reach into it, and so neither does a zero byte.
    obtain ⟨back, hback⟩ := hprefix.take limit
    rw [List.take_of_length_le hlength] at hback
    rw [cut, ← hback, takeWhile_append_of_not_mem hzero, List.length_append]
    exact Nat.le_add_right _ _

theorem isCut_iff : IsCut text limit shown ↔ cut text limit = shown := by
  constructor
  · exact (isCut_cut text limit).unique
  · rintro rfl
    exact isCut_cut text limit

/-! ## One directive -/

theorem Field.content_ofText (text : Bytes) : (ofText text).content = text := by
  rw [content, concat_number]
  simp [ofText, ByteRun.bytes, leadingZeros, trailingZeros]

namespace Directive

variable {d : Directive} {s : Option Bytes}

/-- How many bytes of a text are written at most: as many as the precision says, if there is one. -/
def textLimit (d : Directive) : Nat := d.precision.effective.elim 4095 Int.toNat

/-- What is shown of a text argument. A null pointer has a placeholder, which is never cut. -/
def Shows (d : Directive) : Option Bytes → Bytes → Prop
  | none, shown => shown = latin ['(', 'n', 'u', 'l', 'l', ')']
  | some text, shown => IsCut text d.textLimit shown

/-- A text in its field, as a renderer fills it. -/
def filled (d : Directive) : Renderer → Bytes → Bytes
  | .full, shown => d.fill d.flags.zeroPad [] shown
  | .reduced, shown => d.rightAdjust shown

theorem shows_iff : d.Shows s shown ↔ d.shownText s = shown := by
  cases s with
  | none => exact eq_comm
  | some text =>
    have hcut : d.shownText (some text) = cut text d.textLimit := by
      unfold shownText textLimit
      cases d.precision.effective <;> rfl
    rw [Shows, isCut_iff, hcut]

/-- Nothing but what is shown is left of the argument. -/
theorem resolve_string (hstring : d.conversion = .string) (hshows : d.Shows s shown)
    (left : List Arg) : d.resolve (.string s :: left) = (.ok (.text d shown), left) := by
  rw [resolve, hstring, ← shows_iff.mp hshows]
  rfl

theorem bytes_text (hfloat : d.conversion.isFloat = false)
    (hsettled : d.IsSettled) (shown : Bytes) (r : Renderer) :
    (Segment.text d shown).bytes r = d.filled r shown := by
  have hmakes : d.Makes (.text d shown) := .text shown hfloat
  have hcontent : (Segment.text d shown).content = shown := Field.content_ofText shown
  cases r with
  | full =>
    rw [Segment.bytes_full hmakes hsettled, hcontent]
    simp [Segment.isWord, Segment.opening, filled]
  | reduced =>
    rw [bytes_reduced hmakes, hfloat, hcontent]
    rfl

end Directive

/-! ## Where the precision comes from -/

theorem Extent.effective_ofPrecision (p : Option Int) :
    (Extent.ofPrecision p).effective = p.filter (0 ≤ ·) := by
  cases p with
  | none => rfl
  | some p => by_cases hp : p < 0 <;> simp [ofPrecision, effective, hp, Option.filter]

/-- The length and the conversion leave the precision. -/
theorem DirectiveEnd.precision_eq {ending : DirectiveEnd} {m : Modifiers} {args left : List Arg}
    {d : Directive} (h : ending.directive m args = (.ok d, left)) : d.precision = m.precision := by
  obtain ⟨result, hrun⟩ := Mark.exists_length_of_run ending.letter_or_digit
    fun _ => ending.letters_first
  rw [DirectiveEnd.directive, hrun m args rfl] at h
  cases result with
  | error fault => simp [Except.map, Taken.andThen] at h
  | ok length =>
    have hfinish : { m with length }.finish ending.conversion ending.uppercase = .ok d :=
      (Prod.mk.inj h).1
    rw [Modifiers.precision_of_finish hfinish]

open GivenNumber

/-- Where the precision of a directive comes from. In general it is what the marks of the directive
have left in effect. Where each number is given once it is the number in digits or the one of a
`*`, unless that is negative. -/
structure Directive.PrecisionFrom (d : Directive) (text : Bytes) (args left : List Arg) :
    Prop where
  nonneg : ∀ p ∈ d.precision.effective, 0 ≤ p
  exists_marks : ∃ marks rest, Mark.Accepted {} args text marks d rest left
  of_marks : ∀ marks rest, Mark.Accepted {} args text marks d rest left →
    d.precision.effective = Mark.precision? marks (Mark.gifts {} args marks)
  of_number : ∀ (x : NumberedDirective) n p after rest, text = x.text.bytes ++ after →
    args = x.args ++ rest → Option.Rel GivesWidth x.width n →
    Option.Rel GivesPrecision x.precision p → d.precision.effective = p.filter (0 ≤ ·)

section

variable {start stop : Nat} {args left : List Arg} {d : Directive}

theorem Directive.effective_nonneg
    (hread : Directive.read text start args = (.ok (d, stop), left)) :
    ∀ p ∈ d.precision.effective, 0 ≤ p := by
  have hnonneg := precision_nonneg_of_read hread
  intro p hp
  unfold Extent.effective at hp
  split_ifs at hp
  · obtain rfl := Option.some.inj hp
    exact hnonneg
  · contradiction

theorem Directive.precisionFrom_of_read
    (hread : Directive.read text start args = (.ok (d, stop), left)) :
    d.PrecisionFrom (text.drop (start + 1)) args left := by
  refine ⟨Directive.effective_nonneg hread, Mark.exists_accepted_of_read hread,
    fun marks rest h => h.effective_eq, ?_⟩
  rintro x n p after rest htext rfl hwidth hprecision
  obtain ⟨f, hflags⟩ := x.flags.exists_flags
  have hcomes := NumberedDirective.comesTo hflags hwidth hprecision x.ending
  have hends := hcomes.directive rest
  rw [DirectiveText.read_of_drop htext] at hread
  rcases hdirective : x.text.directive (x.args ++ rest) with ⟨fault | d', left'⟩
  · simp [hdirective] at hread
  · simp only [hdirective, Prod.mk.injEq, Except.ok.injEq] at hread
    obtain ⟨⟨rfl, -⟩, rfl⟩ := hread
    rw [hdirective] at hends
    have hlast := DirectiveEnd.precision_eq hends.symm
    calc d'.precision.effective = d'.unsourced.precision.effective := rfl
      _ = (Extent.ofPrecision p).effective := by rw [hlast]; rfl
      _ = p.filter (0 ≤ ·) := Extent.effective_ofPrecision p

end

/-! ## The directive in its text -/

/-- Behind a text that takes its own arguments both rows of arguments give the same output with the
same result, whatever it is written to. -/
structure Indistinct (back : Bytes) (args args' : List Arg) : Prop where
  formatted : ∀ r front own, Preface r front own →
    format r (front ++ back) (own ++ args) = format r (front ++ back) (own ++ args')
  written : ∀ {σ : Type} [Sink σ] (sink : σ) r front own, Preface r front own →
    Sink.format sink r (front ++ back) (own ++ args) =
      Sink.format sink r (front ++ back) (own ++ args')

theorem indistinct_of_format {back : Bytes} {args args' : List Arg}
    (h : ∀ r, format r back args = format r back args') : Indistinct back args args' := by
  have hformatted : ∀ r front own, Preface r front own →
      format r (front ++ back) (own ++ args) = format r (front ++ back) (own ++ args') :=
    fun r _ _ hpreface => hpreface.format_congr (h r)
  refine ⟨hformatted, ?_⟩
  intro σ _ sink r front own hpreface
  exact Sink.format_congr sink (hformatted r front own hpreface)

/-- Two texts that show the same leave the same segment. -/
theorem DirectiveText.indistinct {t : DirectiveText} {stars left : List Arg} {d : Directive}
    {s s' : Option Bytes} (hstars : Consumes t.directive stars d) (hstring : d.conversion = .string)
    (hshows : d.Shows s shown) (hshows' : d.Shows s' shown) (after : Bytes) :
    Indistinct (37 :: (t.bytes ++ after)) (stars ++ .string s :: left)
      (stars ++ .string s' :: left) := by
  have hsegment : ∀ s, d.Shows s shown →
      t.segment (stars ++ .string s :: left) = (.ok (.text d shown), left) := by
    intro s hshows
    rw [segment, hstars.enough]
    exact Directive.resolve_string hstring hshows left
  apply indistinct_of_format
  intro r
  rw [format_directive, format_directive, hsegment s hshows, hsegment s' hshows']

/-- A text directive writes the longest part of its argument that has no zero byte and is no longer
than the precision, or than 4095 bytes if there is no precision. It writes the whole placeholder for
a null pointer. Two arguments of which the same is shown cannot be told apart by the output. -/
theorem directive_string {text : Bytes} {start stop : Nat} {args left : List Arg} {d : Directive}
    {s : Option Bytes}
    (hread : Directive.read text start args = (.ok (d, stop), .string s :: left))
    (hstring : d.conversion = .string) :
    d.PrecisionFrom (text.drop (start + 1)) args (.string s :: left) ∧
    ∃ shown, d.Shows s shown ∧
      Reading.ofTextAt start (37 :: text.drop (start + 1)) args =
        (Reading.ofTextAt stop (text.drop stop) left).after (.text d shown) ∧
      (∀ r, d.writes r (.string s :: left) = (.ok (d.filled r shown), left)) ∧
      ∃ stars, args = stars ++ .string s :: left ∧ ∀ s', d.Shows s' shown →
        Indistinct (37 :: text.drop (start + 1)) args (stars ++ .string s' :: left) := by
  have hshows : d.Shows s (d.shownText s) := Directive.shows_iff.mpr rfl
  have hresolve := Directive.resolve_string hstring hshows left
  have hfloat : d.conversion.isFloat = false := by rw [hstring]; rfl
  refine ⟨Directive.precisionFrom_of_read hread, d.shownText s, hshows, ?_, ?_, ?_⟩
  · rw [Reading.ofTextAt_of_read hread, hresolve]
  · intro r
    rw [Directive.writes_of_resolve hresolve,
      Directive.bytes_text hfloat (Directive.isSettled_of_read hread)]
  · obtain ⟨t, after, htext, -, hdirective⟩ := DirectiveText.exists_of_read hread
    obtain ⟨stars, rfl, -, hstars⟩ := t.takes_directive.exists_taken hdirective
    refine ⟨stars, rfl, fun s' hshows' => ?_⟩
    rw [htext]
    exact DirectiveText.indistinct hstars hstring hshows hshows' after

/-- What stands behind the third byte does not count if the argument for the `*` is 3. -/
theorem directive_string_star :
    ∃ d : Directive,
      Directive.read (latin ['%', '-', '5', '.', '*', 's']) 0
        [.int 3, .string (some [97, 98, 99, 100, 0])] =
          (.ok (d, 6), [.string (some [97, 98, 99, 100, 0])]) ∧
      d.conversion = .string ∧ d.textLimit = 3 ∧
      d.writes .full [.string (some [97, 98, 99, 100, 0])] =
        (.ok (latin ['a', 'b', 'c', ' ', ' ']), []) ∧
      format .full (latin ['%', '-', '5', '.', '*', 's'])
          [.int 3, .string (some [97, 98, 99, 100, 0])] =
        format .full (latin ['%', '-', '5', '.', '*', 's'])
          [.int 3, .string (some [97, 98, 99, 0, 100])] := by
  let d : Directive :=
    { flags := { leftAdjust := true }
      width := { given := true, value := 5 }
      precision := { given := true, fromArgument := true, value := 3 }
      conversion := .string }
  have hread : Directive.read (latin ['%', '-', '5', '.', '*', 's']) 0
      [.int 3, .string (some [97, 98, 99, 100, 0])] =
        (.ok (d, 6), [.string (some [97, 98, 99, 100, 0])]) := by
    decide +kernel
  obtain ⟨-, shown, hshows, -, hwrites, stars, hargs, hsame⟩ := directive_string hread rfl
  obtain rfl : [97, 98, 99] = shown := Directive.shows_iff.mp hshows
  obtain rfl : [.int 3] = stars := by
    apply List.append_cancel_right
    exact hargs
  have hother : d.Shows (some [97, 98, 99, 0, 100]) [97, 98, 99] := Directive.shows_iff.mpr rfl
  have hpreface : Preface .full [] [] := ⟨by simp, by simp [format_nil], by simp [format_nil]⟩
  exact ⟨d, hread, rfl, rfl, hwrites .full, (hsame _ hother).formatted .full [] [] hpreface⟩

end FormattedOutput
