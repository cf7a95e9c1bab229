import FormattedOutput.Proofs.Field.Filling
import FormattedOutput.Proofs.Format.Splitting

/-!
# What the two renderers have in common

Both renderers read a format text in the same way: they take the same arguments and reject the same
directive. They write the same text between the directives. The reduced renderer puts blanks before
what the full one writes with the width 0, and has a placeholder for every floating-point number.
-/

namespace FormattedOutput

/-! ## One directive -/

namespace Directive

variable {d : Directive} {args left : List Arg} {s : Segment}

/-- What the reduced renderer writes for a directive, told by what the full one writes for it with
the width 0. -/
def Reduces (d : Directive) (value : List Arg) (out : Bytes) : Prop :=
  if d.conversion.isFloat then out = d.rightAdjust (latin ['(', 'n', '/', 'a', ')'])
  else ∃ plain, Consumes ((d.withWidth 0).writes .full) value plain ∧ out = d.rightAdjust plain

theorem takes_writes (d : Directive) (r : Renderer) : Takes (d.writes r) 1 :=
  d.takes_resolve.map (Segment.bytes r)

theorem writes_of_resolve (h : d.resolve args = (.ok s, left)) (r : Renderer) :
    d.writes r args = (.ok (s.bytes r), left) := by
  rw [writes, h]
  rfl

/-- The reduced renderer writes a placeholder or what is in the field. -/
theorem bytes_reduced (hmakes : d.Makes s) :
    s.bytes .reduced = d.rightAdjust
      (if d.conversion.isFloat then latin ['(', 'n', '/', 'a', ')'] else s.content) := by
  cases hmakes with
  | integer value hfloat =>
    rw [hfloat]
    exact (d.integerField value).concat_plainLayout d
  | double bits hfloat =>
    rw [hfloat]
    exact Renderer.placeholder.concat_plainLayout d
  | unavailable hfloat =>
    rw [hfloat]
    exact Renderer.placeholder.concat_plainLayout d
  | text bytes hfloat =>
    rw [hfloat]
    exact (Field.ofText bytes).concat_plainLayout d

theorem reduces_of_resolve (h : d.resolve args = (.ok s, []))
    (hsettled : d.IsSettled) :
    d.Reduces args (s.bytes .reduced) := by
  have hbytes := bytes_reduced (makes_of_resolve h)
  unfold Reduces
  split_ifs with hfloat
  · rw [hbytes, if_pos hfloat]
  · refine ⟨s.content, ?_, ?_⟩
    · exact (takes_writes _ _).consumes (writes_unfilled h hsettled)
    · rw [hbytes, if_neg hfloat]

end Directive

/-! ## Texts without a fault -/

/-- A text is read without a fault and takes these arguments. For it the full renderer writes the
first output and the reduced renderer the second one, piece by piece. -/
inductive Agree : Bytes → List Arg → Bytes → Bytes → Prop where
  | nil : Agree [] [] [] []
  | literal {byte : UInt8} {text : Bytes} {taken : List Arg} {full reduced : Bytes}
      (hbyte : byte ≠ 37) (h : Agree text taken full reduced) :
      Agree (byte :: text) taken (byte :: full) (byte :: reduced)
  | percent {text : Bytes} {taken : List Arg} {full reduced : Bytes}
      (h : Agree text taken full reduced) :
      Agree (37 :: 37 :: text) taken (37 :: full) (37 :: reduced)
  | directive {text : Bytes} {stars value taken : List Arg} {d : Directive}
      {full reduced full' reduced' : Bytes} (t : DirectiveText)
      (hdirective : Consumes t.directive stars d)
      (hfull : Consumes (d.writes .full) value full)
      (hreduced : Consumes (d.writes .reduced) value reduced)
      (hreduces : d.Reduces value reduced) (h : Agree text taken full' reduced') :
      Agree (37 :: (t.bytes ++ text)) (stars ++ value ++ taken) (full ++ full')
        (reduced ++ reduced')

/-- A directive takes its stars, and then its value. -/
theorem DirectiveText.exists_of_segment {t : DirectiveText} {own : List Arg} {s : Segment}
    (h : Consumes t.segment own s) :
    ∃ stars value d, own = stars ++ value ∧ Consumes t.directive stars d ∧
      d.resolve value = (.ok s, []) ∧ d.IsSettled := by
  have hown := h.enough []
  rw [List.append_nil, segment] at hown
  rcases hdirective : t.directive own with ⟨fault | d, value⟩
  · simp [hdirective, Taken.andThen] at hown
  · simp only [hdirective, Taken.andThen] at hown
    obtain ⟨stars, rfl, -, hstars⟩ := t.takes_directive.exists_taken hdirective
    exact ⟨stars, value, d, rfl, hstars, hown, (valid_of_directive hdirective).isSettled⟩

theorem Reading.Complete.agree {text : Bytes} {taken : List Arg} {segments : List Segment}
    (h : Complete text taken segments) :
    Agree text taken (segments.flatMap (Segment.bytes .full))
      (segments.flatMap (Segment.bytes .reduced)) := by
  induction h with
  | nil => exact .nil
  | literal hbyte _ ih => exact .literal hbyte ih
  | percent _ ih => exact .percent ih
  | directive t hown _ ih =>
    obtain ⟨stars, value, d, rfl, hstars, hresolve, hsettled⟩ :=
      DirectiveText.exists_of_segment hown
    have hwrites := fun r => (d.takes_writes r).consumes (Directive.writes_of_resolve hresolve r)
    exact .directive t hstars (hwrites .full) (hwrites .reduced)
      (Directive.reduces_of_resolve hresolve hsettled) ih

/-! ## Whole texts -/

theorem Formatted.bytes_format (r : Renderer) (text : Bytes) (args : List Arg) :
    (format r text args).bytes =
      (Reading.ofText text args).segments.flatMap (Segment.bytes r) := by
  unfold Formatted.bytes format Reading.pieces Piece.concat Segment.bytes
  exact List.flatMap_assoc

/-- Whether a text is formatted, and with which error it is not, does not depend on the sink. -/
theorem Sink.outcome_format {σ : Type} [Sink σ] (sink : σ) (r : Renderer) (text : Bytes)
    (args : List Arg) :
    (Sink.format sink r text args).2.map (fun _ => ()) =
      (FormattedOutput.format r text args).failure.elim (.ok ()) .error := by
  cases hfailure : (FormattedOutput.format r text args).failure with
  | none =>
    rw [Sink.format_of_none sink hfailure]
    rfl
  | some e =>
    rw [Sink.format_of_some sink hfailure]
    rfl

/-- With either renderer a format text has the same outcome and leaves the same arguments, whatever
it is written to. Up to its end, or up to the directive that is rejected, the outputs agree piece by
piece. -/
theorem renderers_agree (text : Bytes) (args : List Arg) :
    (∃ front back taken left, text.takeWhile (· != 0) = front ++ back ∧ args = taken ++ left ∧
      Agree front taken (format .full text args).bytes (format .reduced text args).bytes ∧
      (back = [] ∧ (format .full text args).failure = none ∧
          (format .full text args).args = left ∨
        back.head? = some 37 ∧ ∃ fault : Fault,
          (format .full text args).failure = some (fault.error front.length))) ∧
      (format .reduced text args).failure = (format .full text args).failure ∧
      (format .reduced text args).args = (format .full text args).args ∧
      ∀ {σ τ : Type} [Sink σ] [Sink τ] (sink : σ) (sink' : τ),
        (Sink.format sink .full text args).2.map (fun _ => ()) =
          (Sink.format sink' .reduced text args).2.map (fun _ => ()) := by
  obtain ⟨front, back, taken, left, htext, hargs, hcomplete, hstop⟩ :=
    Reading.exists_stops 0 (text.takeWhile (· != 0)) args
  rw [Nat.zero_add] at hstop
  refine ⟨⟨front, back, taken, left, htext, hargs, ?_, hstop⟩, rfl, rfl, ?_⟩
  · rw [Formatted.bytes_format, Formatted.bytes_format]
    exact hcomplete.agree
  · intro σ τ _ _ sink sink'
    rw [Sink.outcome_format, Sink.outcome_format]
    rfl

/-- The flags for what fills a field do not count without the full renderer. -/
example : (format .reduced (latin ['%', '-', '3', 'd', '%', '0', '3', 'd', '%', '0', '7', 'f'])
    [.int 5, .int 5, .double 0]).bytes =
      latin [' ', ' ', '5', ' ', ' ', '5', ' ', ' ', '(', 'n', '/', 'a', ')'] := by
  decide +kernel

end FormattedOutput
