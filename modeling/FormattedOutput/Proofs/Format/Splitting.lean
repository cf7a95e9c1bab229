import FormattedOutput.Sink.Steps
import FormattedOutput.Proofs.Directive.Consumption
import Mathlib.Data.List.TakeWhile

/-!
# Cutting a format text in two

A format text is read from the left, and only the position and the arguments that are left pass
from one directive to the next. So a text comes to the same as its two halves, wherever the first
half can be read on its own. The place of a rejected directive is such a place.
-/

namespace FormattedOutput

/-- The error of a directive that stands so many bytes further on. -/
def Error.shift (e : Error) (count : Nat) : Error :=
  { e with position := count + e.position }

namespace Reading

variable {text rest : Bytes} {args left : List Arg}

/-! ## The first part of a text -/

theorem ofTextAt_nil (position : Nat) (args : List Arg) :
    ofTextAt position [] args = ⟨[], args, none⟩ := by
  rw [ofTextAt]

theorem ofTextAt_percent (position : Nat) (text : Bytes) (args : List Arg) :
    ofTextAt position (37 :: 37 :: text) args =
      (ofTextAt (position + 2) text args).after (.literal 37) := by
  rw [ofTextAt]

theorem ofTextAt_literal (position : Nat) {byte : UInt8} (text : Bytes) (args : List Arg)
    (h : byte ≠ 37) :
    ofTextAt position (byte :: text) args =
      (ofTextAt (position + 1) text args).after (.literal byte) := by
  rw [ofTextAt]
  · rintro rest rfl
    exact absurd rfl h
  · exact h

/-- A `%` that no second one follows starts a directive. -/
theorem ofTextAt_directive (position : Nat) {text : Bytes} (args : List Arg)
    (hhead : text.head? ≠ some 37) :
    ofTextAt position (37 :: text) args =
      match Modifiers.parse {} text args with
      | (.ok (d, next), args) =>
        match d.resolve args with
        | (.ok segment, args) =>
          (ofTextAt (position + (text.length + 1 - next.length)) next args).after segment
        | (.error fault, args) => ⟨[], args, some (fault.error position)⟩
      | (.error fault, args) => ⟨[], args, some (fault.error position)⟩ := by
  rw [ofTextAt.eq_def]
  split
  · contradiction
  · rename_i heq
    obtain ⟨_, rfl⟩ := List.cons.inj heq
    exact absurd rfl hhead
  · rename_i heq
    obtain ⟨_, rfl⟩ := List.cons.inj heq
    split
    · rename_i hparse
      rw [hparse]
      rfl
    · rename_i hparse
      rw [hparse]
  · rename_i htwo heq
    exact absurd (List.cons.inj heq).1.symm htwo

/-- A directive comes to its segment, or ends the reading. -/
theorem ofTextAt_bytes (position : Nat) (t : DirectiveText) (after : Bytes) (args : List Arg) :
    ofTextAt position (37 :: (t.bytes ++ after)) args =
      match t.segment args with
      | (.ok segment, args) =>
        (ofTextAt (position + (t.bytes.length + 1)) after args).after segment
      | (.error fault, args) => ⟨[], args, some (fault.error position)⟩ := by
  have hlength : (t.bytes ++ after).length + 1 - after.length = t.bytes.length + 1 := by
    rw [List.length_append]
    omega
  rw [ofTextAt_directive position args (t.head_bytes_ne after), t.parse_bytes,
    DirectiveText.segment]
  rcases t.directive args with ⟨fault | d, args⟩
  · rfl
  · simp only [Taken.map, Taken.andThen, hlength]

/-- Puts segments before all others. -/
def afterAll (r : Reading) (segments : List Segment) : Reading :=
  { r with segments := segments ++ r.segments }

theorem afterAll_after (r : Reading) (segment : Segment) (segments : List Segment) :
    (r.afterAll segments).after segment = r.afterAll (segment :: segments) := rfl

/-! ## Texts without a fault -/

/-- A whole text is read without a fault. It takes these arguments and comes to these segments. -/
inductive Complete : Bytes → List Arg → List Segment → Prop where
  | nil : Complete [] [] []
  | literal {byte : UInt8} {text : Bytes} {taken : List Arg} {segments : List Segment}
      (hbyte : byte ≠ 37) (h : Complete text taken segments) :
      Complete (byte :: text) taken (.literal byte :: segments)
  | percent {text : Bytes} {taken : List Arg} {segments : List Segment}
      (h : Complete text taken segments) :
      Complete (37 :: 37 :: text) taken (.literal 37 :: segments)
  | directive {text : Bytes} {own taken : List Arg} {segment : Segment} {segments : List Segment}
      (t : DirectiveText) (hown : Consumes t.segment own segment)
      (h : Complete text taken segments) :
      Complete (37 :: (t.bytes ++ text)) (own ++ taken) (segment :: segments)

namespace Complete

variable {front back : Bytes} {taken taken' : List Arg} {segments segments' : List Segment}

theorem append (hfront : Complete front taken segments)
    (hback : Complete back taken' segments') :
    Complete (front ++ back) (taken ++ taken') (segments ++ segments') := by
  induction hfront with
  | nil => exact hback
  | literal hbyte _ ih => exact .literal hbyte ih
  | percent _ ih => exact .percent ih
  | directive t hown _ ih =>
    have happend := directive t hown ih
    simpa [List.append_assoc] using happend

/-- Behind a text that is read without a fault the reading goes on with the arguments that are
left. -/
theorem ofTextAt_append (h : Complete front taken segments) (position : Nat) (back : Bytes)
    (rest : List Arg) :
    ofTextAt position (front ++ back) (taken ++ rest) =
      (ofTextAt (position + front.length) back rest).afterAll segments := by
  induction h generalizing position with
  | nil => rfl
  | literal hbyte _ ih =>
    rw [List.cons_append, ofTextAt_literal _ _ _ hbyte, ih, afterAll_after,
      List.length_cons, Nat.add_assoc, Nat.add_comm 1]
  | percent _ ih =>
    rw [List.cons_append, List.cons_append, ofTextAt_percent, ih, afterAll_after,
      List.length_cons, List.length_cons, Nat.add_assoc, Nat.add_comm 2]
  | @directive text own taken segment segments t hown _ ih =>
    have hlength : position + (37 :: (t.bytes ++ text)).length =
        position + (t.bytes.length + 1) + text.length := by
      simp only [List.length_cons, List.length_append]
      omega
    rw [List.cons_append, List.append_assoc, List.append_assoc, ofTextAt_bytes,
      hown.enough, hlength]
    simp only
    rw [ih, afterAll_after]

end Complete

/-- Every text is read without a fault up to some place. That is its end, or the place of the
rejected directive. -/
structure Stops (r : Reading) (position : Nat) (front back : Bytes) (taken left : List Arg) :
    Prop where
  complete : Complete front taken r.segments
  stop : back = [] ∧ r.failure = none ∧ r.args = left ∨
    back.head? = some 37 ∧ ∃ fault : Fault, r.failure = some (fault.error (position + front.length))

/-- One more part stands in front. -/
theorem Stops.cons {r : Reading} {position count : Nat} {part front back : Bytes}
    {own taken left : List Arg} {segment : Segment}
    (h : Stops r (position + count) front back taken left) (hcount : part.length = count)
    (hpart : Complete part own [segment]) :
    Stops (r.after segment) position (part ++ front) back (own ++ taken) left := by
  refine ⟨hpart.append h.complete, ?_⟩
  rcases h.stop with hend | ⟨hhead, fault, hfailure⟩
  · exact Or.inl hend
  · refine Or.inr ⟨hhead, fault, ?_⟩
    rw [List.length_append, hcount, ← Nat.add_assoc]
    exact hfailure

theorem stops_of_fault (position : Nat) (text : Bytes) (args left : List Arg) (fault : Fault) :
    Stops ⟨[], left, some (fault.error position)⟩ position [] (37 :: text) [] args :=
  ⟨.nil, Or.inr ⟨rfl, fault, rfl⟩⟩

theorem exists_stops (position : Nat) (text : Bytes) (args : List Arg) :
    ∃ front back taken left, text = front ++ back ∧ args = taken ++ left ∧
      Stops (ofTextAt position text args) position front back taken left := by
  fun_induction ofTextAt position text args with
  | case1 position args => exact ⟨[], [], [], args, rfl, rfl, .nil, Or.inl ⟨rfl, rfl, rfl⟩⟩
  | case2 position args text ih =>
    obtain ⟨front, back, taken, left, rfl, rfl, hstops⟩ := ih
    exact ⟨_, back, _, left, rfl, rfl, hstops.cons rfl (.percent .nil)⟩
  | case3 position args text hpercent d next middle hparse segment last hresolve ih =>
    obtain ⟨front, back, taken, left, hnext, rfl, hstops⟩ := ih
    obtain ⟨t, rfl, hdirective⟩ := DirectiveText.exists_of_parse hparse
    have hsegment : t.segment args = (.ok segment, taken ++ left) := by
      rw [DirectiveText.segment, hdirective]
      exact hresolve
    obtain ⟨own, rfl, _, hown⟩ := t.takes_segment.exists_taken hsegment
    have hpart : Complete (37 :: t.bytes) own [segment] := by
      simpa using Complete.directive t hown .nil
    refine ⟨37 :: t.bytes ++ front, back, own ++ taken, left, ?_, ?_, hstops.cons ?_ hpart⟩
    · rw [hnext, List.cons_append, List.cons_append, List.append_assoc]
    · rw [List.append_assoc]
    · simp only [List.length_cons, List.length_append]
      omega
  | case4 position args text hpercent d next middle hparse fault left hresolve =>
    exact ⟨[], 37 :: text, [], args, rfl, rfl, stops_of_fault position text args left fault⟩
  | case5 position args text hpercent fault left hparse =>
    exact ⟨[], 37 :: text, [], args, rfl, rfl, stops_of_fault position text args left fault⟩
  | case6 position args byte text _ hbyte ih =>
    obtain ⟨front, back, taken, left, rfl, rfl, hstops⟩ := ih
    exact ⟨_, back, _, left, rfl, rfl, hstops.cons rfl (.literal hbyte .nil)⟩

/-! ## Positions -/

/-- A reading whose text stands so many bytes further on. -/
def shift (r : Reading) (count : Nat) : Reading :=
  { r with failure := r.failure.map (·.shift count) }

theorem shift_after (r : Reading) (count : Nat) (segment : Segment) :
    (r.shift count).after segment = (r.after segment).shift count := rfl

theorem head?_ne_of_forall {text : Bytes} (h : ∀ rest, text = 37 :: rest → False) :
    text.head? ≠ some 37 := by
  intro hhead
  obtain ⟨rest, rfl⟩ := List.head?_eq_some_iff.mp hhead
  exact h rest rfl

/-- The position is only told, in the error if there is one. -/
theorem ofTextAt_add (count position : Nat) (text : Bytes) (args : List Arg) :
    ofTextAt (count + position) text args = (ofTextAt position text args).shift count := by
  fun_induction ofTextAt position text args with
  | case1 position args => exact ofTextAt_nil _ _
  | case2 position args text ih =>
    rw [ofTextAt_percent, Nat.add_assoc, ih, shift_after]
  | case3 position args text hpercent d next middle hparse segment last hresolve ih =>
    rw [ofTextAt_directive _ _ (head?_ne_of_forall hpercent), hparse]
    simp only [hresolve]
    rw [Nat.add_assoc, ← shift_after]
    exact congrArg (after · segment) ih
  | case4 position args text hpercent d next middle hparse fault last hresolve =>
    rw [ofTextAt_directive _ _ (head?_ne_of_forall hpercent), hparse]
    simp only [hresolve]
    rfl
  | case5 position args text hpercent fault last hparse =>
    rw [ofTextAt_directive _ _ (head?_ne_of_forall hpercent), hparse]
    rfl
  | case6 position args byte text _ hbyte ih =>
    rw [ofTextAt_literal _ _ _ hbyte, Nat.add_assoc, ih, shift_after]

end Reading

/-! ## Whole texts -/

theorem takeWhile_append_of_not_mem {front : Bytes} (hzero : 0 ∉ front) (back : Bytes) :
    (front ++ back).takeWhile (· != 0) = front ++ back.takeWhile (· != 0) := by
  apply List.takeWhile_append_of_pos
  intro byte hbyte
  rw [bne_iff_ne]
  rintro rfl
  exact hzero hbyte

theorem takeWhile_eq_self {text : Bytes} (hzero : 0 ∉ text) : text.takeWhile (· != 0) = text := by
  have happend := takeWhile_append_of_not_mem hzero []
  simpa using happend

theorem zero_notMem_takeWhile (text : Bytes) : 0 ∉ text.takeWhile (· != 0) := by
  intro hmem
  have hne := List.mem_takeWhile_imp hmem
  contradiction

/-- Nothing after a zero byte counts. -/
theorem format_takeWhile (r : Renderer) (text : Bytes) (args : List Arg) :
    format r (text.takeWhile (· != 0)) args = format r text args := by
  unfold format Reading.ofText
  rw [takeWhile_eq_self (zero_notMem_takeWhile text)]

theorem format_nil (r : Renderer) (args : List Arg) : format r [] args = ⟨[], args, none⟩ := by
  simp [format, Reading.ofText, Reading.ofTextAt_nil, Reading.pieces]

/-- A directive writes its segment and the formatting goes on, or it ends the formatting. -/
theorem format_directive (r : Renderer) (t : DirectiveText) (after : Bytes) (args : List Arg) :
    format r (37 :: (t.bytes ++ after)) args =
      match t.segment args with
      | (.ok segment, args) =>
        { format r after args with
          pieces := segment.pieces r ++ (format r after args).pieces
          failure := (format r after args).failure.map (·.shift (t.bytes.length + 1)) }
      | (.error fault, args) => ⟨[], args, some (fault.error 0)⟩ := by
  have hzero : 0 ∉ 37 :: t.bytes := by
    intro hmem
    rcases List.mem_cons.mp hmem with hpercent | hbytes
    · contradiction
    · exact (t.bytes_ne hbytes).1 rfl
  unfold format Reading.ofText
  rw [← List.cons_append, takeWhile_append_of_not_mem hzero, List.cons_append,
    Reading.ofTextAt_bytes]
  rcases t.segment args with ⟨fault | segment, left⟩
  · rfl
  · simp only [Nat.zero_add]
    rw [← Nat.add_zero (t.bytes.length + 1), Reading.ofTextAt_add]
    rfl

section

variable {r : Renderer} {text front : Bytes} {args taken : List Arg} {segments : List Segment}

/-- Behind a text that is read without a fault the formatting goes on with the arguments that are
left. -/
theorem Reading.Complete.format_behind (h : Reading.Complete front taken segments)
    (hzero : 0 ∉ front) (r : Renderer) (back : Bytes) (rest : List Arg) :
    format r (front ++ back) (taken ++ rest) =
      { format r back rest with
        pieces := segments.flatMap (Segment.pieces r) ++ (format r back rest).pieces
        failure := (format r back rest).failure.map (·.shift front.length) } := by
  have hread : Reading.ofText (front ++ back) (taken ++ rest) =
      ((Reading.ofText back rest).shift front.length).afterAll segments := by
    unfold Reading.ofText
    rw [takeWhile_append_of_not_mem hzero, h.ofTextAt_append, Nat.zero_add,
      ← Reading.ofTextAt_add, Nat.add_zero]
  unfold format
  simp only [hread, Reading.pieces]
  simp [Reading.afterAll, Reading.shift]

/-- A text that is read without a fault is formatted without one. -/
theorem Reading.Complete.format_eq (h : Reading.Complete front taken segments)
    (hzero : 0 ∉ front) (r : Renderer) (rest : List Arg) :
    format r front (taken ++ rest) = ⟨segments.flatMap (Segment.pieces r), rest, none⟩ := by
  have happend := h.format_behind hzero r [] rest
  rw [format_nil] at happend
  simpa using happend

/-- A text that is formatted without a fault is read without one, up to its zero byte. -/
theorem exists_complete (h : (format r text args).failure = none) :
    ∃ taken, args = taken ++ (format r text args).args ∧
      Reading.Complete (text.takeWhile (· != 0)) taken (Reading.ofText text args).segments := by
  obtain ⟨front, back, taken, left, htext, hargs, hcomplete, hstop⟩ :=
    Reading.exists_stops 0 (text.takeWhile (· != 0)) args
  rcases hstop with ⟨rfl, _, hleft⟩ | ⟨_, fault, hfailure⟩
  · rw [List.append_nil] at htext
    rw [← htext] at hcomplete
    exact ⟨taken, hargs.trans (congrArg (taken ++ ·) hleft.symm), hcomplete⟩
  · exact absurd (hfailure.symm.trans h) (by simp)

/-- A text with a rejected directive is read without a fault up to the `%` of the directive. -/
theorem exists_complete_of_failure {e : Error} (h : (format r text args).failure = some e) :
    ∃ front back taken left, text = front ++ 37 :: back ∧ front.length = e.position ∧
      0 ∉ front ∧ args = taken ++ left ∧
        Reading.Complete front taken (Reading.ofText text args).segments := by
  obtain ⟨front, back, taken, left, htext, hargs, hcomplete, hstop⟩ :=
    Reading.exists_stops 0 (text.takeWhile (· != 0)) args
  rcases hstop with ⟨_, hnone, _⟩ | ⟨hhead, fault, hfailure⟩
  · exact absurd (hnone.symm.trans h) (by simp)
  · obtain ⟨back, rfl⟩ := List.head?_eq_some_iff.mp hhead
    have hwhole := @List.takeWhile_append_dropWhile _ (· != 0) text
    rw [htext, List.append_assoc, List.cons_append] at hwhole
    refine ⟨front, _, taken, left, hwhole.symm, ?_, ?_, hargs, hcomplete⟩
    · have he := Option.some.inj (hfailure.symm.trans h)
      rw [← he]
      exact (Nat.zero_add _).symm
    · intro hmem
      apply zero_notMem_takeWhile text
      rw [htext]
      exact List.mem_append_left _ hmem

/-- A text in front of another one is formatted alone, with these arguments. -/
structure Preface (r : Renderer) (front : Bytes) (own : List Arg) : Prop where
  zero_notMem : 0 ∉ front
  succeeds : (format r front own).failure = none
  all_taken : (format r front own).args = []

/-- Behind such a text the formatting goes on with the other arguments. -/
theorem Preface.format_behind {own : List Arg} (h : Preface r front own) (back : Bytes)
    (args : List Arg) :
    format r (front ++ back) (own ++ args) =
      { format r back args with
        pieces := (format r front own).pieces ++ (format r back args).pieces
        failure := (format r back args).failure.map (·.shift front.length) } := by
  obtain ⟨taken, hown, hcomplete⟩ := exists_complete h.succeeds
  rw [h.all_taken, List.append_nil] at hown
  rw [takeWhile_eq_self h.zero_notMem, ← hown] at hcomplete
  have halone := hcomplete.format_eq h.zero_notMem r []
  rw [List.append_nil] at halone
  rw [hcomplete.format_behind h.zero_notMem, halone]

/-- What comes to the same alone comes to the same behind such a text. -/
theorem Preface.format_congr {own : List Arg} (h : Preface r front own) {back back' : Bytes}
    {args args' : List Arg} (hback : format r back args = format r back' args') :
    format r (front ++ back) (own ++ args) = format r (front ++ back') (own ++ args') := by
  rw [h.format_behind, h.format_behind, hback]

end

theorem Sink.format_congr {σ : Type} [Sink σ] (sink : σ) {r : Renderer} {text text' : Bytes}
    {args args' : List Arg}
    (h : FormattedOutput.format r text args = FormattedOutput.format r text' args') :
    Sink.format sink r text args = Sink.format sink r text' args' := by
  unfold Sink.format
  rw [h]

/-- A text that is formatted without a fault gives the count of the sink. -/
theorem Sink.format_of_none {σ : Type} [Sink σ] (sink : σ) {r : Renderer} {text : Bytes}
    {args : List Arg} (h : (FormattedOutput.format r text args).failure = none) :
    Sink.format sink r text args =
      (writeAll sink (FormattedOutput.format r text args).pieces,
        .ok (count (writeAll sink (FormattedOutput.format r text args).pieces))) := by
  simp [Sink.format, h]

theorem Sink.format_of_some {σ : Type} [Sink σ] (sink : σ) {r : Renderer} {text : Bytes}
    {args : List Arg} {e : Error} (h : (FormattedOutput.format r text args).failure = some e) :
    Sink.format sink r text args =
      (writeAll sink (FormattedOutput.format r text args).pieces, .error e) := by
  simp [Sink.format, h]

/-- A rejected directive writes nothing, and nothing before it is lost: the text up to its `%`
succeeds alone, with the same output. So every sink ends up the same. -/
theorem format_failure (r : Renderer) (text : Bytes) (args : List Arg) (e : Error)
    (h : (format r text args).failure = some e) :
    text[e.position]? = some 37 ∧ 0 ∉ text.take e.position ∧
      (format r (text.take e.position) args).failure = none ∧
      (format r (text.take e.position) args).bytes = (format r text args).bytes ∧
      ∀ {σ : Type} [Sink σ] (sink : σ), (Sink.format sink r text args).2 = .error e ∧
        Sink.format sink r (text.take e.position) args =
          ((Sink.format sink r text args).1,
            .ok (Sink.count (Sink.format sink r text args).1)) := by
  obtain ⟨front, back, taken, left, htext, hlength, hzero, hargs, hcomplete⟩ :=
    exists_complete_of_failure h
  have htake : text.take e.position = front := by
    rw [htext, ← hlength, List.take_left]
  have hfront : format r front args = ⟨(format r text args).pieces, left, none⟩ := by
    rw [hargs, hcomplete.format_eq hzero, ← hargs]
    rfl
  rw [htake, hfront]
  refine ⟨?_, hzero, rfl, rfl, ?_⟩
  · rw [htext, ← hlength, List.getElem?_append_right (Nat.le_refl _), Nat.sub_self]
    rfl
  · intro σ _ sink
    have hwhole := Sink.format_of_some sink h
    have hnone : (format r front args).failure = none := by rw [hfront]
    rw [Sink.format_of_none sink hnone, hwhole, hfront]
    exact ⟨rfl, rfl⟩

/-- Of the second directive the precision is missing. The first one is written, the second one is
not, although its width is there. -/
theorem format_failure_starved :
    (format .full (latin ['a', '%', 'd', '%', '*', '.', '*', 'f', '!']) [.int 7, .int 5]).failure =
        some ⟨.invalidArgument, "too few arguments", 3⟩ ∧
      (format .full (latin ['a', '%', 'd']) [.int 7, .int 5]).bytes =
        (format .full (latin ['a', '%', 'd', '%', '*', '.', '*', 'f', '!'])
          [.int 7, .int 5]).bytes := by
  have h : (format .full (latin ['a', '%', 'd', '%', '*', '.', '*', 'f', '!'])
      [.int 7, .int 5]).failure = some ⟨.invalidArgument, "too few arguments", 3⟩ := by
    decide +kernel
  exact ⟨h, (format_failure _ _ _ _ h).2.2.2.1⟩

/-! ## Streams -/

/-- What comes of a format text whose sink has this count in the end. -/
def Formatted.result (f : Formatted) (count : Nat) : Except Error Nat :=
  f.failure.elim (.ok count) .error

namespace Stream

variable (s : Stream)

/-- The stream after some bytes. -/
def after (bytes : Bytes) : Stream := ⟨s.device.receive bytes, s.count + bytes.length⟩

theorem writeAll_eq_after (pieces : List Piece) :
    Sink.writeAll s pieces = s.after (Piece.concat pieces) := by
  rw [writeAll_eq, after, Piece.length_concat]

/-- A stream has all bytes that were written, up to the fault if there is one. -/
theorem format_eq_after (r : Renderer) (text : Bytes) (args : List Arg) :
    Sink.format s r text args =
      (s.after (format r text args).bytes,
        (format r text args).result (s.count + (format r text args).bytes.length)) := by
  unfold Formatted.result
  cases hfailure : (format r text args).failure with
  | none =>
    rw [Sink.format_of_none s hfailure, writeAll_eq_after]
    rfl
  | some error =>
    rw [Sink.format_of_some s hfailure, writeAll_eq_after]
    rfl

end Stream

/-! ## Two texts in a row -/

/-- How many of the arguments were taken. -/
def Formatted.taken (f : Formatted) (args : List Arg) : Nat := args.length - f.args.length

/-- A new stream counts the bytes of the whole output. -/
theorem Stream.format_eq (device : Device) (r : Renderer) (text : Bytes) (args : List Arg) :
    (Sink.format (Stream.mk device 0) r text args).2 =
      match (format r text args).failure with
      | none => .ok (format r text args).bytes.length
      | some e => .error e := by
  rw [format_eq_after, Nat.zero_add, Formatted.result]
  cases (format r text args).failure <;> rfl

/-- Two texts in a row come to what they come to alone, the second one with the arguments that the
first one leaves. Their counts add up, and an error of the second one stands further on. -/
theorem format_append (r : Renderer) (front back : Bytes) (args : List Arg) (taken count : Nat)
    (device : Device) (hzero : 0 ∉ front)
    (hfront : (Sink.format (Stream.mk device 0) r front args).2 = .ok count)
    (htaken : (format r front args).taken args = taken) :
    (format r (front ++ back) args).bytes =
        (format r front args).bytes ++ (format r back (args.drop taken)).bytes ∧
      (format r (front ++ back) args).args = (format r back (args.drop taken)).args ∧
      (Sink.format (Stream.mk device 0) r (front ++ back) args).2 =
        ((Sink.format (Stream.mk device 0) r back (args.drop taken)).2.map (count + ·)).mapError
          (·.shift front.length) := by
  have hnone : (format r front args).failure = none := by
    rw [Stream.format_eq] at hfront
    cases hfailure : (format r front args).failure with
    | none => rfl
    | some e => simp [hfailure] at hfront
  obtain ⟨own, hargs, hcomplete⟩ := exists_complete hnone
  rw [takeWhile_eq_self hzero] at hcomplete
  generalize (format r front args).args = left at hargs
  subst hargs
  have hwhole := hcomplete.format_behind hzero r back left
  have halone := hcomplete.format_eq hzero r left
  obtain rfl : own.length = taken := by
    rw [← htaken, halone]
    simp [Formatted.taken]
  obtain rfl : (format r front (own ++ left)).bytes.length = count := by
    rw [Stream.format_eq, hnone] at hfront
    exact Except.ok.inj hfront
  have hbytes : (format r (front ++ back) (own ++ left)).bytes =
      (format r front (own ++ left)).bytes ++ (format r back left).bytes := by
    rw [hwhole, halone]
    simp [Formatted.bytes]
  rw [List.drop_left]
  refine ⟨hbytes, by rw [hwhole], ?_⟩
  rw [Stream.format_eq, Stream.format_eq, hbytes, hwhole]
  cases (format r back left).failure with
  | none => simp [Except.map, Except.mapError]
  | some e => rfl

/-- The second text takes up where the first one leaves off, and its error stands 3 bytes further
on. -/
theorem format_append_shifted :
    (Sink.format (Stream.mk {} 0) .full (latin ['a', '%', 'd']) [.int 70, .string none]).2 =
        .ok 3 ∧
      (Sink.format (Stream.mk {} 0) .full (latin ['a', '%', 'd', '%', 's', '%', 'q'])
          [.int 70, .string none]).2 =
        .error ⟨.invalidArgument, "unknown conversion character", 5⟩ := by
  have hfront : (Sink.format (Stream.mk {} 0) .full (latin ['a', '%', 'd'])
      [.int 70, .string none]).2 = .ok 3 := by
    decide +kernel
  have htaken : (format .full (latin ['a', '%', 'd']) [.int 70, .string none]).taken
      [.int 70, .string none] = 1 := by
    decide +kernel
  have hback : (Sink.format (Stream.mk {} 0) .full (latin ['%', 's', '%', 'q'])
      [.string none]).2 = .error ⟨.invalidArgument, "unknown conversion character", 2⟩ := by
    decide +kernel
  refine ⟨hfront, ?_⟩
  have happend := (format_append .full (latin ['a', '%', 'd']) (latin ['%', 's', '%', 'q'])
    [.int 70, .string none] 1 3 {} (by decide) hfront htaken).2.2
  exact happend.trans (congrArg (fun result : Except Error Nat =>
    (result.map (3 + ·)).mapError (·.shift 3)) hback)

end FormattedOutput
