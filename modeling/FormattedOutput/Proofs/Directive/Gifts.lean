import FormattedOutput.Proofs.Directive.Consumption

/-!
# How often a directive gives its numbers

A digit or a `*` gives the width or the precision. A digit is refused if a `*` has given a number
before it, and a `*` is refused if both numbers came from a `*`. But a `*` is not refused if digits
or another `*` gave its number before. So a number is given twice where the second time it is a `*`
that gives it, or where a negative precision took back the first time.
-/

namespace FormattedOutput

/-! ## Gifts -/

/-- The two numbers of a directive. -/
inductive NumberName where
  | width
  | precision
  deriving DecidableEq, Repr

/-- What a mark gives to one of the numbers. -/
inductive Gift where
  /-- One more digit. -/
  | digit (name : NumberName) (value : Nat)
  /-- The number of an argument. -/
  | star (name : NumberName) (value : Int)
  deriving DecidableEq, Repr

namespace Gift

/-- The number that gets something. -/
def name : Gift → NumberName
  | .digit name _ => name
  | .star name _ => name

/-- The gift comes from an argument. -/
def isStar : Gift → Bool
  | .digit _ _ => false
  | .star _ _ => true

/-- Both gifts give the same number, and not as digits of it. -/
def Again (first second : Gift) : Prop :=
  first.name = second.name ∧ (first.isStar = true ∨ second.isStar = true)

instance (first second : Gift) : Decidable (Again first second) :=
  inferInstanceAs (Decidable (_ ∧ _))

/-- No number is given twice. -/
def GivenOnce (gifts : List Gift) : Prop := gifts.Pairwise fun first second => ¬Again first second

/-- The gift settles a number: it comes from an argument that counts. A negative precision is as if
none was given. -/
def settles (name : NumberName) : Gift → Bool
  | .star .width _ => name = .width
  | .star .precision value => name = .precision && decide (0 ≤ value)
  | .digit _ _ => false

/-- The gift is refused after other ones. -/
def refused (before : List Gift) : Gift → Bool
  | .digit .width _ => before.any (settles .width) || before.any (settles .precision)
  | .digit .precision _ => before.any (settles .precision)
  | .star _ _ => before.any (settles .width) && before.any (settles .precision)

/-- The width with one more gift. -/
def addWidth (width : Int) : Gift → Int
  | .digit .width value => width * 10 + value
  | .star .width value => value.natAbs
  | _ => width

/-- The precision with one more gift, whether it is in effect or not. -/
def addPrecision (precision : Int) : Gift → Int
  | .digit .precision value => precision * 10 + value
  | .star .precision value => if value < 0 then precision else value
  | _ => precision

/-- A number that was given may be given again by a `*`. It may be given again by a digit if what
gave it before was a negative precision. -/
def MayFollow (first second : Gift) : Prop :=
  Again first second → second.isStar = true ∨ ∃ value < 0, first = .star .precision value

theorem mayFollow_of_refused {first second : Gift} {front : List Gift} (hfirst : first ∈ front)
    (h : second.refused front = false) : MayFollow first second := by
  rintro ⟨hname, hstar⟩
  cases second with
  | star name value => exact Or.inl rfl
  | digit name value =>
    -- A digit comes after a `*` for its number only if that `*` settles nothing.
    obtain ⟨name', value', rfl⟩ : ∃ name' value', first = .star name' value' := by
      cases first with
      | star name' value' => exact ⟨name', value', rfl⟩
      | digit name' value' => simp [isStar] at hstar
    obtain rfl : name' = name := hname
    cases name' with
    | width =>
      simp only [refused, Bool.or_eq_false_iff, List.any_eq_false] at h
      exact absurd rfl (h.1 _ hfirst)
    | precision =>
      simp only [refused, List.any_eq_false] at h
      refine Or.inr ⟨value', ?_, rfl⟩
      simpa [settles] using h _ hfirst

end Gift

namespace Mark

/-- What a mark gives, if it gives something. -/
def gift? (m : Modifiers) (args : List Arg) : Mark → Option Gift
  | .digit d =>
    if m.length.bits?.isSome || (d.val = 0 && !m.precision.inline && !m.width.inline) then none
    else some (.digit (if m.precision.given then .precision else .width) d)
  | .star =>
    match Arg.takeInt args with
    | (.ok value, _) => some (.star (if m.precision.given then .precision else .width) value)
    | (.error _, _) => none
  | _ => none

/-- What a row of marks gives, up to the first one that is rejected. -/
def gifts (m : Modifiers) (args : List Arg) : List Mark → List Gift
  | [] => []
  | mark :: marks =>
    (mark.gift? m args).toList ++
      match mark.step m args with
      | (.ok m, args) => gifts m args marks
      | (.error _, _) => []

/-! ## One mark -/

/-- The modifiers are what these gifts have made of them. -/
structure Follows (m : Modifiers) (before : List Gift) : Prop where
  width_fromArgument : m.width.fromArgument = before.any (Gift.settles .width)
  precision_fromArgument : m.precision.fromArgument = before.any (Gift.settles .precision)
  width_value : m.width.value = before.foldl Gift.addWidth 0
  precision_value : m.precision.value = before.foldl Gift.addPrecision 0

theorem follows_nil : Follows {} [] := ⟨rfl, rfl, rfl, rfl⟩

variable {m m' : Modifiers} {args args' : List Arg} {before : List Gift} {mark : Mark}

theorem Follows.concat (h : Follows m before) {gift : Gift}
    (hwidth : m'.width.fromArgument = (m.width.fromArgument || gift.settles .width))
    (hprecision : m'.precision.fromArgument =
      (m.precision.fromArgument || gift.settles .precision))
    (hwidthValue : m'.width.value = gift.addWidth m.width.value)
    (hprecisionValue : m'.precision.value = gift.addPrecision m.precision.value) :
    Follows m' (before ++ [gift]) := by
  constructor
  · simp [hwidth, h.width_fromArgument]
  · simp [hprecision, h.precision_fromArgument]
  · simp [hwidthValue, h.width_value]
  · simp [hprecisionValue, h.precision_value]

theorem appendDigit?_eq_some {value next : Int} {digit : Nat}
    (h : appendDigit? value digit = some next) : next = value * 10 + digit := by
  unfold appendDigit? at h
  split at h
  · exact (Option.some.inj h).symm
  · contradiction

theorem Follows.precisionDigit (h : Follows m before) {d : Nat}
    (hstep : m.precisionDigit d = .ok m') :
    (Gift.digit .precision d).refused before = false ∧
      Follows m' (before ++ [.digit .precision d]) := by
  unfold Modifiers.precisionDigit at hstep
  split at hstep
  · contradiction
  · rename_i hsource
    split at hstep
    · rename_i value hvalue
      obtain rfl := Except.ok.inj hstep
      refine ⟨?_, h.concat ?_ ?_ rfl (appendDigit?_eq_some hvalue)⟩
      · simpa [Gift.refused, ← h.precision_fromArgument] using hsource
      · simp [Gift.settles]
      · simp [Gift.settles]
    · contradiction

theorem Follows.widthDigit (h : Follows m before) {d : Nat} (hstep : m.widthDigit d = .ok m') :
    (Gift.digit .width d).refused before = false ∧ Follows m' (before ++ [.digit .width d]) := by
  unfold Modifiers.widthDigit at hstep
  split at hstep
  · contradiction
  · rename_i hsource
    split at hstep
    · rename_i value hvalue
      obtain rfl := Except.ok.inj hstep
      refine ⟨?_, h.concat ?_ ?_ (appendDigit?_eq_some hvalue) rfl⟩
      · simpa [Gift.refused, ← h.width_fromArgument, ← h.precision_fromArgument] using hsource
      · simp [Gift.settles]
      · simp [Gift.settles]
    · contradiction

/-- The modifiers go on following what was given, together with what one more mark gives. -/
structure Grows (m' : Modifiers) (before : List Gift) (gift? : Option Gift) : Prop where
  refused : ∀ gift ∈ gift?, gift.refused before = false
  follows : Follows m' (before ++ gift?.toList)

/-- A mark that gives nothing leaves the numbers and where they came from. -/
theorem Follows.keep (h : Follows m before)
    (hwidth : m'.width.fromArgument = m.width.fromArgument)
    (hprecision : m'.precision.fromArgument = m.precision.fromArgument)
    (hwidthValue : m'.width.value = m.width.value)
    (hprecisionValue : m'.precision.value = m.precision.value) : Grows m' before none := by
  refine ⟨by simp, ?_⟩
  rw [Option.toList_none, List.append_nil]
  constructor
  · rw [hwidth, h.width_fromArgument]
  · rw [hprecision, h.precision_fromArgument]
  · rw [hwidthValue, h.width_value]
  · rw [hprecisionValue, h.precision_value]

theorem grows_some {gift : Gift} (hrefused : gift.refused before = false)
    (hfollows : Follows m' (before ++ [gift])) : Grows m' before (some gift) :=
  ⟨by simpa using hrefused, hfollows⟩

/-- A digit gives something, or it is a flag or belongs to the length. -/
theorem Follows.digit (h : Follows m before) {d : Fin 10} (hstep : m.digit d = .ok m')
    (args : List Arg) : Grows m' before (gift? m args (.digit d)) := by
  unfold Modifiers.digit at hstep
  cases hbits : m.length.bits? with
  | some bits =>
    have hnone : gift? m args (.digit d) = none := by simp [gift?, hbits]
    rw [hnone]
    simp only [hbits, Modifiers.bitDigit] at hstep
    split at hstep
    · contradiction
    · obtain rfl := Except.ok.inj hstep
      exact h.keep rfl rfl rfl rfl
  | none =>
    simp only [hbits] at hstep
    by_cases hflag : (d.val = 0 && !m.precision.inline && !m.width.inline) = true
    · have hnone : gift? m args (.digit d) = none := by
        rw [gift?, hflag, Bool.or_true, if_pos rfl]
      rw [hnone]
      rw [if_pos hflag, Modifiers.zeroFlag] at hstep
      split at hstep
      · contradiction
      · obtain rfl := Except.ok.inj hstep
        exact h.keep rfl rfl rfl rfl
    · have hsome : gift? m args (.digit d) =
          some (.digit (if m.precision.given then .precision else .width) d) := by
        rw [gift?, hbits, Option.isSome_none, Bool.false_or, if_neg hflag]
      rw [hsome]
      rw [if_neg hflag] at hstep
      by_cases hgiven : m.precision.given = true
      · rw [if_pos hgiven] at hstep
        obtain ⟨hrefused, hfollows⟩ := h.precisionDigit hstep
        rw [if_pos hgiven]
        exact grows_some hrefused hfollows
      · rw [if_neg hgiven] at hstep
        obtain ⟨hrefused, hfollows⟩ := h.widthDigit hstep
        rw [if_neg hgiven]
        exact grows_some hrefused hfollows

/-- A negative precision leaves the number, and the next mark may open a precision again. -/
theorem Follows.starPrecision (h : Follows m before) (value : Int) :
    Follows (m.starPrecision value) (before ++ [.star .precision value]) := by
  unfold Modifiers.starPrecision
  by_cases hnegative : value < 0
  · rw [if_pos hnegative]
    have hsettles : (Gift.star .precision value).settles .precision = false := by
      simpa [Gift.settles] using hnegative
    apply h.concat
    · simp [Gift.settles]
    · simp [hsettles]
    · rfl
    · simp [Gift.addPrecision, hnegative]
  · rw [if_neg hnegative]
    have hsettles : (Gift.star .precision value).settles .precision = true := by
      simpa [Gift.settles] using hnegative
    apply h.concat
    · simp [Gift.settles]
    · simp [hsettles]
    · rfl
    · simp [Gift.addPrecision, hnegative]

theorem Follows.starWidth (h : Follows m before) {value : Int}
    (hstep : m.starWidth value = .ok m') : Follows m' (before ++ [.star .width value]) := by
  unfold Modifiers.starWidth at hstep
  split at hstep
  · contradiction
  · obtain rfl := Except.ok.inj hstep
    apply h.concat
    · simp [Gift.settles]
    · simp [Gift.settles]
    · rfl
    · rfl

/-- A `*` gives the number of its argument. -/
theorem Follows.star (h : Follows m before) (hstep : m.star args = (.ok m', args')) :
    Grows m' before (gift? m args .star) := by
  unfold Modifiers.star at hstep
  split at hstep
  · simp at hstep
  · rename_i hthird
    have hrefused : ∀ name value, (Gift.star name value).refused before = false := by
      intro name value
      simpa [Gift.refused, ← h.width_fromArgument, ← h.precision_fromArgument] using hthird
    rcases hvalue : Arg.takeInt args with ⟨fault | value, left⟩
    · simp [hvalue] at hstep
    · simp only [hvalue] at hstep
      simp only [gift?, hvalue]
      by_cases hgiven : m.precision.given = true
      · rw [if_pos hgiven, Prod.mk.injEq, Except.ok.injEq] at hstep
        obtain ⟨rfl, -⟩ := hstep
        rw [if_pos hgiven]
        exact grows_some (hrefused _ _) (h.starPrecision value)
      · rw [if_neg hgiven, Prod.mk.injEq] at hstep
        rw [if_neg hgiven]
        exact grows_some (hrefused _ _) (h.starWidth hstep.1)

/-- A mark that is accepted gives nothing that is refused, and the modifiers follow what it
gives. -/
theorem Follows.step (h : Follows m before) (hstep : mark.step m args = (.ok m', args')) :
    Grows m' before (mark.gift? m args) := by
  cases mark with
  | digit d => exact h.digit (Prod.mk.inj hstep).1 args
  | star => exact h.star hstep
  | flag f =>
    obtain rfl := Except.ok.inj (Prod.mk.inj hstep).1
    exact h.keep rfl rfl rfl rfl
  | point =>
    have hpoint := (Prod.mk.inj hstep).1
    unfold Modifiers.point at hpoint
    split at hpoint
    · contradiction
    · obtain rfl := Except.ok.inj hpoint
      exact h.keep rfl rfl rfl rfl
  | letter x =>
    simp only [Mark.step] at hstep
    split at hstep
    · obtain rfl := Except.ok.inj (Prod.mk.inj hstep).1
      exact h.keep rfl rfl rfl rfl
    · simp at hstep
  | fast =>
    simp only [Mark.step] at hstep
    split at hstep
    · obtain rfl := Except.ok.inj (Prod.mk.inj hstep).1
      exact h.keep rfl rfl rfl rfl
    · simp at hstep

/-! ## A row of marks -/

/-- A row that runs through gives nothing that is refused. -/
theorem Follows.run {marks : List Mark} (h : Follows m before)
    (hrun : run m args marks = (.ok m', args')) :
    Follows m' (before ++ gifts m args marks) ∧
      ∀ front gift back, gifts m args marks = front ++ gift :: back →
        gift.refused (before ++ front) = false := by
  induction marks generalizing m args before with
  | nil =>
    obtain rfl := Except.ok.inj (Prod.mk.inj hrun).1
    simp [gifts, h]
  | cons mark marks ih =>
    rw [Mark.run] at hrun
    rw [gifts]
    rcases hstep : mark.step m args with ⟨fault | next, left⟩
    · simp [hstep] at hrun
    · simp only [hstep] at hrun ⊢
      have hgrows := h.step hstep
      obtain ⟨hfollows, hlater⟩ := ih hgrows.follows hrun
      refine ⟨by simpa using hfollows, ?_⟩
      intro front gift back hsplit
      cases hgift : mark.gift? m args with
      | none =>
        simp only [hgift, Option.toList_none, List.nil_append, List.append_nil] at hsplit hlater
        exact hlater front gift back hsplit
      | some first =>
        simp only [hgift, Option.toList_some, List.singleton_append] at hsplit hlater
        rcases front with _ | ⟨head, front⟩
        · obtain ⟨rfl, -⟩ := List.cons.inj hsplit
          rw [List.append_nil]
          exact hgrows.refused first hgift
        · obtain ⟨rfl, htail⟩ := List.cons.inj hsplit
          have := hlater front gift back htail
          simpa using this

theorem pairwise_mayFollow {gifts : List Gift}
    (h : ∀ front gift back, gifts = front ++ gift :: back → gift.refused front = false) :
    gifts.Pairwise Gift.MayFollow := by
  rw [List.pairwise_iff_getElem]
  intro i j hi hj hij
  have hsplit : gifts = gifts.take j ++ gifts[j] :: gifts.drop (j + 1) := by
    rw [← List.drop_eq_getElem_cons hj, List.take_append_drop]
  have hmem : gifts[i] ∈ gifts.take j := List.mem_take_iff_getElem.mpr ⟨i, by omega, rfl⟩
  exact Gift.mayFollow_of_refused hmem (h _ _ _ hsplit)

end Mark

/-! ## A whole directive -/

/-- In a directive that is accepted no digit gives a number after a `*` that settles it, and nothing
gives a number once a `*` has settled each of the two. A number may be given again by a `*`. Then
nothing is left of what gave it before, unless the `*` has a negative precision. -/
theorem directive_gifts {text : Bytes} {start stop : Nat} {args args' : List Arg} {d : Directive}
    (hread : Directive.read text start args = (.ok (d, stop), args')) :
    (∃ marks rest, Mark.Accepted {} args (text.drop (start + 1)) marks d rest args') ∧
      ∀ marks rest, Mark.Accepted {} args (text.drop (start + 1)) marks d rest args' →
        (∀ front gift back, Mark.gifts {} args marks = front ++ gift :: back →
          gift.refused front = false) ∧
        (Mark.gifts {} args marks).Pairwise Gift.MayFollow ∧
        d.width.value = (Mark.gifts {} args marks).foldl Gift.addWidth 0 ∧
        d.precision.value = (Mark.gifts {} args marks).foldl Gift.addPrecision 0 := by
  refine ⟨Mark.exists_accepted_of_read hread, ?_⟩
  rintro marks rest ⟨_, conversion, uppercase, m, -, -, -, hrun, hfinish⟩
  obtain ⟨hfollows, hrefused⟩ := Mark.follows_nil.run hrun
  simp only [List.nil_append] at hfollows hrefused
  refine ⟨hrefused, Mark.pairwise_mayFollow hrefused, ?_⟩
  unfold Modifiers.finish at hfinish
  split at hfinish
  · contradiction
  · obtain rfl := Except.ok.inj hfinish
    exact ⟨hfollows.width_value, hfollows.precision_value⟩

/-- A digit and then a `*` give the width 7. -/
theorem Mark.accepted_digit_star :
    Accepted {} [.int 7, .int 42] (latin ['5', '*', 'd']) [.digit 5, .star]
      { width := { given := true, fromArgument := true, value := 7 }, conversion := .signed } []
      [.int 42] :=
  ⟨100, .signed, false, { width := { given := true, fromArgument := true, value := 7 } },
    by decide +kernel, by decide, by decide, by decide +kernel, rfl⟩

/-- The digit is refused behind the `*` and not before it. What it gives is lost. -/
theorem directive_gifts_star_last :
    ∃ d : Directive,
      Directive.read (latin ['%', '5', '*', 'd']) 0 [.int 7, .int 42] = (.ok (d, 4), [.int 42]) ∧
        d.width.value = 7 ∧
        (Mark.gifts {} [.int 7, .int 42] [.digit 5, .star]).Pairwise Gift.MayFollow ∧
        Directive.read (latin ['%', '*', '5', 'd']) 0 [.int 7, .int 42] =
          (.error ⟨.invalidArgument, "width given both inline and by argument", 0⟩, [.int 42]) := by
  have hread : Directive.read (latin ['%', '5', '*', 'd']) 0 [.int 7, .int 42] =
      (.ok ({ width := { given := true, fromArgument := true, value := 7 },
              conversion := .signed }, 4), [.int 42]) := by
    decide +kernel
  have hgifts := (directive_gifts hread).2 _ _ Mark.accepted_digit_star
  exact ⟨_, hread, rfl, hgifts.2.1, by decide +kernel⟩

/-- So an accepted directive may give its width twice. -/
theorem directive_gives_twice :
    ¬∀ (text : Bytes) (start stop : Nat) (args args' : List Arg) (d : Directive),
      Directive.read text start args = (.ok (d, stop), args') →
        ∀ marks rest, Mark.Accepted {} args (text.drop (start + 1)) marks d rest args' →
          Gift.GivenOnce (Mark.gifts {} args marks) := by
  intro honce
  have hgiven := honce (latin ['%', '5', '*', 'd']) 0 4 _ _ _ (by decide +kernel) _ []
    Mark.accepted_digit_star
  have hgifts : Mark.gifts {} [.int 7, .int 42] [.digit 5, .star] =
      [.digit .width 5, .star .width 7] := by
    decide +kernel
  rw [hgifts] at hgiven
  revert hgiven
  unfold Gift.GivenOnce
  decide

end FormattedOutput
