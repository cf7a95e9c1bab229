import FormattedOutput.Proofs.Directive.Gifts

/-!
# The precision in effect

A point opens the precision of a directive, and a negative number from an argument takes it back.
So there is a precision if it was opened more often than it was taken back. It is what the digits
and the arguments have given.
-/

namespace FormattedOutput

/-- The gift takes the precision back. -/
def Gift.takesBack : Gift → Bool
  | .star .precision value => decide (value < 0)
  | _ => false

namespace Mark

/-- The precision that is in effect behind marks that gave this. -/
def precision? (marks : List Mark) (gifts : List Gift) : Option Int :=
  if gifts.countP Gift.takesBack < marks.count .point then
    some (gifts.foldl Gift.addPrecision 0)
  else none

variable {m m' : Modifiers} {args args' : List Arg} {mark : Mark} {marks : List Mark}

/-! ## One mark -/

theorem given_digit {d : Nat} (h : m.digit d = .ok m') :
    m'.precision.given = m.precision.given := by
  unfold Modifiers.digit Modifiers.bitDigit Modifiers.zeroFlag Modifiers.precisionDigit
    Modifiers.widthDigit at h
  split at h
  · split at h
    · contradiction
    · obtain rfl := Except.ok.inj h
      rfl
  · split_ifs at h
    · obtain rfl := Except.ok.inj h
      rfl
    · split at h
      · obtain rfl := Except.ok.inj h
        rfl
      · contradiction
    · split at h
      · obtain rfl := Except.ok.inj h
        rfl
      · contradiction

theorem countP_gift?_digit (m : Modifiers) (args : List Arg) (d : Fin 10) :
    (gift? m args (.digit d)).toList.countP Gift.takesBack = 0 := by
  simp only [gift?]
  split_ifs <;> rfl

/-- A `*` closes a precision that is open exactly if its number is negative. -/
theorem given_star (h : m.star args = (.ok m', args')) :
    m.precision.given.toNat =
      m'.precision.given.toNat + (gift? m args .star).toList.countP Gift.takesBack := by
  unfold Modifiers.star at h
  split at h
  · simp at h
  · rcases htake : Arg.takeInt args with ⟨fault | value, left⟩
    · simp [htake] at h
    · simp only [htake] at h
      simp only [gift?, htake]
      by_cases hgiven : m.precision.given = true
      · rw [if_pos hgiven, Prod.mk.injEq, Except.ok.injEq] at h
        obtain ⟨rfl, -⟩ := h
        rw [if_pos hgiven]
        unfold Modifiers.starPrecision
        by_cases hnegative : value < 0 <;> simp [hgiven, hnegative, Gift.takesBack]
      · rw [if_neg hgiven, Prod.mk.injEq] at h
        have hstar := h.1
        rw [if_neg hgiven]
        unfold Modifiers.starWidth at hstar
        split at hstar
        · contradiction
        · obtain rfl := Except.ok.inj hstar
          rfl

/-- Whatever a mark opens or takes back is seen in the modifiers. -/
theorem given_step (h : mark.step m args = (.ok m', args')) :
    m.precision.given.toNat + [mark].count .point =
      m'.precision.given.toNat + (mark.gift? m args).toList.countP Gift.takesBack := by
  cases mark with
  | digit d =>
    rw [given_digit (Prod.mk.inj h).1, countP_gift?_digit]
    rfl
  | star => exact given_star h
  | flag f =>
    obtain rfl := Except.ok.inj (Prod.mk.inj h).1
    rfl
  | point =>
    have hpoint := (Prod.mk.inj h).1
    unfold Modifiers.point at hpoint
    split at hpoint
    · contradiction
    · rename_i hgiven
      obtain rfl := Except.ok.inj hpoint
      simp [hgiven, gift?]
  | letter x =>
    simp only [step] at h
    split at h
    · obtain rfl := Except.ok.inj (Prod.mk.inj h).1
      rfl
    · simp at h
  | fast =>
    simp only [step] at h
    split at h
    · obtain rfl := Except.ok.inj (Prod.mk.inj h).1
      rfl
    · simp at h

/-! ## A row of marks -/

/-- The precision is opened as often as it is taken back, and once more if it is still open. -/
theorem given_run (h : run m args marks = (.ok m', args')) :
    m.precision.given.toNat + marks.count .point =
      m'.precision.given.toNat + (gifts m args marks).countP Gift.takesBack := by
  induction marks generalizing m args with
  | nil =>
    obtain rfl := Except.ok.inj (Prod.mk.inj h).1
    rfl
  | cons mark marks ih =>
    rw [run] at h
    rw [gifts]
    rcases hstep : mark.step m args with ⟨fault | next, left⟩
    · simp [hstep] at h
    · simp only [hstep] at h ⊢
      have hfirst := given_step hstep
      have hrest := ih h
      have hcount : (mark :: marks).count .point = [mark].count .point + marks.count .point := by
        rw [← List.count_append, List.singleton_append]
      rw [hcount, List.countP_append]
      omega

/-- Behind a whole row of marks the precision is the one that they have left in effect. -/
theorem effective_run (h : run {} args marks = (.ok m', args')) :
    m'.precision.effective = precision? marks (gifts {} args marks) := by
  have hvalue := (follows_nil.run h).1.precision_value
  have hgiven : marks.count .point =
      m'.precision.given.toNat + (gifts {} args marks).countP Gift.takesBack := by
    simpa using given_run h
  simp only [List.nil_append] at hvalue
  unfold Extent.effective precision?
  rw [hvalue]
  cases hopen : m'.precision.given with
  | false =>
    rw [hopen, Bool.toNat_false] at hgiven
    rw [if_neg Bool.false_ne_true, if_neg (by omega)]
  | true =>
    rw [hopen, Bool.toNat_true] at hgiven
    rw [if_pos rfl, if_pos (by omega)]

end Mark

/-! ## A whole directive -/

/-- A conversion leaves the precision. -/
theorem Modifiers.precision_of_finish {m : Modifiers} {conversion : Conversion} {uppercase : Bool}
    {d : Directive} (h : m.finish conversion uppercase = .ok d) : d.precision = m.precision := by
  unfold finish at h
  split at h
  · contradiction
  · obtain rfl := Except.ok.inj h
    rfl

theorem Mark.Accepted.effective_eq {text rest : Bytes} {args args' : List Arg} {marks : List Mark}
    {d : Directive} (h : Accepted {} args text marks d rest args') :
    d.precision.effective = precision? marks (gifts {} args marks) := by
  obtain ⟨_, _, _, m, -, -, -, hrun, hfinish⟩ := h
  rw [Modifiers.precision_of_finish hfinish]
  exact effective_run hrun

/-- A precision that is taken back is not forgotten: what is given behind the next point is added to
its digits. -/
example :
    Mark.precision? [.point, .digit 5, .star, .point, .digit 3]
      (Mark.gifts {} [.int (-1)] [.point, .digit 5, .star, .point, .digit 3]) = some 53 := by
  decide +kernel

end FormattedOutput
