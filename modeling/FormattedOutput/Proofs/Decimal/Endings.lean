import FormattedOutput.Proofs.Decimal.Quotients
import FormattedOutput.Proofs.PowerTable.Shifts

/-!
# The search comes to its end

The loops of the search for a shortest decimal are only loops here: nothing in them looks out for a
zero, with which three of them would go on for ever. A difference has no value if it would be below
zero, and neither has a word that is shifted too far. All the same the search has a result for every
finite value other than zero, the shortest decimal.
-/

namespace FormattedOutput

open PowerTable

/-! ## The loops -/

namespace Decimal

/-- Moves one zero at the end of the mantissa into the exponent. The mantissa 0 always has one. -/
def moveZero? (d : Decimal) : Option Decimal :=
  if d.mantissa % 10 = 0 then some ⟨d.mantissa / 10, d.exponent + 1⟩ else none

theorem loop?_moveZero {d : Decimal} (h : 0 < d.mantissa) : loop? moveZero? d = some d.trim := by
  induction d using trim.induct with
  | case1 d hzero ih =>
    have hturn : moveZero? d = some ⟨d.mantissa / 10, d.exponent + 1⟩ := if_pos hzero.2
    rw [trim, if_pos hzero, loop?_of_some hturn]
    exact ih (Nat.div_pos (by omega) (by decide))
  | case2 d hzero =>
    rw [trim, if_neg hzero]
    exact loop?_of_none (if_neg fun hten => hzero ⟨h, hten⟩)

theorem mantissa_ne_zero_of_tests {c d : Decimal} (h : 0 < d.mantissa)
    (htests : Tests moveZero? d c) : c.mantissa ≠ 0 := by
  refine not_of_tests (fun c => c.mantissa = 0) ?_ (loop?_moveZero h) htests
  intro c hzero
  refine ⟨⟨0, c.exponent + 1⟩, ?_, rfl⟩
  simp [moveZero?, hzero]

end Decimal

namespace Search

/-- Cuts a digit off if the halfway points stay apart. -/
def cutDigit? (s : Search) : Option Search :=
  if s.lower / 10 < s.upper / 10 then some s.cutDigit else none

/-- Cuts a zero off the lower point. The lower point 0 always has one. -/
def cutZero? (s : Search) : Option Search :=
  if s.lower % 10 = 0 then some s.cutDigit else none

theorem loop?_cutDigit (s : Search) : loop? cutDigit? s = some s.cutApart := by
  induction s using cutApart.induct with
  | case1 s hapart ih =>
    have hturn : cutDigit? s = some s.cutDigit := if_pos hapart
    rw [cutApart, if_pos hapart, loop?_of_some hturn, ih]
  | case2 s hapart =>
    rw [cutApart, if_neg hapart]
    exact loop?_of_none (if_neg hapart)

theorem loop?_cutZero {s : Search} (h : 0 < s.lower) :
    loop? cutZero? s = some s.cutLowerZeros := by
  induction s using cutLowerZeros.induct with
  | case1 s hzero ih =>
    have hturn : cutZero? s = some s.cutDigit := if_pos hzero.2
    rw [cutLowerZeros, if_pos hzero, loop?_of_some hturn]
    exact ih (Nat.div_pos (by omega) (by decide))
  | case2 s hzero =>
    rw [cutLowerZeros, if_neg hzero]
    exact loop?_of_none (if_neg fun hten => hzero ⟨h, hten⟩)

theorem lower_ne_zero_of_tests {s u : Search} (h : 0 < s.lower) (htests : Tests cutZero? s u) :
    u.lower ≠ 0 := by
  refine not_of_tests (fun u => u.lower = 0) ?_ (loop?_cutZero h) htests
  intro u hzero
  refine ⟨u.cutDigit, ?_, ?_⟩
  · simp [cutZero?, hzero]
  · simp [cutDigit, hzero]

/-- The shortest decimal, if the loops end. -/
noncomputable def shortest? (s : Search) (closed : Bool) : Option Decimal :=
  if s.lowerZeros || s.valueZeros then do
    let t ← loop? cutDigit? s
    let t ← if t.lowerZeros then loop? cutZero? t else some t
    return ⟨t.roundExact closed, t.exponent⟩
  else do
    let t ← loop? cutDigit? s.cutPair
    return ⟨t.roundPlain, t.exponent⟩

theorem shortest?_eq {s : Search} (h : s.cutApart.lowerZeros = true → 0 < s.cutApart.lower)
    (closed : Bool) : s.shortest? closed = some (s.shortest closed) := by
  unfold shortest? shortest
  rw [loop?_cutDigit, loop?_cutDigit]
  split_ifs with hflags
  · simp only [Option.bind_eq_bind, Option.bind_some, Option.pure_def]
    split_ifs with hzeros
    · rw [loop?_cutZero (h hzeros), Option.bind_some]
    · rfl
  · rfl

end Search

/-! ## The start of the search -/

/-- Takes the upper point out, if there is one. -/
def Search.shutOut? (s : Search) : Option Search := do
  return { s with upper := ← minus? s.upper 1 }

theorem Search.shutOut?_eq {s : Search} (h : 0 < s.upper) :
    s.shutOut? = some { s with upper := s.upper - 1 } := by
  unfold shutOut?
  rw [minus?_eq (by omega)]
  rfl

/-- `5 ^ p` divides the number, if the loop that counts its factors 5 ends. -/
noncomputable def hasFives? (n p : Nat) : Option Bool :=
  (fiveFactor? n).map fun count => p ≤ count

theorem hasFives?_eq {n : Nat} (hpos : 0 < n) (hn : n < 2 ^ 64) (p : Nat) :
    hasFives? n p = some (hasFives n p) := by
  unfold hasFives?
  rw [fiveFactor?_eq hpos hn]
  rfl

/-- `2 ^ p` divides the number, if a word can be shifted by `p` bits. -/
def hasTwos? (n p : Nat) : Option Bool := do
  let bits ← place? p
  return n &&& (1 <<< bits - 1) = 0

theorem hasTwos?_eq (n : Nat) {p : Nat} (hp : p < 64) : hasTwos? n p = some (hasTwos n p) := by
  unfold hasTwos?
  rw [place?_eq (by omega) (by omega)]
  rfl

namespace Interval

/-- The lower halfway point, in units, if it is not below zero. -/
def lower? (i : Interval) : Option Nat := do
  minus? (← minus? i.value 1) i.lowerShift

/-- The three points times a power, shifted right, if words can be shifted so far. The lower one is
given. -/
def scaledAbove? (i : Interval) (lower : Nat) (p : WordPair) (shift exponent : Int) :
    Option Search := do
  return {
    value := ← shiftedProduct? i.value p shift
    upper := ← shiftedProduct? i.upper p shift
    lower := ← shiftedProduct? lower p shift
    exponent }

/-- Scales an interval whose unit is `2 ^ e`, if the loops end, nothing gets below zero and nothing
is shifted too far. -/
noncomputable def scaleDown? (i : Interval) (e : Nat) : Option Search := do
  let lower ← i.lower?
  let q := tensBelow e
  let s ← i.scaledAbove? lower (← inverse? q) (q + (storedBits + powerBits q - 1) - e) q
  if q ≤ 21 then
    if i.value % 5 = 0 then return { s with valueZeros := ← hasFives? i.value q }
    else if i.closed then return { s with lowerZeros := ← hasFives? lower q }
    else if ← hasFives? i.upper q then s.shutOut?
    else return s
  else return s

/-- Scales an interval whose unit is `2 ^ (-e)`, if nothing gets below zero and nothing is shifted
too far. -/
def scaleUp? (i : Interval) (e : Nat) : Option Search := do
  let lower ← i.lower?
  let q := tensAbove e
  let s ← i.scaledAbove? lower (← power? (e - q)) (q + storedBits - powerBits (e - q)) (q - e)
  if q ≤ 1 then
    if i.closed then return { s with valueZeros := true, lowerZeros := i.lowerShift = 1 }
    else Search.shutOut? { s with valueZeros := true }
  else if q < 63 then return { s with valueZeros := ← hasTwos? i.value q }
  else return s

/-- Scales an interval to whole numbers, if the loops end, nothing gets below zero and nothing is
shifted too far. -/
noncomputable def scale? (i : Interval) : Option Search :=
  if 0 ≤ i.exponent then i.scaleDown? i.exponent.toNat else i.scaleUp? (-i.exponent).toNat

variable {i : Interval} {e : Nat}

theorem lower?_eq (h : i.InRange) : i.lower? = some i.lower := by
  have hpos := h.lower_pos
  unfold lower at hpos
  unfold lower? value
  rw [minus?_eq (by omega)]
  exact minus?_eq (by omega)

theorem scaledAbove?_down (i : Interval) (he : e < 970) (p : WordPair) (exponent : Int) :
    i.scaledAbove? i.lower p (tensBelow e + (storedBits + powerBits (tensBelow e) - 1) - e)
      exponent =
        some (i.scaled p (tensBelow e + (storedBits + powerBits (tensBelow e) - 1) - e)
          exponent) := by
  unfold scaledAbove?
  simp only [shiftedProduct?_down he, Option.bind_eq_bind, Option.bind_some]
  rfl

theorem scaledAbove?_up (i : Interval) (he : e < 1077) (p : WordPair) (exponent : Int) :
    i.scaledAbove? i.lower p (tensAbove e + storedBits - powerBits (e - tensAbove e)) exponent =
      some (i.scaled p (tensAbove e + storedBits - powerBits (e - tensAbove e)) exponent) := by
  unfold scaledAbove?
  simp only [shiftedProduct?_up he, Option.bind_eq_bind, Option.bind_some]
  rfl

/-- The upper halfway point is never less than one unit of the scaled points. -/
theorem unit_le_upper_pointsDown (h : i.InRange) (he : e < 970) :
    (i.pointsDown e).unit ≤ (i.pointsDown e).upper := by
  have hx := valid_pointsDown h e
  rcases Nat.lt_or_ge e 4 with hsmall | hlarge
  · have hzero : tensBelow e = 0 := by
      interval_cases e <;> rfl
    have hunit : (i.pointsDown e).unit = 1 := by
      change 5 ^ tensBelow e = 1
      rw [hzero, pow_zero]
    rw [hunit]
    exact Nat.zero_lt_of_lt hx.lt_upper
  · have hwidth := three_mul_le_width h (2 ^ (e - tensBelow e)) (5 ^ tensBelow e) (tensBelow e)
    have hroom := tensBelow_room e he hlarge
    unfold pointsDown
    have hunit : (i.pointsBy (2 ^ (e - tensBelow e)) (5 ^ tensBelow e) (tensBelow e)).unit =
      5 ^ tensBelow e := rfl
    omega

theorem unit_le_upper_pointsUp (h : i.InRange) (hpos : 0 < e) (he : e < 1077) :
    (i.pointsUp e).unit ≤ (i.pointsUp e).upper := by
  have hwidth := three_mul_le_width h (5 ^ (e - tensAbove e)) (2 ^ tensAbove e)
    ((tensAbove e : Int) - e)
  have hroom := tensAbove_room e he hpos
  unfold pointsUp
  have hunit : (i.pointsBy (5 ^ (e - tensAbove e)) (2 ^ tensAbove e)
    ((tensAbove e : Int) - e)).unit = 2 ^ tensAbove e := rfl
  omega

theorem upper_scaleDown_pos (h : i.InRange) (he : e < 970) :
    0 < shiftedProduct i.upper (inverse (tensBelow e)) (downward e).shift := by
  have hx := valid_pointsDown h e
  rw [shiftedProduct_inverse he (Nat.zero_lt_of_lt i.value_lt_upper) h.upper_le]
  exact Nat.div_pos (unit_le_upper_pointsDown h he) hx.unit_pos

theorem upper_scaleUp_pos (h : i.InRange) (hpos : 0 < e) (he : e < 1077) :
    0 < shiftedProduct i.upper (power (e - tensAbove e)) (upward e).shift := by
  have hx := valid_pointsUp h e
  rw [shiftedProduct_power he (Nat.zero_lt_of_lt i.value_lt_upper) h.upper_le]
  exact Nat.div_pos (unit_le_upper_pointsUp h hpos he) hx.unit_pos

/-- The numbers whose factors 5 are counted are words other than zero. -/
theorem InRange.points_bounds (h : i.InRange) :
    ∀ n ∈ [i.value, i.upper, i.lower], 0 < n ∧ n < 2 ^ 64 := by
  have hlower := h.lower_pos
  have hlv := lower_lt_value h
  have hvu := i.value_lt_upper
  have hlimit : i.upper < 2 ^ 64 := lt_of_le_of_lt h.upper_le (by decide)
  intro n hn
  simp only [List.mem_cons, List.not_mem_nil, or_false] at hn
  rcases hn with rfl | rfl | rfl <;> omega

theorem hasFives?_points (h : i.InRange) (q : Nat) :
    ∀ n ∈ [i.value, i.upper, i.lower], hasFives? n q = some (hasFives n q) := by
  intro n hn
  obtain ⟨hpos, hlimit⟩ := h.points_bounds n hn
  exact hasFives?_eq hpos hlimit q

theorem scaleDown?_eq (h : i.InRange) (he : e < 970) : i.scaleDown? e = some (i.scaleDown e) := by
  have hfives := hasFives?_points h (tensBelow e)
  simp only [List.forall_mem_cons] at hfives
  obtain ⟨hvalue, hupper, hlower, -⟩ := hfives
  obtain ⟨-, -, -, htens⟩ := fits_downward e he
  have hpos : 0 < (i.scaled (inverse (tensBelow e))
    (tensBelow e + (storedBits + powerBits (tensBelow e) - 1) - e) (tensBelow e)).upper :=
    upper_scaleDown_pos h he
  unfold scaleDown? scaleDown
  rw [lower?_eq h, Option.bind_eq_bind, Option.bind_some]
  dsimp only
  rw [inverse?_eq _ htens, Option.bind_eq_bind, Option.bind_some, i.scaledAbove?_down he,
    Option.bind_eq_bind, Option.bind_some]
  generalize i.scaled _ _ _ = s at hpos ⊢
  rw [hvalue, hupper, hlower, Search.shutOut?_eq hpos]
  simp only [Option.bind_eq_bind, Option.bind_some]
  split_ifs <;> rfl

theorem scaleUp?_eq (h : i.InRange) (hpos : 0 < e) (he : e < 1077) :
    i.scaleUp? e = some (i.scaleUp e) := by
  obtain ⟨-, -, -, htens⟩ := fits_upward e he
  have hupper : 0 < (i.scaled (power (e - tensAbove e))
    (tensAbove e + storedBits - powerBits (e - tensAbove e)) (tensAbove e - e)).upper :=
    upper_scaleUp_pos h hpos he
  unfold scaleUp? scaleUp
  rw [lower?_eq h, Option.bind_eq_bind, Option.bind_some]
  dsimp only
  rw [power?_eq _ htens, Option.bind_eq_bind, Option.bind_some, i.scaledAbove?_up he,
    Option.bind_eq_bind, Option.bind_some]
  generalize i.scaled _ _ _ = s at hupper ⊢
  split_ifs with hsmall hclosed htwos
  · rfl
  · exact Search.shutOut?_eq hupper
  · rw [hasTwos?_eq _ (by omega)]
    rfl
  · rfl

theorem scale?_eq (h : i.InRange) : i.scale? = some i.scale := by
  have hge := h.exponent_ge
  have hle := h.exponent_le
  unfold scale? scale
  split_ifs
  · exact scaleDown?_eq h (by omega)
  · exact scaleUp?_eq h (by omega) (by omega)

/-- The lower point is not zero when its zeros are to be cut off. -/
theorem lower_cutApart_pos (h : i.InRange) (hzeros : i.scale.cutApart.lowerZeros = true) :
    0 < i.scale.cutApart.lower := by
  obtain ⟨t, hshows, -, -⟩ := shows_cutApart (valid_points h) (starts_scale h)
  exact hshows.lower_pos (valid_points h) hzeros

/-- No loop of the search comes to its test with a zero, and no difference is below zero. -/
structure NeverAtZero (i : Interval) : Prop where
  lower?_eq : i.lower? = some i.lower
  upper_pos : 0 < i.scaledPoint i.upper
  fives : ∀ n ∈ [i.value, i.upper, i.lower], ∀ state, Tests takeFive? ⟨n, 0⟩ state → state.rest ≠ 0
  zeros : i.scale.cutApart.lowerZeros = true →
    ∀ s, Tests Search.cutZero? i.scale.cutApart s → s.lower ≠ 0

theorem InRange.neverAtZero (h : i.InRange) : i.NeverAtZero where
  lower?_eq := Interval.lower?_eq h
  upper_pos := by
    have hge := h.exponent_ge
    have hle := h.exponent_le
    unfold scaledPoint multiplier shift
    split_ifs
    · exact upper_scaleDown_pos h (by omega)
    · exact upper_scaleUp_pos h (by omega) (by omega)
  fives n hn _ htests :=
    rest_ne_zero_of_tests (h.points_bounds n hn).1 (h.points_bounds n hn).2 htests
  zeros hzeros _ htests := Search.lower_ne_zero_of_tests (lower_cutApart_pos h hzeros) htests

end Interval

/-! ## The whole search -/

namespace Decimal

/-- The whole number whose zeros the quick way moves into the exponent, if there is one. There is no
answer if the significand would be shifted too far. -/
def wholeNumber? (fraction exponent : Nat) : Option (Option Decimal) := do
  if 1023 ≤ exponent ∧ exponent ≤ 1075 then
    let significand := 2 ^ 52 + fraction
    let places ← place? (1075 - exponent)
    if significand % 2 ^ places = 0 then return some ⟨significand >>> places, 0⟩
  return none

/-- The shortest decimal, if the loops end, nothing gets below zero and nothing is shifted too
far. -/
noncomputable def search? (fraction exponent : Nat) : Option Decimal := do
  match ← wholeNumber? fraction exponent with
  | some d => loop? moveZero? d
  | none =>
    let i := Interval.ofFields fraction exponent
    let s ← i.scale?
    s.shortest? i.closed

/-- The quick way has an answer, and it is a whole number that is not zero if it is one. -/
theorem exists_wholeNumber?_eq (fraction exponent : Nat) :
    ∃ whole, wholeNumber? fraction exponent = some whole ∧
      ofWholeNumber? fraction exponent = whole.map trim ∧ ∀ d ∈ whole, 0 < d.mantissa := by
  unfold wholeNumber? ofWholeNumber?
  by_cases hexponent : 1023 ≤ exponent ∧ exponent ≤ 1075
  · have hplaces : ((1075 : Int) - exponent).toNat = 1075 - exponent := by omega
    rw [if_pos hexponent, place?_eq (by omega) (by omega), hplaces]
    simp only [hexponent, true_and, Nat.shiftRight_eq_div_pow, Option.bind_eq_bind,
      Option.bind_some]
    by_cases hzero : (2 ^ 52 + fraction) % 2 ^ (1075 - exponent) = 0
    · rw [if_pos hzero, if_pos hzero]
      refine ⟨_, rfl, rfl, ?_⟩
      rintro d ⟨⟩
      exact Nat.div_pos (Nat.le_of_dvd (by omega) (Nat.dvd_of_mod_eq_zero hzero))
        (Nat.pow_pos (by decide))
    · rw [if_neg hzero, if_neg hzero]
      exact ⟨none, rfl, rfl, by simp⟩
  · rw [if_neg hexponent, if_neg fun h => hexponent ⟨h.1, h.2.1⟩]
    exact ⟨none, rfl, rfl, by simp⟩

theorem search?_eq {fraction exponent : Nat} (hf : fraction < 2 ^ 52) (he : exponent ≤ 2046)
    (hpos : fraction ≠ 0 ∨ exponent ≠ 0) :
    search? fraction exponent = some (shortest fraction exponent) := by
  have hrange := Interval.inRange_ofFields hf he hpos
  obtain ⟨whole, hwhole, hquick, hmantissa⟩ := exists_wholeNumber?_eq fraction exponent
  unfold search? shortest
  rw [hwhole, hquick]
  simp only [Option.bind_eq_bind, Option.bind_some]
  cases whole with
  | some d => exact loop?_moveZero (hmantissa d rfl)
  | none =>
    simp only [Interval.scale?_eq hrange, Option.bind_some]
    exact Search.shortest?_eq (Interval.lower_cutApart_pos hrange) _

end Decimal

/-- The search for the shortest decimal of a finite value other than zero ends, although nothing in
its loops looks out for a zero. They never come to one, no difference gets below zero, and no word
is shifted too far. The factors 5 of every word other than zero are counted to an end. -/
theorem search_ends (fraction exponent : Nat) (hf : fraction < 2 ^ 52) (he : exponent ≤ 2046)
    (hpos : fraction ≠ 0 ∨ exponent ≠ 0) :
    Decimal.search? fraction exponent = some (Decimal.shortest fraction exponent) ∧
      (∀ d, some d ∈ Decimal.wholeNumber? fraction exponent → ∀ c, Tests Decimal.moveZero? d c →
        c.mantissa ≠ 0) ∧
      (Interval.ofFields fraction exponent).NeverAtZero ∧
      ∀ n, 0 < n → n < 2 ^ 64 → fiveFactor? n = some (fiveFactor n) := by
  refine ⟨Decimal.search?_eq hf he hpos, ?_,
    (Interval.inRange_ofFields hf he hpos).neverAtZero, fun _ => fiveFactor?_eq⟩
  intro d hd c htests
  obtain ⟨whole, hwhole, -, hmantissa⟩ := Decimal.exists_wholeNumber?_eq fraction exponent
  obtain rfl := Option.some.inj (hd.symm.trans hwhole)
  exact Decimal.mantissa_ne_zero_of_tests (hmantissa d rfl) htests

/-- The number `7 * 10 ^ 22` is a lower halfway point. All its zeros are cut off, and the loop that
does it ends. -/
theorem search_ends_zeros :
    Decimal.search? 0xDA56A4B0835C0 1098 = some ⟨7, 22⟩ ∧
      ∀ s, Tests Search.cutZero? (Interval.ofFields 0xDA56A4B0835C0 1098).scale.cutApart s →
        s.lower ≠ 0 := by
  have hends := search_ends 0xDA56A4B0835C0 1098 (by decide) (by decide) (by decide)
  have hshortest : Decimal.shortest 0xDA56A4B0835C0 1098 = ⟨7, 22⟩ := by decide +kernel
  have hzeros : (Interval.ofFields 0xDA56A4B0835C0 1098).scale.cutApart.lowerZeros = true := by
    decide +kernel
  exact ⟨hends.1.trans (congrArg some hshortest), hends.2.2.1.zeros hzeros⟩

end FormattedOutput
