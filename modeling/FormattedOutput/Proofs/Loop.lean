import Mathlib.Logic.Relation

/-!
# Loops

A loop takes turns until one is refused. Nothing in a loop says that this ever happens. So what it
ends with is an option, and a loop that goes on for ever ends with nothing.
-/

namespace FormattedOutput

/-- A loop that starts in one state comes to its test in the other. -/
def Tests {α : Type} (turn : α → Option α) : α → α → Prop :=
  Relation.ReflTransGen fun state next => turn state = some next

open Classical in
/-- The state in which a loop gets no other turn, if it comes to one. -/
noncomputable def loop? {α : Type} (turn : α → Option α) (state : α) : Option α :=
  if h : ∃ last, Tests turn state last ∧ turn last = none then some h.choose else none

variable {α : Type} {turn : α → Option α} {state next last : α}

/-- The last state has no state after it. -/
theorem Tests.eq_of_none (h : Tests turn state next) (hnone : turn state = none) :
    next = state := by
  rcases h.cases_head with rfl | ⟨other, hturn, -⟩
  · rfl
  · rw [hnone] at hturn
    contradiction

/-- A loop that ends comes to its end from every state that it tests. -/
theorem Tests.to_last (hlast : Tests turn state last) (hnone : turn last = none)
    (h : Tests turn state next) : Tests turn next last := by
  have hunique : Relator.RightUnique fun state next : α => turn state = some next :=
    fun _ _ _ hone hother => Option.some.inj (hone.symm.trans hother)
  rcases h.total_of_right_unique hunique hlast with hto | hfrom
  · exact hto
  · rw [Tests.eq_of_none hfrom hnone]
    exact .refl

theorem loop?_eq_some_iff :
    loop? turn state = some last ↔ Tests turn state last ∧ turn last = none := by
  unfold loop?
  constructor
  · intro h
    split at h
    case isTrue hends =>
      rw [← Option.some.inj h]
      exact hends.choose_spec
    case isFalse => contradiction
  · rintro ⟨hlast, hnone⟩
    have hends : ∃ last, Tests turn state last ∧ turn last = none := ⟨last, hlast, hnone⟩
    obtain ⟨hchosen, hchosen'⟩ := hends.choose_spec
    rw [dif_pos hends, (hlast.to_last hnone hchosen).eq_of_none hchosen']

theorem loop?_of_none (h : turn state = none) : loop? turn state = some state :=
  loop?_eq_some_iff.mpr ⟨.refl, h⟩

theorem loop?_of_some (h : turn state = some next) : loop? turn state = loop? turn next := by
  apply Option.ext
  intro last
  rw [loop?_eq_some_iff, loop?_eq_some_iff]
  constructor
  · rintro ⟨hlast, hnone⟩
    exact ⟨hlast.to_last hnone (.single h), hnone⟩
  · rintro ⟨hlast, hnone⟩
    exact ⟨.head h hlast, hnone⟩

/-- What every turn keeps holds wherever the loop comes to its test. -/
theorem Tests.keeps (p : α → Prop)
    (hkeep : ∀ state, p state → ∃ next, turn state = some next ∧ p next)
    (h : Tests turn state next) (hp : p state) : p next := by
  induction h with
  | refl => exact hp
  | tail _ hturn ih =>
    obtain ⟨other, hother, hp'⟩ := hkeep _ ih
    rwa [Option.some.inj (hturn.symm.trans hother)]

/-- A state that always gets another turn, and stays such a state, has no place in a loop that
ends. -/
theorem not_of_tests (p : α → Prop)
    (hkeep : ∀ state, p state → ∃ next, turn state = some next ∧ p next)
    (hend : loop? turn state = some last) (h : Tests turn state next) : ¬p next := by
  obtain ⟨hlast, hnone⟩ := loop?_eq_some_iff.mp hend
  intro hp
  obtain ⟨other, hother, -⟩ := hkeep last ((hlast.to_last hnone h).keeps p hkeep hp)
  rw [hnone] at hother
  contradiction

end FormattedOutput
