import Mathlib.Logic.Basic
import Mathlib.Tactic.ByContra

/-!
# Retry loops

A loop makes a bounded number of attempts and judges the outcome of each one. It
ends at the first outcome that is not tried again, at the last attempt, or by an
outcome that its handlers let through.
-/

set_option autoImplicit false

namespace Codenaut.Retries

/-- What a loop makes of an outcome. An outcome that is tried again has an error
for the last attempt. -/
inductive Judgement (Answer Error : Type) where
  | answer (value : Answer)
  | refuse (error : Error)
  | again (atLast : Error)
  | propagate
  deriving DecidableEq, Repr

inductive Ending (Answer Error : Type) where
  | returned (value : Answer)
  | raised (error : Error)
  | escaped
  | exhausted
  deriving DecidableEq, Repr

/-- How a loop ended, after how many attempts. -/
structure Run (Answer Error : Type) where
  ending : Ending Answer Error
  attempts : Nat
  deriving DecidableEq, Repr

variable {Outcome Answer Error : Type}

/-- The loop with the attempts that are left, after those made. -/
def run (judge : Outcome → Judgement Answer Error) (outcomes : Nat → Outcome) :
    Nat → Nat → Run Answer Error
  | 0, made => ⟨.exhausted, made⟩
  | left + 1, made =>
      match judge (outcomes made) with
      | .answer value => ⟨.returned value, made + 1⟩
      | .refuse error => ⟨.raised error, made + 1⟩
      | .again atLast =>
          if left = 0 then ⟨.raised atLast, made + 1⟩ else run judge outcomes left (made + 1)
      | .propagate => ⟨.escaped, made + 1⟩

namespace Judgement

/-- The loop ends in its own terms. -/
def Settles (judgement : Judgement Answer Error) : Prop :=
  (∃ value, judgement = .answer value) ∨ ∃ error, judgement = .refuse error

@[simp] theorem settles_answer (value : Answer) :
    (Judgement.answer value : Judgement Answer Error).Settles :=
  .inl ⟨value, rfl⟩

@[simp] theorem settles_refuse (error : Error) :
    (Judgement.refuse error : Judgement Answer Error).Settles :=
  .inr ⟨error, rfl⟩

@[simp] theorem not_settles_again (error : Error) :
    ¬ (Judgement.again error : Judgement Answer Error).Settles := by
  simp [Settles]

@[simp] theorem not_settles_propagate :
    ¬ (Judgement.propagate : Judgement Answer Error).Settles := by
  simp [Settles]

end Judgement

variable (judge : Outcome → Judgement Answer Error) (outcomes : Nat → Outcome)

theorem attempts_le (left made : Nat) :
    (run judge outcomes left made).attempts ≤ made + left := by
  induction left generalizing made with
  | zero => simp [run]
  | succ left later =>
      cases judged : judge (outcomes made) with
      | again atLast =>
          have rest := later (made + 1)
          by_cases last : left = 0
          · simp [run, judged, last]
          · simp only [run, judged, last, if_false]
            omega
      | answer | refuse | propagate => simp only [run, judged]; omega

/-- A loop that may make an attempt ends within its attempts. -/
theorem not_exhausted {left : Nat} (positive : 0 < left) (made : Nat) :
    (run judge outcomes left made).ending ≠ .exhausted := by
  induction left generalizing made with
  | zero => omega
  | succ left later =>
      cases judged : judge (outcomes made) with
      | again atLast =>
          by_cases last : left = 0
          · simp [run, judged, last]
          · simp only [run, judged, last, if_false]
            exact later (Nat.pos_of_ne_zero last) (made + 1)
      | answer | refuse | propagate => simp [run, judged]

/-- What a loop returns is its answer to one of the outcomes. -/
theorem returned_of {left made : Nat} {value : Answer}
    (returned : (run judge outcomes left made).ending = .returned value) :
    ∃ index, judge (outcomes index) = .answer value := by
  induction left generalizing made with
  | zero => simp [run] at returned
  | succ left later =>
      cases judged : judge (outcomes made) with
      | answer other =>
          simp only [run, judged, Ending.returned.injEq] at returned
          exact ⟨made, returned ▸ judged⟩
      | refuse error => simp [run, judged] at returned
      | propagate => simp [run, judged] at returned
      | again atLast =>
          by_cases last : left = 0
          · simp [run, judged, last] at returned
          · simp only [run, judged, last, if_false] at returned
            exact later returned

/-- An outcome escapes a loop exactly if it comes up at an attempt before which
every outcome was tried again. -/
theorem escaped_iff (left made : Nat) :
    (run judge outcomes left made).ending = .escaped ↔
      ∃ index < left, judge (outcomes (made + index)) = .propagate ∧
        ∀ earlier < index, ¬ (judge (outcomes (made + earlier))).Settles := by
  induction left generalizing made with
  | zero => simp [run]
  | succ left later =>
      cases judged : judge (outcomes made) with
      | propagate =>
          simp only [run, judged, true_iff]
          exact ⟨0, by omega, judged, by simp⟩
      | answer value =>
          simp only [run, judged, reduceCtorEq, false_iff, not_exists, not_and]
          intro index _ propagated unsettled
          cases index with
          | zero => simp [judged] at propagated
          | succ index => exact unsettled 0 (by omega) (by simp [judged])
      | refuse error =>
          simp only [run, judged, reduceCtorEq, false_iff, not_exists, not_and]
          intro index _ propagated unsettled
          cases index with
          | zero => simp [judged] at propagated
          | succ index => exact unsettled 0 (by omega) (by simp [judged])
      | again atLast =>
          have first : ¬ (judge (outcomes (made + 0))).Settles := by simp [judged]
          -- The attempts after the first are those of the loop that goes on.
          have shifted : (∃ index < left + 1, judge (outcomes (made + index)) = .propagate ∧
                ∀ earlier < index, ¬ (judge (outcomes (made + earlier))).Settles) ↔
              ∃ index < left, judge (outcomes (made + 1 + index)) = .propagate ∧
                ∀ earlier < index, ¬ (judge (outcomes (made + 1 + earlier))).Settles := by
            simp only [Nat.add_assoc, Nat.add_comm 1]
            constructor
            · rintro ⟨index, bounded, propagated, unsettled⟩
              cases index with
              | zero => simp [judged] at propagated
              | succ index =>
                  exact ⟨index, by omega, propagated,
                    fun earlier before => unsettled (earlier + 1) (by omega)⟩
            · rintro ⟨index, bounded, propagated, unsettled⟩
              refine ⟨index + 1, by omega, propagated, fun earlier before => ?_⟩
              cases earlier with
              | zero => exact first
              | succ earlier => exact unsettled earlier (by omega)
          rw [shifted]
          by_cases last : left = 0
          · simp [run, judged, last]
          · simp only [run, judged, last, if_false]
            exact later (made + 1)

/-- A loop that may make an attempt returns or raises exactly if what would
escape it is preceded by an outcome that settles it. -/
theorem contained_iff {left : Nat} (positive : 0 < left) (made : Nat) :
    ((∃ value, (run judge outcomes left made).ending = .returned value) ∨
        ∃ error, (run judge outcomes left made).ending = .raised error) ↔
      ∀ index < left, judge (outcomes (made + index)) = .propagate →
        ∃ earlier < index, (judge (outcomes (made + earlier))).Settles := by
  have escaping := escaped_iff judge outcomes left made
  have ended := not_exhausted judge outcomes positive made
  constructor
  · intro settled index bounded propagated
    by_contra unsettled
    have escaped := escaping.mpr ⟨index, bounded, propagated,
      fun earlier before settles => unsettled ⟨earlier, before, settles⟩⟩
    simp [escaped] at settled
  · intro preceded
    cases ending : (run judge outcomes left made).ending with
    | returned value => exact .inl ⟨value, rfl⟩
    | raised error => exact .inr ⟨error, rfl⟩
    | exhausted => exact absurd ending ended
    | escaped =>
        obtain ⟨index, bounded, propagated, unsettled⟩ := escaping.mp ending
        obtain ⟨earlier, before, settles⟩ := preceded index bounded propagated
        exact absurd settles (unsettled earlier before)

end Codenaut.Retries
