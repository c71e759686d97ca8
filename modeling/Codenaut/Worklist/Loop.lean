import Mathlib.Algebra.GroupWithZero.Nat
import Mathlib.Data.List.Perm.Basic

/-!
# Worklist loops

A loop handles the item on top of a stack, until the stack is empty or the handler
fails. What it has handled is told in events, of which every item stands for a
fixed number in some order: an account of the loop is an invariant of the events
seen so far.
-/

set_option autoImplicit false

namespace Codenaut.Worklist

variable {Item State Error Event : Type}

/-- A handler that puts lighter items on the stack in place of the one it took. -/
structure Loop (Item State Error : Type) where
  weight : Item → Nat
  handle : State → Item → Except Error (State × List Item)
  lighter : ∀ {state next : State} {item : Item} {pushed : List Item},
    handle state item = .ok (next, pushed) → (pushed.map weight).sum < weight item

namespace Loop

def run (loop : Loop Item State Error) (state : State) : List Item → Except Error State
  | [] => .ok state
  | item :: rest =>
      match _handled : loop.handle state item with
      | .error error => .error error
      | .ok (next, pushed) => loop.run next (pushed ++ rest)
  termination_by pending => (pending.map loop.weight).sum
  decreasing_by
    have lighter := loop.lighter _handled
    simp only [List.map_append, List.sum_append, List.map_cons, List.sum_cons]
    omega

@[simp] theorem run_nil (loop : Loop Item State Error) (state : State) :
    loop.run state [] = .ok state := by
  rw [run]

theorem run_error {loop : Loop Item State Error} {state : State} {item : Item} {error : Error}
    (handled : loop.handle state item = .error error) (rest : List Item) :
    loop.run state (item :: rest) = .error error := by
  rw [run]
  split
  · next same => rw [handled] at same; cases same; rfl
  · next same => rw [handled] at same; cases same

theorem run_ok {loop : Loop Item State Error} {state next : State} {item : Item}
    {pushed : List Item} (handled : loop.handle state item = .ok (next, pushed))
    (rest : List Item) :
    loop.run state (item :: rest) = loop.run next (pushed ++ rest) := by
  rw [run]
  split
  · next same => rw [handled] at same; cases same
  · next same => rw [handled] at same; cases same; rfl

end Loop

/-- An account of a loop: what holds of the state after some events, and what
makes the handler fail after some more. -/
structure Account (loop : Loop Item State Error) (Event : Type) where
  events : Item → List Event
  Holds : List Event → State → Prop
  Broken : List Event → Error → Prop
  handled : ∀ {seen : List Event} {state next : State} {item : Item} {pushed : List Item},
    Holds seen state → loop.handle state item = .ok (next, pushed) →
    ∃ own, Holds (seen ++ own) next ∧ (own ++ pushed.flatMap events).Perm (events item)
  failed : ∀ {seen : List Event} {state : State} {item : Item} {error : Error},
    Holds seen state → loop.handle state item = .error error →
    ∃ own later, Broken (seen ++ own) error ∧ (own ++ later).Perm (events item)

namespace Account

variable {loop : Loop Item State Error}

/-- A loop that ends has seen the events of all its items. -/
theorem run_ok (account : Account loop Event) {seen : List Event} {state final : State}
    {pending : List Item} (holds : account.Holds seen state)
    (ran : loop.run state pending = .ok final) :
    ∃ own, account.Holds (seen ++ own) final ∧ own.Perm (pending.flatMap account.events) := by
  induction state, pending using Loop.run.induct loop generalizing seen with
  | case1 state =>
      rw [Loop.run_nil, Except.ok.injEq] at ran
      exact ⟨[], by simpa [ran] using holds, .refl _⟩
  | case2 state item rest error failed =>
      rw [Loop.run_error failed] at ran
      cases ran
  | case3 state item rest next pushed handled ih =>
      rw [Loop.run_ok handled] at ran
      obtain ⟨first, firstHolds, firstSame⟩ := account.handled holds handled
      obtain ⟨second, secondHolds, secondSame⟩ := ih firstHolds ran
      refine ⟨first ++ second, by rwa [← List.append_assoc], ?_⟩
      rw [List.flatMap_append] at secondSame
      rw [List.flatMap_cons]
      refine (secondSame.append_left first).trans ?_
      rw [← List.append_assoc]
      exact firstSame.append_right _

/-- A loop that fails was broken by the events of some of its items. -/
theorem run_error (account : Account loop Event) {seen : List Event} {state : State}
    {error : Error} {pending : List Item} (holds : account.Holds seen state)
    (ran : loop.run state pending = .error error) :
    ∃ own later, account.Broken (seen ++ own) error ∧
      (own ++ later).Perm (pending.flatMap account.events) := by
  induction state, pending using Loop.run.induct loop generalizing seen with
  | case1 state =>
      rw [Loop.run_nil] at ran
      cases ran
  | case2 state item rest failure failed =>
      rw [Loop.run_error failed, Except.error.injEq] at ran
      obtain ⟨own, later, broken, same⟩ := account.failed holds failed
      refine ⟨own, later ++ rest.flatMap account.events, ran ▸ broken, ?_⟩
      rw [List.flatMap_cons, ← List.append_assoc]
      exact same.append_right _
  | case3 state item rest next pushed handled ih =>
      rw [Loop.run_ok handled] at ran
      obtain ⟨first, firstHolds, firstSame⟩ := account.handled holds handled
      obtain ⟨own, later, broken, same⟩ := ih firstHolds ran
      refine ⟨first ++ own, later, by rwa [← List.append_assoc], ?_⟩
      rw [List.flatMap_append] at same
      rw [List.flatMap_cons, List.append_assoc]
      refine (same.append_left first).trans ?_
      rw [← List.append_assoc]
      exact firstSame.append_right _

end Account

end Codenaut.Worklist
