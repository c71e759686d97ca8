import Mathlib.Data.List.Nodup
import Mathlib.Logic.Function.Basic

/-!
# Counters that expire

A store of counters under keys. A key lives from the increment that creates its
counter until the counter expires or is dropped; an increment hands out a ticket
with the life of the key and the count reached in it. No ticket is handed out
twice, and the deadline of a life does not move.
-/

set_option autoImplicit false

namespace Codenaut.Counters

/-- A stored counter. Lives are numbered in the order of their creation. -/
structure Counter where
  count : Nat
  life : Nat
  deadline : Option Nat := none
  deriving DecidableEq, Repr

/-- The count that an increment reached, and the life of the key it counted in. -/
structure Ticket where
  life : Nat
  count : Nat
  deriving DecidableEq, Repr

/-- `issued` records the tickets, the newest first. -/
structure Store (Key : Type) where
  clock : Nat := 0
  lives : Nat := 0
  counters : Key → Option Counter := fun _ => none
  issued : List Ticket := []

namespace Store

variable {Key : Type} [DecidableEq Key]

/-- A counter past its deadline is absent. -/
def live (store : Store Key) (key : Key) : Option Counter :=
  (store.counters key).filter fun counter => counter.deadline.all (store.clock < ·)

/-- `INCR`: the deadline of a counter stays, and a new counter has none. -/
def incr (key : Key) (store : Store Key) : Ticket × Store Key :=
  match store.live key with
  | some counter =>
      let ticket := ⟨counter.life, counter.count + 1⟩
      (ticket, { store with
        counters := Function.update store.counters key
          (some { counter with count := counter.count + 1 })
        issued := ticket :: store.issued })
  | none =>
      let ticket := ⟨store.lives, 1⟩
      (ticket, { store with
        lives := store.lives + 1
        counters := Function.update store.counters key (some { count := 1, life := store.lives })
        issued := ticket :: store.issued })

/-- `EXPIRE key span NX`: a deadline for a counter that has none. -/
def expireNx (span : Nat) (key : Key) (store : Store Key) : Store Key :=
  match store.live key with
  | some counter =>
      if counter.deadline.isNone then
        { store with
          counters := Function.update store.counters key
            (some { counter with deadline := some (store.clock + span) }) }
      else store
  | none => store

/-- Both commands, as one transaction. -/
def increment (span : Nat) (key : Key) (store : Store Key) : Ticket × Store Key :=
  ((store.incr key).1, expireNx span key (store.incr key).2)

def pass (span : Nat) (store : Store Key) : Store Key :=
  { store with clock := store.clock + span }

/-- A counter is removed, at its deadline or before. -/
def drop (key : Key) (store : Store Key) : Store Key :=
  { store with counters := Function.update store.counters key none }

end Store

/-! ## Soundness -/

section Laws

variable {Key : Type} {store : Store Key}

/-- Lives and tickets are numbered apart, and no ticket is ahead of its counter. -/
structure Sound (store : Store Key) : Prop where
  started : ∀ key counter, store.counters key = some counter → counter.life < store.lives
  owner : ∀ key counter other found, store.counters key = some counter →
    store.counters other = some found → counter.life = found.life → key = other
  numbered : ∀ ticket ∈ store.issued, ticket.life < store.lives
  reached : ∀ ticket ∈ store.issued, ∀ key counter, store.counters key = some counter →
    counter.life = ticket.life → ticket.count ≤ counter.count
  positive : ∀ ticket ∈ store.issued, 1 ≤ ticket.count
  distinct : store.issued.Nodup

/-- Every counter has a deadline, no further ahead than the longest span. -/
def Timed (longest : Nat) (store : Store Key) : Prop :=
  ∀ key counter, store.counters key = some counter →
    ∃ deadline, counter.deadline = some deadline ∧ deadline ≤ store.clock + longest

/-- A counter that is there afterwards has kept its life and deadline, or its
life began since. -/
structure Kept (before after : Store Key) : Prop where
  lives : before.lives ≤ after.lives
  counters : ∀ key counter, after.counters key = some counter →
    (∃ earlier, before.counters key = some earlier ∧ earlier.life = counter.life ∧
      (earlier.deadline.isSome → counter.deadline = earlier.deadline)) ∨
    before.lives ≤ counter.life

theorem live_counter {key : Key} {counter : Counter} (present : store.live key = some counter) :
    store.counters key = some counter :=
  (Option.filter_eq_some_iff.mp present).1

theorem Sound.start : Sound ({} : Store Key) := by
  constructor <;> simp

theorem Sound.pass (sound : Sound store) (span : Nat) : Sound (store.pass span) := by
  obtain ⟨started, owner, numbered, reached, positive, distinct⟩ := sound
  exact ⟨started, owner, numbered, reached, positive, distinct⟩

theorem Timed.start (longest : Nat) : Timed longest ({} : Store Key) :=
  fun _ _ present => by cases present

theorem Timed.pass {longest : Nat} (timed : Timed longest store) (span : Nat) :
    Timed longest (store.pass span) := by
  intro key counter present
  obtain ⟨deadline, due, near⟩ := timed key counter present
  exact ⟨deadline, due, Nat.le_trans near
    (Nat.add_le_add_right (Nat.le_add_right _ _) _)⟩

/-- No counter is there after the longest span. -/
theorem live_pass_expired {longest waited : Nat} (timed : Timed longest store)
    (enough : longest ≤ waited) (key : Key) : (store.pass waited).live key = none := by
  refine Option.filter_eq_none_iff.mpr fun counter stored due => ?_
  obtain ⟨deadline, found, near⟩ := timed key counter stored
  rw [found] at due
  have ahead : store.clock + waited < deadline := of_decide_eq_true due
  omega

theorem Kept.refl (store : Store Key) : Kept store store :=
  ⟨Nat.le_refl _, fun _ counter present => .inl ⟨counter, present, rfl, fun _ => rfl⟩⟩

theorem Kept.trans {first second third : Store Key} (left : Kept first second)
    (right : Kept second third) : Kept first third := by
  refine ⟨Nat.le_trans left.lives right.lives, fun key counter present => ?_⟩
  rcases right.counters key counter present with ⟨middle, there, life, deadline⟩ | started
  · rcases left.counters key middle there with ⟨earlier, before, lifeBefore, deadlineBefore⟩ | since
    · refine .inl ⟨earlier, before, lifeBefore.trans life, fun timed => ?_⟩
      have same := deadlineBefore timed
      exact (deadline (same ▸ timed)).trans same
    · exact .inr (life ▸ since)
  · exact .inr (Nat.le_trans left.lives started)

theorem Kept.pass (span : Nat) : Kept store (store.pass span) := by
  obtain ⟨lives, counters⟩ := Kept.refl store
  exact ⟨lives, counters⟩

/-- The deadline of a life does not move. -/
theorem Kept.deadline {after : Store Key} {key : Key} {earlier counter : Counter}
    (kept : Kept store after) (sound : Sound store)
    (before : store.counters key = some earlier) (timed : earlier.deadline.isSome = true)
    (present : after.counters key = some counter) (life : counter.life = earlier.life) :
    counter.deadline = earlier.deadline := by
  rcases kept.counters key counter present with ⟨found, there, _, deadline⟩ | since
  · obtain rfl := Option.some.inj (before.symm.trans there)
    exact deadline timed
  · exact absurd (sound.started key earlier before) (Nat.not_lt.mpr (life ▸ since))

/-- The tickets of one life whose counts are within a limit are at most as many. -/
theorem tickets_within_limit {tickets : List Ticket} {life limit : Nat}
    (distinct : tickets.Nodup) (positive : ∀ ticket ∈ tickets, 1 ≤ ticket.count)
    (counted : ∀ ticket ∈ tickets, ticket.life = life ∧ ticket.count ≤ limit) :
    tickets.length ≤ limit := by
  have counts : (tickets.map (·.count)).Nodup := by
    refine distinct.map_on fun left leftMember right rightMember same => ?_
    have lives := (counted left leftMember).1.trans (counted right rightMember).1.symm
    cases left
    cases right
    exact congrArg₂ _ lives same
  have inside : tickets.map (·.count) ⊆ List.range' 1 limit := by
    intro count member
    obtain ⟨ticket, listed, rfl⟩ := List.mem_map.mp member
    have low := positive ticket listed
    have high := (counted ticket listed).2
    exact List.mem_range'_1.mpr ⟨low, by omega⟩
  simpa using List.Nodup.length_le_of_subset counts inside

end Laws

/-! ## Increments -/

section Increments

variable {Key : Type} [DecidableEq Key] {store : Store Key} {key : Key} {span : Nat}

/-- The counter that an increment leaves: one more in the same life, or the
first of a new one. -/
theorem increment_cases (span : Nat) (key : Key) (store : Store Key) :
    (∃ counter, store.live key = some counter ∧
      store.increment span key = (⟨counter.life, counter.count + 1⟩, { store with
        counters := Function.update store.counters key (some { counter with
          count := counter.count + 1
          deadline := some (counter.deadline.getD (store.clock + span)) })
        issued := ⟨counter.life, counter.count + 1⟩ :: store.issued })) ∨
    (store.live key = none ∧
      store.increment span key = (⟨store.lives, 1⟩, { store with
        lives := store.lives + 1
        counters := Function.update store.counters key (some {
          count := 1
          life := store.lives
          deadline := some (store.clock + span) })
        issued := ⟨store.lives, 1⟩ :: store.issued })) := by
  unfold Store.increment Store.incr
  cases present : store.live key with
  | none =>
      refine .inr ⟨rfl, ?_⟩
      simp [Store.expireNx, Store.live, Option.filter_some]
  | some counter =>
      refine .inl ⟨counter, rfl, ?_⟩
      have due := (Option.filter_eq_some_iff.mp present).2
      cases deadline : counter.deadline with
      | none => simp [Store.expireNx, Store.live, Option.filter_some, deadline]
      | some instant =>
          rw [deadline] at due
          have ahead : store.clock < instant := by simpa using due
          simp [Store.expireNx, Store.live, Option.filter_some, deadline, ahead]

theorem increment_issued (span : Nat) (key : Key) (store : Store Key) :
    (store.increment span key).2.issued = (store.increment span key).1 :: store.issued := by
  rcases increment_cases span key store with ⟨counter, -, result⟩ | ⟨-, result⟩ <;> rw [result]

theorem counters_drop {other : Key} {counter : Counter}
    (present : (store.drop key).counters other = some counter) :
    store.counters other = some counter := by
  simp only [Store.drop, Function.update_apply] at present
  split at present
  · cases present
  · exact present

theorem Sound.drop (sound : Sound store) (key : Key) : Sound (store.drop key) where
  started other counter present := sound.started other counter (counters_drop present)
  owner other counter third found present presentThird :=
    sound.owner other counter third found (counters_drop present) (counters_drop presentThird)
  numbered := sound.numbered
  reached ticket member other counter present :=
    sound.reached ticket member other counter (counters_drop present)
  positive := sound.positive
  distinct := sound.distinct

theorem Timed.drop {longest : Nat} (timed : Timed longest store) (key : Key) :
    Timed longest (store.drop key) :=
  fun other counter present => timed other counter (counters_drop present)

theorem Kept.drop (key : Key) : Kept store (store.drop key) :=
  ⟨Nat.le_refl _, fun _ counter present =>
    .inl ⟨counter, counters_drop present, rfl, fun _ => rfl⟩⟩

theorem Sound.increment (sound : Sound store) (span : Nat) (key : Key) :
    Sound (store.increment span key).2 := by
  obtain ⟨started, owner, numbered, reached, positive, distinct⟩ := sound
  rcases increment_cases span key store with ⟨counter, present, result⟩ | ⟨-, result⟩
  · -- The counter of the key goes one up.
    have stored := live_counter present
    have fresh : (⟨counter.life, counter.count + 1⟩ : Ticket) ∉ store.issued := fun member =>
      absurd (reached _ member key counter stored rfl) (Nat.not_succ_le_self _)
    rw [result]
    refine ⟨?_, ?_, ?_, ?_, ?_, List.nodup_cons.mpr ⟨fresh, distinct⟩⟩
    · grind
    · grind
    · grind
    · grind
    · grind
  · -- The key has a counter of a new life.
    have fresh : (⟨store.lives, 1⟩ : Ticket) ∉ store.issued := fun member =>
      absurd (numbered _ member) (Nat.lt_irrefl _)
    rw [result]
    refine ⟨?_, ?_, ?_, ?_, ?_, List.nodup_cons.mpr ⟨fresh, distinct⟩⟩
    · grind
    · grind
    · grind
    · grind
    · grind

theorem Timed.increment {longest : Nat} (timed : Timed longest store) (short : span ≤ longest)
    (key : Key) : Timed longest (store.increment span key).2 := by
  intro other found there
  rcases increment_cases span key store with ⟨counter, present, result⟩ | ⟨-, result⟩
  · obtain ⟨deadline, due, near⟩ := timed key counter (live_counter present)
    rw [result] at there ⊢
    simp only [Function.update_apply, due, Option.getD_some] at there
    split at there
    · cases there
      exact ⟨deadline, rfl, near⟩
    · exact timed other found there
  · rw [result] at there ⊢
    simp only [Function.update_apply] at there
    split at there
    · cases there
      exact ⟨_, rfl, Nat.add_le_add_left short _⟩
    · exact timed other found there

theorem Kept.increment (span : Nat) (key : Key) (store : Store Key) :
    Kept store (store.increment span key).2 := by
  rcases increment_cases span key store with ⟨counter, present, result⟩ | ⟨-, result⟩
  · have stored := live_counter present
    rw [result]
    refine ⟨Nat.le_refl _, fun other found there => ?_⟩
    simp only [Function.update_apply] at there
    split at there
    case isTrue same =>
      cases there
      refine .inl ⟨counter, same ▸ stored, rfl, fun timed => ?_⟩
      obtain ⟨deadline, due⟩ := Option.isSome_iff_exists.mp timed
      simp [due]
    case isFalse _ => exact .inl ⟨found, there, rfl, fun _ => rfl⟩
  · rw [result]
    refine ⟨Nat.le_succ _, fun other found there => ?_⟩
    simp only [Function.update_apply] at there
    split at there
    · cases there
      exact .inr (Nat.le_refl _)
    · exact .inl ⟨found, there, rfl, fun _ => rfl⟩

theorem increment_fresh (absent : store.live key = none) :
    (store.increment span key).1.count = 1 := by
  rcases increment_cases span key store with ⟨counter, present, -⟩ | ⟨-, result⟩
  · cases absent.symm.trans present
  · rw [result]

theorem live_increment_other {other : Key} (apart : other ≠ key) :
    (store.increment span key).2.live other = store.live other := by
  unfold Store.live
  rcases increment_cases span key store with ⟨counter, -, result⟩ | ⟨-, result⟩ <;>
    simp [result, apart]

end Increments

end Codenaut.Counters
