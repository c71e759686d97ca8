import Mathlib.Data.List.Pairwise
import Mathlib.Data.List.Sort
import Mathlib.Data.Prod.Lex

/-!
# Sorting by a key

The stable sort of a list by a key, and the one order in which rows with
distinct keys are sorted.
-/

set_option autoImplicit false

namespace Codenaut.Relational

section Keys

variable {α κ : Type} [LinearOrder κ]

/-- Rows with equal keys keep their order. -/
def sortOn (key : α → κ) (rows : List α) : List α :=
  rows.insertionSort fun left right => key left ≤ key right

theorem sortOn_perm (key : α → κ) (rows : List α) : (sortOn key rows).Perm rows :=
  List.perm_insertionSort _ rows

@[simp] theorem mem_sortOn {key : α → κ} {rows : List α} {row : α} :
    row ∈ sortOn key rows ↔ row ∈ rows :=
  (sortOn_perm key rows).mem_iff

@[simp] theorem sortOn_length (key : α → κ) (rows : List α) :
    (sortOn key rows).length = rows.length :=
  (sortOn_perm key rows).length_eq

theorem sortOn_pairwise (key : α → κ) (rows : List α) :
    (sortOn key rows).Pairwise fun left right => key left ≤ key right := by
  have total : Std.Total fun left right : α => key left ≤ key right :=
    ⟨fun left right => le_total (key left) (key right)⟩
  have trans : IsTrans α fun left right => key left ≤ key right :=
    ⟨fun _ _ _ first second => le_trans first second⟩
  exact List.pairwise_insertionSort _ _

end Keys

/-- Comparison of one component before the rest is transitive when both are. -/
theorem lexicographic_trans {α : Type} {before : α → α → Prop} {first second third : α}
    {forward onward across : Prop}
    (trans : ∀ first second third, before first second → before second third → before first third)
    (tails : forward → onward → across)
    (left : before first second ∨ first = second ∧ forward)
    (right : before second third ∨ second = third ∧ onward) :
    before first third ∨ first = third ∧ across := by
  rcases left with left | ⟨rfl, left⟩
  · rcases right with right | ⟨rfl, right⟩
    · exact .inl (trans _ _ _ left right)
    · exact .inl left
  · rcases right with right | ⟨rfl, right⟩
    · exact .inl right
    · exact .inr ⟨rfl, tails left right⟩

section Orders

variable {α β : Type} {first second : α → α → Prop} {rows stored : List α}

/-- The relation orders the rows: each before itself, no two different ones
both ways. -/
structure OrdersRows (relation : α → α → Prop) (rows : List α) : Prop where
  refl : ∀ row ∈ rows, relation row row
  antisymm : ∀ left ∈ rows, ∀ right ∈ rows,
    relation left right → relation right left → left = right

/-- Values that tell the rows apart tell the lists apart. -/
theorem eq_of_map_eq {value : α → β}
    (separated : ∀ left ∈ rows, ∀ right ∈ stored, value left = value right → left = right)
    (same : rows.map value = stored.map value) : rows = stored := by
  induction rows generalizing stored with
  | nil => exact (List.map_eq_nil_iff.mp same.symm).symm
  | cons row rows ih =>
      cases stored with
      | nil => cases same
      | cons other rest =>
          obtain ⟨heads, tails⟩ := List.cons.inj same
          have equal : row = other :=
            separated row List.mem_cons_self other List.mem_cons_self heads
          have remaining : rows = rest := by
            apply ih _ tails
            intro left leftMember right rightMember
            exact separated left (.tail _ leftMember) right (.tail _ rightMember)
          rw [equal, remaining]

theorem perm_pair {first second : α} (perm : rows.Perm [first, second]) :
    rows = [first, second] ∨ rows = [second, first] := by
  match rows, perm.length_eq with
  | [left, right], _ =>
      rcases List.mem_pair.mp (perm.mem_iff.mp List.mem_cons_self) with same | same
      · subst same
        have rest := List.perm_singleton.mp perm.cons_inv
        exact .inl (by rw [rest])
      · subst same
        have rest := List.perm_singleton.mp (perm.trans (.swap left first [])).cons_inv
        exact .inr (by rw [rest])

/-- Rows sorted by two relations at once are ordered alike by both. -/
theorem iff_of_pairwise (firstOrders : OrdersRows first rows)
    (secondOrders : OrdersRows second rows) (firstSorted : rows.Pairwise first)
    (secondSorted : rows.Pairwise second) :
    ∀ left ∈ rows, ∀ right ∈ rows, first left right ↔ second left right := by
  have later : ∀ left ∈ rows, ∀ right ∈ rows, first left right → second left right →
      (first right left ↔ second right left) := by
    intro left leftMember right rightMember firstHolds secondHolds
    constructor
    · intro flipped
      have same := firstOrders.antisymm left leftMember right rightMember firstHolds flipped
      exact same ▸ secondOrders.refl left leftMember
    · intro flipped
      have same := secondOrders.antisymm left leftMember right rightMember secondHolds flipped
      exact same ▸ firstOrders.refl left leftMember
  have both : rows.Pairwise fun left right =>
      (first left right ↔ second left right) ∧ (first right left ↔ second right left) := by
    apply List.Pairwise.imp_of_mem _ (firstSorted.and secondSorted)
    intro left right leftMember rightMember holds
    exact ⟨iff_of_true holds.1 holds.2,
      later left leftMember right rightMember holds.1 holds.2⟩
  intro left leftMember right rightMember
  have symmetric : Std.Symm fun left right : α =>
      (first left right ↔ second left right) ∧ (first right left ↔ second right left) :=
    ⟨fun _ _ agrees => ⟨agrees.2, agrees.1⟩⟩
  have reflexive : ∀ row ∈ rows,
      (first row row ↔ second row row) ∧ (first row row ↔ second row row) := by
    intro row member
    have holds := iff_of_true (firstOrders.refl row member) (secondOrders.refl row member)
    exact ⟨holds, holds⟩
  exact (both.forall_of_forall reflexive leftMember rightMember).1

/-- A list sorted one way is the same rows sorted another way exactly when the
two orders agree on every two rows. -/
theorem sorted_eq_sorted_iff (firstOrders : OrdersRows first stored)
    (secondOrders : OrdersRows second stored) (perm : rows.Perm stored)
    (firstSorted : rows.Pairwise first) (secondSorted : stored.Pairwise second) :
    rows = stored ↔ ∀ left ∈ stored, ∀ right ∈ stored, first left right ↔ second left right := by
  constructor
  · intro same
    subst same
    exact iff_of_pairwise firstOrders secondOrders firstSorted secondSorted
  · intro agree
    apply perm.eq_of_pairwise
      (fun left right leftMember rightMember => secondOrders.antisymm left
        (perm.mem_iff.mp leftMember) right rightMember) _ secondSorted
    apply List.Pairwise.imp_of_mem _ firstSorted
    intro left right leftMember rightMember holds
    exact (agree left (perm.mem_iff.mp leftMember) right (perm.mem_iff.mp rightMember)).mp holds

end Orders

end Codenaut.Relational
