import Codenaut.Relational.Table
import Mathlib.Data.List.Sort

/-!
# Pages of keyed rows

A scan in the order of the keys, one page of rows at a time. The key at which
the next page starts leaves out exactly the rows of the pages before it.
-/

set_option autoImplicit false

namespace Codenaut.Relational

variable {Row : Type} (key : Row → Nat)

def inOrder (rows : List Row) : List Row :=
  rows.mergeSort fun left right => key left ≤ key right

/-- The rows from an offset on. -/
def remaining (offset : Option Nat) (rows : List Row) : List Row :=
  (inOrder key rows).filter fun row => offset.all fun start => start ≤ key row

/-- The next rows, and the key at which the page after them starts. -/
def page (limit : Nat) (offset : Option Nat) (rows : List Row) : List Row × Option Nat :=
  let rest := remaining key offset rows
  (rest.take limit, (rest.drop limit).head?.map key)

theorem inOrder_perm (rows : List Row) : (inOrder key rows).Perm rows :=
  List.mergeSort_perm ..

@[simp] theorem remaining_none (rows : List Row) : remaining key none rows = inOrder key rows :=
  List.filter_eq_self.mpr fun _ _ => rfl

theorem inOrder_increasing {rows : List Row} (unique : UniqueKey key rows) :
    (inOrder key rows).Pairwise fun left right => key left < key right := by
  have sorted : (inOrder key rows).Pairwise fun left right =>
      decide (key left ≤ key right) = true := by
    apply List.pairwise_mergeSort
    · intro left middle right first second
      simp only [decide_eq_true_eq] at first second ⊢
      omega
    · intro left right
      simp only [Bool.or_eq_true, decide_eq_true_eq]
      omega
  have distinct : ((inOrder key rows).map key).Nodup :=
    ((inOrder_perm key rows).map key).nodup_iff.mpr unique
  have apart := List.pairwise_map.mp distinct
  apply (sorted.and apart).imp
  intro left right ⟨below, different⟩
  simp only [decide_eq_true_eq] at below
  omega

/-- From the first row after a page on, the rows are those the page left. -/
theorem remaining_next {rows : List Row} (unique : UniqueKey key rows) {limit start : Nat}
    {offset : Option Nat} (next : (page key limit offset rows).2 = some start) :
    remaining key (some start) rows = (remaining key offset rows).drop limit := by
  have increasing : (remaining key offset rows).Pairwise fun left right => key left < key right :=
    (inOrder_increasing key unique).sublist List.filter_sublist
  have read := List.take_append_drop limit (remaining key offset rows)
  cases left : (remaining key offset rows).drop limit with
  | nil => simp [page, left] at next
  | cons row rest =>
      have first : key row = start := by simpa [page, left] using next
      rw [left] at read
      have admitted : offset.all (fun from_ => from_ ≤ key row) = true := by
        have member : row ∈ remaining key offset rows := read ▸ by simp
        exact (List.mem_filter.mp member).2
      have narrowed : remaining key (some start) rows =
          (remaining key offset rows).filter fun other => decide (start ≤ key other) := by
        simp only [remaining, List.filter_filter]
        apply List.filter_congr
        intro other _
        cases offset with
        | none => simp
        | some bound =>
            simp only [Option.all_some, decide_eq_true_eq] at admitted ⊢
            by_cases above : start ≤ key other
            · have later : bound ≤ key other := by omega
              simp [above, later]
            · simp [above]
      rw [narrowed, ← read, List.filter_append]
      rw [← read, List.pairwise_append, List.pairwise_cons] at increasing
      obtain ⟨_, ⟨after, _⟩, before⟩ := increasing
      have skipped : ((remaining key offset rows).take limit).filter
          (fun other => decide (start ≤ key other)) = [] := by
        apply List.filter_eq_nil_iff.mpr
        intro other member
        have below := before other member row (.head _)
        simp only [decide_eq_true_eq]
        omega
      rw [skipped, List.nil_append, List.filter_eq_self]
      intro other member
      cases member with
      | head => simp [first]
      | tail _ later =>
          have above := after other later
          simp only [decide_eq_true_eq]
          omega

/-- The last page holds the rest of the rows. -/
theorem remaining_last {rows : List Row} {limit : Nat} {offset : Option Nat}
    (last : (page key limit offset rows).2 = none) :
    (page key limit offset rows).1 = remaining key offset rows := by
  have exhausted : (remaining key offset rows).drop limit = [] := by
    simpa [page] using last
  have read := List.take_append_drop limit (remaining key offset rows)
  rwa [exhausted, List.append_nil] at read

end Codenaut.Relational
