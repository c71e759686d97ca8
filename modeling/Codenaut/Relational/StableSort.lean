import Codenaut.Relational.Sorting

/-!
# Stability of the sort

Sorting keeps the order of rows with one key, so lists that agree key by key
are sorted alike.
-/

set_option autoImplicit false

namespace Codenaut.Relational

section Stability

variable {α κ : Type} [LinearOrder κ] {key : α → κ}

/-- The rows with one key stand in their first order. -/
theorem filter_sortOn (rows : List α) (value : κ) :
    (sortOn key rows).filter (fun row => key row = value) =
      rows.filter fun row => key row = value := by
  have total : Std.Total fun left right : α => key left ≤ key right :=
    ⟨fun left right => le_total (key left) (key right)⟩
  have trans : IsTrans α fun left right => key left ≤ key right :=
    ⟨fun _ _ _ first second => le_trans first second⟩
  have tied : (rows.filter fun row => key row = value).Pairwise
      fun left right => key left ≤ key right := by
    apply List.pairwise_of_forall_mem_list
    intro left leftMember right rightMember
    have first := of_decide_eq_true (List.mem_filter.mp leftMember).2
    have second := of_decide_eq_true (List.mem_filter.mp rightMember).2
    exact le_of_eq (first.trans second.symm)
  have inside : (rows.filter fun row => key row = value).Sublist (sortOn key rows) :=
    List.sublist_insertionSort tied List.filter_sublist
  have kept := inside.filter fun row => decide (key row = value)
  rw [List.filter_filter] at kept
  simp only [Bool.and_self] at kept
  exact (kept.eq_of_length ((sortOn_perm key rows).filter _).length_eq.symm).symm

theorem key_le_of_filter {first : α} {rest rows : List α}
    (sorted : (first :: rest).Pairwise fun left right => key left ≤ key right)
    (agree : ∀ value, rows.filter (fun row => key row = value) =
      (first :: rest).filter fun row => key row = value) {row : α} (member : row ∈ rows) :
    key first ≤ key row := by
  have listed : row ∈ (first :: rest).filter fun other => key other = key row := by
    rw [← agree]
    exact List.mem_filter.mpr ⟨member, decide_eq_true rfl⟩
  rcases List.mem_cons.mp (List.mem_filter.mp listed).1 with rfl | later
  · exact le_rfl
  · exact (List.pairwise_cons.mp sorted).1 row later

/-- Sorted lists that agree key by key are equal. -/
theorem eq_of_filter_eq {left right : List α}
    (leftSorted : left.Pairwise fun first second => key first ≤ key second)
    (rightSorted : right.Pairwise fun first second => key first ≤ key second)
    (agree : ∀ value, left.filter (fun row => key row = value) =
      right.filter fun row => key row = value) : left = right := by
  induction left generalizing right with
  | nil =>
      cases right with
      | nil => rfl
      | cons other rest =>
          have impossible := agree (key other)
          simp at impossible
  | cons row rest ih =>
      cases right with
      | nil =>
          have impossible := agree (key row)
          simp at impossible
      | cons other others =>
          have below := key_le_of_filter rightSorted agree (List.mem_cons_self : row ∈ row :: rest)
          have above := key_le_of_filter leftSorted (fun value => (agree value).symm)
            (List.mem_cons_self : other ∈ other :: others)
          have tied : key other = key row := le_antisymm below above
          have heads := agree (key row)
          simp only [List.filter_cons, decide_true, if_true, tied] at heads
          obtain ⟨rfl, -⟩ := List.cons.inj heads
          congr 1
          apply ih (List.pairwise_cons.mp leftSorted).2 (List.pairwise_cons.mp rightSorted).2
          intro value
          have whole := agree value
          simp only [List.filter_cons] at whole
          split at whole
          · exact (List.cons.inj whole).2
          · exact whole

/-- Lists that agree key by key are sorted alike. -/
theorem sortOn_eq_of_filter {left right : List α}
    (agree : ∀ value, left.filter (fun row => key row = value) =
      right.filter fun row => key row = value) : sortOn key left = sortOn key right := by
  apply eq_of_filter_eq (sortOn_pairwise key left) (sortOn_pairwise key right)
  intro value
  rw [filter_sortOn, filter_sortOn, agree]

/-- A row that comes first among those of least key. -/
structure FirstLeast (key : α → κ) (rows : List α) (row : α) : Prop where
  split : ∃ front back, rows = front ++ row :: back ∧
    (∀ earlier ∈ front, key row < key earlier) ∧ ∀ later ∈ back, key row ≤ key later

theorem FirstLeast.mem {rows : List α} {row : α} (least : FirstLeast key rows row) : row ∈ rows := by
  obtain ⟨front, back, rfl, -, -⟩ := least.split
  simp

theorem FirstLeast.head_filter {rows : List α} {row : α} (least : FirstLeast key rows row) :
    (rows.filter fun other => key other = key row).head? = some row := by
  obtain ⟨front, back, rfl, earlier, -⟩ := least.split
  have none : front.filter (fun other => decide (key other = key row)) = [] := by
    rw [List.filter_eq_nil_iff]
    intro other member
    simpa using (earlier other member).ne'
  simp [List.filter_append, none]

theorem FirstLeast.le {rows : List α} {row other : α} (least : FirstLeast key rows row)
    (member : other ∈ rows) : key row ≤ key other := by
  obtain ⟨front, back, rfl, earlier, later⟩ := least.split
  rcases List.mem_append.mp member with before | here
  · exact (earlier other before).le
  · rcases List.mem_cons.mp here with rfl | after
    · exact le_rfl
    · exact later other after

theorem firstLeast_head {rows : List α} {row : α} (head : (sortOn key rows).head? = some row) :
    FirstLeast key rows row := by
  obtain ⟨rest, sorted⟩ := List.head?_eq_some_iff.mp head
  have pairwise := sortOn_pairwise key rows
  rw [sorted, List.pairwise_cons] at pairwise
  have least : ∀ other ∈ rows, key row ≤ key other := by
    intro other member
    have listed : other ∈ sortOn key rows := mem_sortOn.mpr member
    rw [sorted] at listed
    rcases List.mem_cons.mp listed with rfl | later
    · exact le_rfl
    · exact pairwise.1 other later
  have kept := @filter_sortOn _ _ _ key rows (key row)
  rw [sorted, List.filter_cons_of_pos (by simp)] at kept
  obtain ⟨front, back, split, others, -, -⟩ := List.filter_eq_cons_iff.mp kept.symm
  refine ⟨front, back, split, ?_, ?_⟩
  · intro earlier member
    have inside : earlier ∈ rows := split ▸ List.mem_append_left _ member
    refine lt_of_le_of_ne (least earlier inside) ?_
    intro same
    exact others earlier member (decide_eq_true same.symm)
  · intro later member
    exact least later (split ▸ List.mem_append_right _ (.tail _ member))

/-- The sort brings the first of the rows of least key to the front. -/
theorem head_sortOn {rows : List α} {row : α} :
    (sortOn key rows).head? = some row ↔ FirstLeast key rows row := by
  constructor
  · exact firstLeast_head
  · intro least
    cases head : (sortOn key rows).head? with
    | none =>
        obtain ⟨front, back, rfl, -, -⟩ := least.split
        have length := sortOn_length key (front ++ row :: back)
        rw [List.head?_eq_none_iff.mp head] at length
        simp at length
    | some other =>
        have otherLeast := firstLeast_head head
        have same : key other = key row := by
          apply le_antisymm
          · apply otherLeast.le
            obtain ⟨front, back, rfl, -, -⟩ := least.split
            simp
          · apply least.le
            obtain ⟨front, back, split, -, -⟩ := otherLeast.split
            rw [split]
            simp
        have first := otherLeast.head_filter
        rw [same, least.head_filter] at first
        exact first.symm

end Stability

section Blocks

variable {α β κ : Type}

/-- Blocks of which at most one is not empty may be permuted. -/
theorem flatMap_perm_of_apart {block : α → List β} {rows permuted : List α}
    (apart : rows.Pairwise fun left right => block left = [] ∨ block right = [])
    (perm : rows.Perm permuted) : rows.flatMap block = permuted.flatMap block := by
  have symmetric : Std.Symm fun left right : α => block left = [] ∨ block right = [] :=
    ⟨fun _ _ => Or.symm⟩
  induction perm with
  | nil => rfl
  | cons row _ ih =>
      rw [List.flatMap_cons, List.flatMap_cons, ih (List.pairwise_cons.mp apart).2]
  | swap first second rest =>
      have pair := (List.pairwise_cons.mp apart).1 first List.mem_cons_self
      rcases pair with empty | empty
      · simp [List.flatMap_cons, empty]
      · simp [List.flatMap_cons, empty]
  | trans front _ firstIH secondIH =>
      exact (firstIH apart).trans (secondIH (front.pairwise apart fun first => Or.symm first))

/-- Blocks whose rows carry the block's own tag, with distinct tags, are sorted
alike in any order when the key determines the tag. -/
theorem sortOn_blocks_perm [LinearOrder κ] {γ : Type} [DecidableEq γ] {key : β → κ}
    {tag : β → γ} {name : α → γ} {block : α → List β} {rows permuted : List α}
    (keyed : ∀ left right, key left = key right → tag left = tag right)
    (tagged : ∀ row ∈ rows, ∀ entry ∈ block row, tag entry = name row)
    (distinct : (rows.map name).Nodup) (perm : rows.Perm permuted) :
    sortOn key (rows.flatMap block) = sortOn key (permuted.flatMap block) := by
  apply sortOn_eq_of_filter
  intro value
  rw [List.filter_flatMap, List.filter_flatMap]
  apply flatMap_perm_of_apart _ perm
  have apart : rows.Pairwise fun left right => name left ≠ name right :=
    List.pairwise_map.mp distinct
  apply apart.imp_of_mem
  intro left right leftMember rightMember different
  by_contra both
  obtain ⟨leftSome, rightSome⟩ := not_or.mp both
  obtain ⟨first, firstMember⟩ := List.exists_mem_of_ne_nil _ leftSome
  obtain ⟨second, secondMember⟩ := List.exists_mem_of_ne_nil _ rightSome
  obtain ⟨firstInside, firstKey⟩ := List.mem_filter.mp firstMember
  obtain ⟨secondInside, secondKey⟩ := List.mem_filter.mp secondMember
  apply different
  rw [← tagged left leftMember first firstInside, ← tagged right rightMember second secondInside]
  exact keyed _ _ ((of_decide_eq_true firstKey).trans (of_decide_eq_true secondKey).symm)

end Blocks

end Codenaut.Relational
