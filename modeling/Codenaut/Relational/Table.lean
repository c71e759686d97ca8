import Mathlib.Data.List.Nodup
import Mathlib.Data.List.Basic

/-!
# Tables as lists of rows

The relational operations a service transaction is written in: a guarded
update, a guarded delete, an insert, and selection by a key. The laws describe
the rows after each operation, so that users never unfold it.
-/

set_option autoImplicit false

namespace Codenaut.Relational

variable {Row Key : Type}

/-- `UPDATE … SET change WHERE guard`. -/
def updateWhere (guard : Row → Bool) (change : Row → Row) (rows : List Row) : List Row :=
  rows.map fun row => if guard row then change row else row

/-- `DELETE … WHERE guard`. -/
def deleteWhere (guard : Row → Bool) (rows : List Row) : List Row :=
  rows.filter fun row => !guard row

/-- A uniqueness constraint on one key. -/
def UniqueKey (key : Row → Key) (rows : List Row) : Prop :=
  (rows.map key).Nodup

/-- An application-generated key that no stored row uses. -/
def freshKey (keys : List Nat) : Nat :=
  keys.foldr max 0 + 1

theorem mem_updateWhere {guard : Row → Bool} {change : Row → Row} {rows : List Row} {row : Row} :
    row ∈ updateWhere guard change rows ↔
      ∃ old ∈ rows, (if guard old then change old else old) = row := by
  simp [updateWhere]

theorem mem_deleteWhere {guard : Row → Bool} {rows : List Row} {row : Row} :
    row ∈ deleteWhere guard rows ↔ row ∈ rows ∧ guard row = false := by
  simp [deleteWhere]

theorem updateWhere_eq_self {guard : Row → Bool} {change : Row → Row} {rows : List Row}
    (unmatched : ∀ row ∈ rows, guard row = false) : updateWhere guard change rows = rows := by
  induction rows with
  | nil => rfl
  | cons row rest ih =>
      have kept := ih fun other member => unmatched other (.tail _ member)
      have head := unmatched row (.head _)
      simp only [updateWhere, List.map_cons, head] at kept ⊢
      simpa using kept

/-- An update changes nothing exactly when it changes no selected row. -/
theorem updateWhere_eq_self_iff {guard : Row → Bool} {change : Row → Row} {rows : List Row} :
    updateWhere guard change rows = rows ↔ ∀ row ∈ rows, guard row = true → change row = row := by
  have rewritten : updateWhere guard change rows = rows ↔
      ∀ row ∈ rows, (if guard row then change row else row) = row := by
    have identity : rows = rows.map id := (List.map_id rows).symm
    constructor
    · intro same
      rw [identity] at same
      exact List.map_inj_left.mp (by simpa [updateWhere] using same)
    · intro same
      have kept := List.map_inj_left.mpr same
      simpa [updateWhere] using kept
  rw [rewritten]
  constructor
  · intro kept row member matched
    simpa [matched] using kept row member
  · intro kept row member
    by_cases matched : guard row = true
    · simpa [matched] using kept row member matched
    · simp [matched]

/-- A delete removes nothing exactly when it selects no row. -/
theorem deleteWhere_eq_self_iff {guard : Row → Bool} {rows : List Row} :
    deleteWhere guard rows = rows ↔ ∀ row ∈ rows, guard row = false := by
  simp [deleteWhere, List.filter_eq_self]

/-- An update that preserves a projection leaves the projected column alone. -/
theorem map_updateWhere {Column : Type} {guard : Row → Bool} {change : Row → Row}
    (column : Row → Column) (preserved : ∀ row, column (change row) = column row)
    (rows : List Row) : (updateWhere guard change rows).map column = rows.map column := by
  simp only [updateWhere, List.map_map]
  apply List.map_congr_left
  intro row _
  by_cases matched : guard row <;> simp [matched, preserved]

/-- An update that selection does not see rewrites the selected row only. -/
theorem find?_updateWhere {guard select : Row → Bool} {change : Row → Row}
    (preserved : ∀ row, select (change row) = select row) (rows : List Row) :
    (updateWhere guard change rows).find? select =
      (rows.find? select).map fun row => if guard row then change row else row := by
  unfold updateWhere
  rw [List.find?_map]
  have same : (select ∘ fun row => if guard row then change row else row) = select := by
    funext row
    by_cases matched : guard row <;> simp [matched, preserved]
  rw [same]

theorem UniqueKey.updateWhere {key : Row → Key} {guard : Row → Bool} {change : Row → Row}
    {rows : List Row} (unique : UniqueKey key rows)
    (preserved : ∀ row, key (change row) = key row) :
    UniqueKey key (updateWhere guard change rows) := by
  unfold UniqueKey
  rw [map_updateWhere key preserved]
  exact unique

theorem UniqueKey.deleteWhere {key : Row → Key} {guard : Row → Bool} {rows : List Row}
    (unique : UniqueKey key rows) : UniqueKey key (deleteWhere guard rows) :=
  unique.sublist (List.filter_sublist.map key)

theorem UniqueKey.insert {key : Row → Key} {rows : List Row} {row : Row}
    (unique : UniqueKey key rows) (fresh : ∀ other ∈ rows, key other ≠ key row) :
    UniqueKey key (rows ++ [row]) := by
  unfold UniqueKey at *
  rw [List.map_append, List.nodup_append]
  refine ⟨unique, by simp, ?_⟩
  intro left leftMember right rightMember
  obtain ⟨other, member, rfl⟩ := List.mem_map.mp leftMember
  have same : right = key row := by simpa using rightMember
  exact same ▸ fresh other member

/-- Under a uniqueness constraint the key identifies the row. -/
theorem UniqueKey.row_eq {key : Row → Key} {rows : List Row} (unique : UniqueKey key rows)
    {left right : Row} (leftMember : left ∈ rows) (rightMember : right ∈ rows)
    (same : key left = key right) : left = right :=
  List.inj_on_of_nodup_map unique leftMember rightMember same

theorem find?_eq_some_of_unique {key : Row → Key} {rows : List Row} (unique : UniqueKey key rows)
    {guard : Row → Bool} {row : Row} (member : row ∈ rows) (matched : guard row = true)
    (selective : ∀ other, guard other = true → key other = key row) :
    rows.find? guard = some row := by
  cases found : rows.find? guard with
  | none => exact absurd matched (List.find?_eq_none.mp found row member)
  | some other =>
      have otherMember := List.mem_of_find?_eq_some found
      have otherMatched := List.find?_some found
      rw [unique.row_eq otherMember member (selective other otherMatched)]

theorem freshKey_not_mem (keys : List Nat) : freshKey keys ∉ keys := by
  have bounded : ∀ key ∈ keys, key ≤ keys.foldr max 0 := by
    intro key member
    induction keys with
    | nil => simp at member
    | cons head tail ih =>
        rcases List.mem_cons.mp member with rfl | member
        · exact Nat.le_max_left _ _
        · exact Nat.le_trans (ih member) (Nat.le_max_right _ _)
  intro member
  have := bounded _ member
  simp only [freshKey] at this
  omega

end Codenaut.Relational
