import Codenaut.Relational.Table

/-!
# Keyed writes

A store that holds one row for each key: writing a row replaces the row of the
same key. Writing rows of distinct keys leaves exactly them under their keys,
whatever part of them was written before.
-/

set_option autoImplicit false

namespace Codenaut.Relational

variable {Row Key : Type} [DecidableEq Key] (key : Row → Key)

def put (rows : List Row) (row : Row) : List Row :=
  deleteWhere (fun stored => key stored == key row) rows ++ [row]

def putAll (rows written : List Row) : List Row :=
  written.foldl (put key) rows

/-- The rows whose keys no written row uses. -/
def untouched (written rows : List Row) : List Row :=
  deleteWhere (fun stored => (written.map key).contains (key stored)) rows

theorem untouched_append (written left right : List Row) :
    untouched key written (left ++ right) =
      untouched key written left ++ untouched key written right :=
  List.filter_append ..

theorem untouched_cons (row : Row) (written rows : List Row) :
    untouched key written (deleteWhere (fun stored => key stored == key row) rows) =
      untouched key (row :: written) rows := by
  simp only [untouched, deleteWhere, List.filter_filter]
  apply List.filter_congr
  intro stored _
  by_cases same : key stored = key row <;> simp [same]

theorem untouched_put {written rows : List Row} {row : Row} (rewritten : key row ∈ written.map key) :
    untouched key written (put key rows row) = untouched key written rows := by
  have dropped : untouched key written [row] = [] := by
    simpa [untouched, deleteWhere] using rewritten
  rw [put, untouched_append, dropped, List.append_nil]
  simp only [untouched, deleteWhere, List.filter_filter]
  apply List.filter_congr
  intro stored _
  by_cases same : key stored = key row
  · simpa [same] using rewritten
  · simp [same]

/-- Rows that are written again leave no trace beside the last write. -/
theorem untouched_putAll {written : List Row} (before rows : List Row)
    (rewritten : ∀ row ∈ before, key row ∈ written.map key) :
    untouched key written (putAll key rows before) = untouched key written rows := by
  induction before generalizing rows with
  | nil => rfl
  | cons row rest ih =>
      have later := ih (put key rows row) fun other member => rewritten other (.tail _ member)
      exact later.trans (untouched_put key (rewritten row (.head _)))

theorem putAll_eq {written : List Row} (distinct : (written.map key).Nodup) (rows : List Row) :
    putAll key rows written = untouched key written rows ++ written := by
  induction written generalizing rows with
  | nil => simp [putAll, untouched, deleteWhere]
  | cons row rest ih =>
      rw [List.map_cons, List.nodup_cons] at distinct
      have later : putAll key rows (row :: rest) =
          untouched key rest (put key rows row) ++ rest := ih distinct.2 (put key rows row)
      have kept : untouched key rest [row] = [row] := by
        simpa [untouched, deleteWhere] using distinct.1
      rw [later, put, untouched_append, kept, untouched_cons, List.append_assoc,
        List.singleton_append]

/-- Writing a part first, in any order and as often as wanted, changes nothing. -/
theorem putAll_putAll {before written : List Row} (distinct : (written.map key).Nodup)
    (rewritten : ∀ row ∈ before, row ∈ written) (rows : List Row) :
    putAll key (putAll key rows before) written = putAll key rows written := by
  rw [putAll_eq key distinct, putAll_eq key distinct, untouched_putAll]
  intro row member
  exact List.mem_map_of_mem (rewritten row member)

theorem putAll_append (rows left right : List Row) :
    putAll key rows (left ++ right) = putAll key (putAll key rows left) right :=
  List.foldl_append ..

/-- Keys that tell the same rows apart give the same writes. -/
theorem putAll_congr {Other : Type} [DecidableEq Other] (other : Row → Other)
    {rows written : List Row}
    (same : ∀ left ∈ rows ++ written, ∀ right ∈ written,
      key left = key right ↔ other left = other right) :
    putAll key rows written = putAll other rows written := by
  induction written generalizing rows with
  | nil => rfl
  | cons row rest ih =>
      have step : Relational.put key rows row = Relational.put other rows row := by
        unfold Relational.put deleteWhere
        congr 1
        apply List.filter_congr
        intro stored member
        have pair := same stored (List.mem_append_left _ member) row (.head _)
        by_cases equal : key stored = key row
        · simp [equal, pair.mp equal]
        · have apart : other stored ≠ other row := fun named => equal (pair.mpr named)
          simp [equal, apart]
      have later : putAll key (Relational.put key rows row) rest =
          putAll other (Relational.put key rows row) rest := by
        apply ih
        intro left leftMember right rightMember
        apply same left _ right (.tail _ rightMember)
        have members : left ∈ Relational.put key rows row ++ rest → left ∈ rows ++ row :: rest := by
          simp only [Relational.put, List.mem_append, mem_deleteWhere, List.mem_cons]
          tauto
        exact members leftMember
      calc putAll key rows (row :: rest) = putAll key (Relational.put key rows row) rest := rfl
        _ = putAll other (Relational.put key rows row) rest := later
        _ = putAll other (Relational.put other rows row) rest := by rw [step]
        _ = putAll other rows (row :: rest) := rfl

theorem UniqueKey.put {rows : List Row} (unique : UniqueKey key rows) (row : Row) :
    UniqueKey key (put key rows row) := by
  apply UniqueKey.insert unique.deleteWhere
  intro other member same
  simp [mem_deleteWhere, same] at member

theorem UniqueKey.putAll {rows : List Row} (unique : UniqueKey key rows) (written : List Row) :
    UniqueKey key (putAll key rows written) := by
  induction written generalizing rows with
  | nil => exact unique
  | cons row rest ih => exact ih (unique.put key row)

end Codenaut.Relational
