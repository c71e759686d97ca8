import Mathlib.Data.List.TakeWhile
import Mathlib.Data.List.Basic

/-!
# Texts cut in two

The cut at the first or the last separator, and at the first element of a class.
-/

set_option autoImplicit false

namespace Codenaut.Text

variable {α : Type}

section Separators

variable [DecidableEq α]

/-- What stands before the first separator and, where there is one, after it. -/
def partition (separator : α) : List α → List α × Option (List α)
  | [] => ([], none)
  | head :: tail =>
      if head = separator then ([], some tail)
      else
        let (before, after) := partition separator tail
        (head :: before, after)

/-- The same at the last separator. -/
def rpartition (separator : α) (text : List α) : Option (List α) × List α :=
  match partition separator text.reverse with
  | (_, none) => (none, text)
  | (after, some before) => (some before.reverse, after.reverse)

theorem partition_cut {separator : α} {before : List α} (free : separator ∉ before)
    (after : List α) :
    partition separator (before ++ separator :: after) = (before, some after) := by
  induction before with
  | nil => simp [partition]
  | cons head before ih =>
      obtain ⟨differ, free⟩ := not_or.mp (free ∘ List.mem_cons.mpr)
      simp [partition, Ne.symm differ, ih free]

theorem partition_whole {separator : α} {text : List α} (free : separator ∉ text) :
    partition separator text = (text, none) := by
  induction text with
  | nil => rfl
  | cons head text ih =>
      obtain ⟨differ, free⟩ := not_or.mp (free ∘ List.mem_cons.mpr)
      simp [partition, Ne.symm differ, ih free]

/-- The two parts with the separator between them. -/
def rejoin (separator : α) (before : List α) : Option (List α) → List α
  | none => before
  | some after => before ++ separator :: after

theorem rejoin_partition (separator : α) (text : List α) :
    rejoin separator (partition separator text).1 (partition separator text).2 = text ∧
      separator ∉ (partition separator text).1 := by
  induction text with
  | nil => exact ⟨rfl, List.not_mem_nil⟩
  | cons head text ih =>
      by_cases same : head = separator
      · simp [partition, rejoin, same]
      · obtain ⟨joined, free⟩ := ih
        rw [partition, if_neg same]
        refine ⟨?_, List.not_mem_cons_of_ne_of_not_mem (Ne.symm same) free⟩
        cases cut : (partition separator text).2 with
        | none => simpa [rejoin, cut] using joined
        | some after => simpa [rejoin, cut] using joined

theorem rpartition_whole {separator : α} {text : List α} (free : separator ∉ text) :
    rpartition separator text = (none, text) := by
  rw [rpartition, partition_whole (by simpa using free)]

end Separators

/-- A text is cut where a class of elements ends. -/
theorem takeWhile_dropWhile_iff {front : α → Bool} {text before after : List α} :
    text.takeWhile front = before ∧ text.dropWhile front = after ↔
      text = before ++ after ∧ (∀ element ∈ before, front element = true) ∧
        ∀ element ∈ after.head?, front element = false := by
  constructor
  · rintro ⟨rfl, rfl⟩
    refine ⟨List.takeWhile_append_dropWhile.symm, fun _ member => List.mem_takeWhile_imp member,
      fun element head => ?_⟩
    have stopped := List.head?_dropWhile_not front text
    rw [Option.mem_def.mp head] at stopped
    simpa using stopped
  · rintro ⟨rfl, inside, stopped⟩
    rw [List.takeWhile_append_of_pos inside, List.dropWhile_append_of_pos inside]
    cases after with
    | nil => simp
    | cons head after => simp [stopped head rfl]

end Codenaut.Text
