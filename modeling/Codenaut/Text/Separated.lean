import Mathlib.Data.List.Basic
import Mathlib.Data.String.Basic

/-!
# Texts joined by a separator

A piece free of the separator can be read back from either end of the joined
text, and all pieces together when each is free of it. Texts whose leading
pieces have one length compare piece by piece.
-/

set_option autoImplicit false

namespace Codenaut.Text

section Lists

variable {α : Type} {separator : α}

/-- The first piece ends at the first separator. -/
theorem cut_first {left right : List α} {leftRest rightRest : List α}
    (leftFree : separator ∉ left) (rightFree : separator ∉ right)
    (same : left ++ separator :: leftRest = right ++ separator :: rightRest) :
    left = right ∧ leftRest = rightRest := by
  induction left generalizing right with
  | nil =>
      cases right with
      | nil => exact ⟨rfl, (List.cons.inj same).2⟩
      | cons head tail => exact (rightFree ((List.cons.inj same).1 ▸ .head _)).elim
  | cons head tail ih =>
      cases right with
      | nil => exact (leftFree ((List.cons.inj same).1 ▸ .head _)).elim
      | cons other rest =>
          obtain ⟨heads, tails⟩ := List.cons.inj same
          obtain ⟨equal, rests⟩ := ih (fun member => leftFree (.tail _ member))
            (fun member => rightFree (.tail _ member)) tails
          exact ⟨by rw [heads, equal], rests⟩

/-- The last piece starts at the last separator. -/
theorem cut_last {left right : List α} {leftFront rightFront : List α}
    (leftFree : separator ∉ left) (rightFree : separator ∉ right)
    (same : leftFront ++ separator :: left = rightFront ++ separator :: right) :
    leftFront = rightFront ∧ left = right := by
  have reversed := congrArg List.reverse same
  simp only [List.reverse_append, List.reverse_cons, List.append_assoc,
    List.singleton_append] at reversed
  obtain ⟨pieces, fronts⟩ := cut_first (by simpa using leftFree) (by simpa using rightFree) reversed
  exact ⟨List.reverse_injective fronts, List.reverse_injective pieces⟩

theorem not_mem_of_mem_splitOn [DecidableEq α] {pieces piece : List α}
    (member : piece ∈ pieces.splitOn separator) : separator ∉ piece := by
  induction pieces generalizing piece with
  | nil =>
      rw [List.splitOn_nil, List.mem_singleton] at member
      simp [member]
  | cons head tail ih =>
      rw [List.splitOn_cons_eq_if_modifyHead] at member
      split at member
      · rcases List.mem_cons.mp member with empty | later
        · simp [empty]
        · exact ih later
      case isFalse other =>
        cases rest : tail.splitOn separator with
        | nil => exact absurd rest (List.splitOn_ne_nil separator tail)
        | cons first later =>
            rw [rest, List.modifyHead_cons] at member
            rcases List.mem_cons.mp member with extended | after
            · have free : separator ∉ first := ih (rest ▸ List.mem_cons_self)
              rw [extended]
              simp only [List.mem_cons, not_or]
              exact ⟨fun same => other (by simp [same]), free⟩
            · exact ih (rest ▸ List.mem_cons_of_mem _ after)

theorem append_lt_append_iff [LT α] {left right leftRest rightRest : List α}
    (lengths : left.length = right.length) :
    left ++ leftRest < right ++ rightRest ↔ left < right ∨ left = right ∧ leftRest < rightRest := by
  induction left generalizing right with
  | nil =>
      cases right with
      | nil => simp
      | cons head tail => cases lengths
  | cons head tail ih =>
      cases right with
      | nil => cases lengths
      | cons other rest =>
          have tails := @ih rest (Nat.succ.inj lengths)
          simp only [List.cons_append, List.cons_lt_cons_iff, tails, List.cons.injEq]
          tauto

end Lists

/-! ## Strings -/

theorem intercalate_injective {separator : Char} {left right : List String}
    (leftFree : ∀ piece ∈ left, separator ∉ piece.toList)
    (rightFree : ∀ piece ∈ right, separator ∉ piece.toList)
    (leftSome : left ≠ []) (rightSome : right ≠ [])
    (same : String.intercalate (String.singleton separator) left =
      String.intercalate (String.singleton separator) right) : left = right := by
  have lists := congrArg String.toList same
  rw [String.toList_intercalate, String.toList_intercalate, String.toList_singleton] at lists
  have split := congrArg (List.splitOn separator) lists
  rw [List.splitOn_intercalate separator (by simpa using leftFree) (by simpa using leftSome),
    List.splitOn_intercalate separator (by simpa using rightFree) (by simpa using rightSome)] at split
  exact List.map_injective_iff.mpr (fun _ _ equal => String.toList_inj.mp equal) split

theorem toString_injective {left right : Nat} (same : toString left = toString right) :
    left = right := by
  have digits : Nat.toDigits 10 left = Nat.toDigits 10 right := by
    have lists := congrArg String.toList (show Nat.repr left = Nat.repr right from same)
    simpa [Nat.toList_repr] using lists
  have values := congrArg (fun chars => Nat.ofDigitChars 10 chars 0) digits
  simpa [Nat.ofDigitChars_toDigits] using values

theorem not_mem_toString {char : Char} (other : char.isDigit = false) (number : Nat) :
    char ∉ (toString number).toList := by
  intro member
  have digits : char ∈ Nat.toDigits 10 number := by
    simpa [Nat.toList_repr] using (show char ∈ (Nat.repr number).toList from member)
  rw [Nat.isDigit_of_mem_toDigits (by decide) (by decide) digits] at other
  cases other

end Codenaut.Text
