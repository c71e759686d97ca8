import Mathlib.Data.List.Basic

/-!
# Greedy choice

Items are looked at once, in order, and each is taken unless what was taken
before it refuses it.
-/

set_option autoImplicit false

namespace Codenaut.Spans

section Greedy

variable {α : Type} {refused : List α → α → Bool} {chosen items before after : List α} {item : α}

/-- The items taken on top of `chosen`. -/
def greedy (refused : List α → α → Bool) : List α → List α → List α
  | chosen, [] => chosen
  | chosen, item :: rest =>
      greedy refused (if refused chosen item then chosen else chosen ++ [item]) rest

theorem greedy_append (chosen before after : List α) :
    greedy refused chosen (before ++ after) =
      greedy refused (greedy refused chosen before) after := by
  induction before generalizing chosen with
  | nil => rfl
  | cons item rest ih => exact ih _

/-- What was taken stays, and what is added keeps its order. -/
theorem greedy_added (chosen items : List α) :
    ∃ added, greedy refused chosen items = chosen ++ added ∧ added.Sublist items := by
  induction items generalizing chosen with
  | nil => exact ⟨[], (List.append_nil chosen).symm, .slnil⟩
  | cons item rest ih =>
      unfold greedy
      split
      · obtain ⟨added, same, sublist⟩ := ih chosen
        exact ⟨added, same, sublist.cons item⟩
      · obtain ⟨added, same, sublist⟩ := ih (chosen ++ [item])
        refine ⟨item :: added, ?_, sublist.cons_cons item⟩
        rw [same, List.append_assoc]
        rfl

theorem greedy_sublist : (greedy refused [] items).Sublist items := by
  obtain ⟨added, same, sublist⟩ := @greedy_added α refused [] items
  rw [same]
  exact sublist

/-- What every taken item keeps, the choice keeps. -/
theorem greedy_keeps {kept : List α → Prop} (start : kept chosen)
    (step : ∀ chosen item, kept chosen → refused chosen item = false → kept (chosen ++ [item])) :
    kept (greedy refused chosen items) := by
  induction items generalizing chosen with
  | nil => exact start
  | cons item rest ih =>
      unfold greedy
      split
      · exact ih start
      case isFalse taken => exact ih (step chosen item start (eq_false_of_ne_true taken))

/-- Where everything is refused, nothing is added. -/
theorem greedy_full (full : ∀ item, refused chosen item = true) :
    greedy refused chosen items = chosen := by
  induction items with
  | nil => rfl
  | cons item rest ih =>
      unfold greedy
      rw [if_pos (full item), ih]

/-- How an item fares: it comes right after what was taken before it, or that
refuses it. -/
inductive Decided (refused : List α → α → Bool) (before : List α) (item : α) (after : List α)
    (chosen : List α) : Prop where
  | taken {above below : List α} (parts : chosen = above ++ item :: below)
      (higher : above.Sublist before) (lower : below.Sublist after)
      (free : refused above item = false)
  | refused {above below : List α} (parts : chosen = above ++ below)
      (higher : above.Sublist before) (lower : below.Sublist after)
      (taken : refused above item = true)

theorem greedy_decided (items before after : List α) (item : α)
    (listed : items = before ++ item :: after) :
    Decided refused before item after (greedy refused [] items) := by
  subst listed
  rw [greedy_append]
  have higher := @greedy_sublist α refused before
  generalize greedy refused [] before = above at higher
  unfold greedy
  split
  case isTrue no =>
    obtain ⟨below, parts, lower⟩ := @greedy_added α refused above after
    exact .refused parts higher lower no
  case isFalse yes =>
    obtain ⟨below, parts, lower⟩ := @greedy_added α refused (above ++ [item]) after
    rw [List.append_assoc] at parts
    exact .taken parts higher lower (eq_false_of_ne_true yes)

end Greedy

end Codenaut.Spans
