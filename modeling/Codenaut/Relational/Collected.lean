import Mathlib.Data.List.Forall2

/-!
# Lists made item by item

What a step that may fail makes of a list: every result comes from an item, and
one item without a result leaves no list.
-/

set_option autoImplicit false

namespace Codenaut.Relational

variable {α β : Type} {step : α → Option β} {items : List α} {results : List β}

theorem mapM_eq_some_iff : items.mapM step = some results ↔
    List.Forall₂ (fun item result => step item = some result) items results := by
  induction items generalizing results with
  | nil => simp [List.mapM_nil, eq_comm]
  | cons item items ih =>
      simp only [List.mapM_cons, Option.bind_eq_bind, Option.bind_eq_some_iff, Option.pure_def,
        Option.some.injEq, List.forall₂_cons_left_iff]
      constructor
      · rintro ⟨first, made, others, rest, rfl⟩
        exact ⟨first, others, made, ih.mp rest, rfl⟩
      · rintro ⟨first, others, made, rest, rfl⟩
        exact ⟨first, made, others, ih.mpr rest, rfl⟩

theorem mapM_eq_none_iff : items.mapM step = none ↔ ∃ item ∈ items, step item = none := by
  induction items with
  | nil => simp [List.mapM_nil]
  | cons item items ih =>
      rw [List.exists_mem_cons_iff, ← ih, List.mapM_cons]
      cases step item <;> cases items.mapM step <;> simp

/-- Every item has its result, -/
theorem mapM_result (made : items.mapM step = some results) {item : α} (member : item ∈ items) :
    ∃ result ∈ results, step item = some result := by
  have each := mapM_eq_some_iff.mp made
  clear made
  induction each with
  | nil => cases member
  | cons came _ ih =>
      rcases List.mem_cons.mp member with rfl | later
      · exact ⟨_, .head _, came⟩
      · obtain ⟨result, listed, same⟩ := ih later
        exact ⟨result, .tail _ listed, same⟩

/-- and every result its item. -/
theorem mapM_item (made : items.mapM step = some results) {result : β}
    (member : result ∈ results) : ∃ item ∈ items, step item = some result := by
  have each := mapM_eq_some_iff.mp made
  clear made
  induction each with
  | nil => cases member
  | cons came _ ih =>
      rcases List.mem_cons.mp member with rfl | later
      · exact ⟨_, .head _, came⟩
      · obtain ⟨item, listed, same⟩ := ih later
        exact ⟨item, .tail _ listed, same⟩

theorem mapM_some_forall {Good : β → Prop}
    (good : ∀ item result, step item = some result → Good result)
    (made : items.mapM step = some results) : ∀ result ∈ results, Good result := by
  intro result member
  obtain ⟨item, -, came⟩ := mapM_item made member
  exact good item result came

/-- Lists made part by part are made over all parts. -/
theorem mapM_parts {γ : Type} (parts : γ → List α) (owners : List γ) :
    (owners.mapM fun owner => (parts owner).mapM step).map List.flatten =
      (owners.flatMap parts).mapM step := by
  induction owners with
  | nil => rfl
  | cons owner owners ih =>
      rw [List.flatMap_cons, List.mapM_append, ← ih, List.mapM_cons]
      cases (parts owner).mapM step with
      | none => rfl
      | some first =>
          cases owners.mapM fun owner => (parts owner).mapM step with
          | none => rfl
          | some others => rfl

end Codenaut.Relational
