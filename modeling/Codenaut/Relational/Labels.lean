import Mathlib.Data.List.Nodup
import Mathlib.Logic.Function.Basic

/-!
# Labels assigned one after another

A label belongs to one key at a time: assigning a label that another key holds
fails. A list of assignments with distinct labels goes through exactly if every
key that holds one of them is assigned before the label is.
-/

set_option autoImplicit false

namespace Codenaut.Relational

variable {Key Label : Type} [DecidableEq Key]

open Classical in
/-- Give a label to a key, unless another key holds it. -/
noncomputable def assign (labels : Key → Option Label) (entry : Key × Label) :
    Option (Key → Option Label) :=
  if ∃ other, other ≠ entry.1 ∧ labels other = some entry.2 then none
  else some (Function.update labels entry.1 (some entry.2))

/-- Every key that holds a label of the list is assigned before the label is. -/
def FreedInTurn (labels : Key → Option Label) (entries : List (Key × Label)) : Prop :=
  ∀ position entry, entries[position]? = some entry → ∀ other, other ≠ entry.1 →
    labels other = some entry.2 → other ∈ (entries.take position).map Prod.fst

theorem assign_eq_none {labels : Key → Option Label} {entry : Key × Label} :
    assign labels entry = none ↔ ∃ other, other ≠ entry.1 ∧ labels other = some entry.2 := by
  unfold assign
  split <;> simp_all

theorem assign_eq_some {labels assigned : Key → Option Label} {entry : Key × Label} :
    assign labels entry = some assigned ↔
      (∀ other, other ≠ entry.1 → labels other ≠ some entry.2) ∧
        assigned = Function.update labels entry.1 (some entry.2) := by
  unfold assign
  split
  case isTrue held =>
    obtain ⟨other, different, holds⟩ := held
    simp only [reduceCtorEq, false_iff, not_and]
    intro free
    exact absurd holds (free other different)
  case isFalse free =>
    simp only [not_exists, not_and] at free
    constructor
    · intro assignment
      exact ⟨free, (Option.some.inj assignment).symm⟩
    · rintro ⟨-, rfl⟩
      rfl

/-- The first assignment frees the label that its key held, and takes one that
no later assignment asks for. -/
theorem freedInTurn_cons {labels : Key → Option Label} {entry : Key × Label}
    {rest : List (Key × Label)} (fresh : entry.2 ∉ rest.map Prod.snd) :
    FreedInTurn labels (entry :: rest) ↔
      (∀ other, other ≠ entry.1 → labels other ≠ some entry.2) ∧
        FreedInTurn (Function.update labels entry.1 (some entry.2)) rest := by
  constructor
  · intro released
    refine ⟨fun other different holds => ?_, ?_⟩
    · simpa using released 0 entry rfl other different holds
    · intro position later found other different holds
      by_cases first : other = entry.1
      · subst first
        rw [Function.update_self, Option.some.injEq] at holds
        exact absurd (List.mem_map.mpr ⟨later, List.mem_of_getElem? found, holds.symm⟩) fresh
      · rw [Function.update_of_ne first] at holds
        have before := released (position + 1) later found other different holds
        simpa [first] using before
  · rintro ⟨free, released⟩ position later found other different holds
    cases position with
    | zero =>
        cases found
        exact absurd holds (free other different)
    | succ position =>
        by_cases first : other = entry.1
        · simp [first]
        · have kept : Function.update labels entry.1 (some entry.2) other = some later.2 := by
            rw [Function.update_of_ne first, holds]
          have before := released position later found other different kept
          simp only [List.take_succ_cons, List.map_cons, List.mem_cons]
          exact .inr before

theorem assignAll_isSome {labels : Key → Option Label} {entries : List (Key × Label)}
    (distinct : (entries.map Prod.snd).Nodup) :
    (entries.foldlM assign labels).isSome = true ↔ FreedInTurn labels entries := by
  induction entries generalizing labels with
  | nil => simp [FreedInTurn]
  | cons entry rest ih =>
      obtain ⟨fresh, distinct⟩ := List.nodup_cons.mp distinct
      rw [freedInTurn_cons fresh, List.foldlM_cons]
      cases first : assign labels entry with
      | none =>
          obtain ⟨other, different, holds⟩ := assign_eq_none.mp first
          simp only [Option.bind_eq_bind, Option.bind_none, Option.isSome_none, Bool.false_eq_true,
            false_iff, not_and]
          intro free
          exact absurd holds (free other different)
      | some assigned =>
          obtain ⟨free, rfl⟩ := assign_eq_some.mp first
          have later := @ih (Function.update labels entry.1 (some entry.2)) distinct
          rw [Option.bind_eq_bind, Option.bind_some, later]
          exact ⟨fun released => ⟨free, released⟩, fun released => released.2⟩

end Codenaut.Relational
