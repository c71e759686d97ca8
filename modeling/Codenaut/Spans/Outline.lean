import Mathlib.Data.List.Nodup
import Mathlib.Data.List.Perm.Subperm
import Mathlib.Data.List.Range

/-!
# Outlines

Entries with levels, read in order. An entry stays in force until one of its
level or a higher one follows.
-/

set_option autoImplicit false

namespace Codenaut.Spans

section Outline

variable {α : Type} (level : α → Nat)

/-- The entries that no later entry has ended. -/
def inForce : List α → List α
  | [] => []
  | entry :: rest =>
      if rest.all (level entry < level ·) then entry :: inForce rest else inForce rest

/-- Each entry is deeper than the one before it. -/
def Rising (chain : List α) : Prop :=
  chain.Pairwise fun outer inner => level outer < level inner

variable {level} {chain : List α}

/-- The next entry ends those of its level and below. -/
theorem inForce_snoc (entries : List α) (next : α) : inForce level (entries ++ [next]) =
    (inForce level entries).filter (level · < level next) ++ [next] := by
  induction entries with
  | nil => simp [inForce]
  | cons entry rest ih =>
      rw [List.cons_append, inForce, inForce, ih, List.all_append]
      cases kept : rest.all (level entry < level ·) with
      | false => simp
      | true =>
          by_cases deeper : level entry < level next
          · simp [deeper]
          · simp [deeper]

theorem inForce_sublist (entries : List α) : (inForce level entries).Sublist entries := by
  induction entries with
  | nil => exact .slnil
  | cons entry rest ih =>
      rw [inForce]
      split
      · exact ih.cons_cons entry
      · exact ih.cons entry

theorem inForce_rising (entries : List α) : Rising level (inForce level entries) := by
  induction entries with
  | nil => exact .nil
  | cons entry rest ih =>
      rw [inForce]
      split
      case isTrue kept =>
        refine List.pairwise_cons.mpr ⟨fun inner member => ?_, ih⟩
        exact of_decide_eq_true (List.all_eq_true.mp kept inner ((inForce_sublist rest).mem member))
      · exact ih

/-- The shallow entries of a chain are its first ones. -/
theorem Rising.filter_lt (rising : Rising level chain) (bound : Nat) :
    chain.filter (level · < bound) = chain.take (chain.countP (level · < bound)) := by
  induction chain with
  | nil => rfl
  | cons first rest ih =>
      obtain ⟨after, later⟩ := List.pairwise_cons.mp rising
      by_cases shallow : level first < bound
      · rw [List.filter_cons_of_pos (by simpa using shallow),
          List.countP_cons_of_pos (by simpa using shallow), List.take_succ_cons, ih later]
      · have deep : ∀ inner ∈ rest, ¬(decide (level inner < bound) = true) := by
          intro inner member less
          have more := after inner member
          have less := of_decide_eq_true less
          omega
        rw [List.filter_cons_of_neg (by simpa using shallow),
          List.countP_cons_of_neg (by simpa using shallow), List.countP_eq_zero.mpr deep,
          List.filter_eq_nil_iff.mpr deep, List.take_zero]

/-- The levels below a bound, counted from one. -/
theorem Rising.shallow_levels (rising : Rising level chain) (bound : Nat)
    (positive : ∀ entry ∈ chain, 1 ≤ level entry) :
    ((chain.filter (level · < bound)).map level).Subperm (List.range' 1 (bound - 1)) := by
  refine List.subperm_of_subset ?_ fun found member => ?_
  · have sorted := rising.sublist (List.filter_sublist (p := (level · < bound)))
    exact (List.pairwise_map.mpr sorted).imp Nat.ne_of_lt
  · obtain ⟨entry, shallow, rfl⟩ := List.mem_map.mp member
    obtain ⟨inside, less⟩ := List.mem_filter.mp shallow
    have first := positive entry inside
    have last := of_decide_eq_true less
    rw [List.mem_range'_1]
    omega

theorem Rising.count_le (rising : Rising level chain) (bound : Nat)
    (positive : ∀ entry ∈ chain, 1 ≤ level entry) :
    chain.countP (level · < bound) ≤ bound - 1 := by
  have counted := (rising.shallow_levels bound positive).length_le
  rwa [List.length_map, List.length_range', ← List.countP_eq_length_filter] at counted

/-- As many as there can be are one of each level. -/
theorem Rising.count_eq_iff (rising : Rising level chain) (bound : Nat)
    (positive : ∀ entry ∈ chain, 1 ≤ level entry) :
    chain.countP (level · < bound) = bound - 1 ↔
      ∀ number, 1 ≤ number → number < bound → ∃ entry ∈ chain, level entry = number := by
  have inside := rising.shallow_levels bound positive
  rw [List.countP_eq_length_filter]
  constructor
  · intro full number first last
    have filled := inside.perm_of_length_le (by rw [List.length_map, List.length_range', full])
    have listed : number ∈ List.range' 1 (bound - 1) := List.mem_range'_1.mpr (by omega)
    obtain ⟨entry, shallow, same⟩ := List.mem_map.mp (filled.mem_iff.mpr listed)
    exact ⟨entry, List.mem_of_mem_filter shallow, same⟩
  · intro filled
    have covered : (List.range' 1 (bound - 1)).Subperm
        ((chain.filter (level · < bound)).map level) := by
      refine List.subperm_of_subset List.nodup_range' fun number listed => ?_
      rw [List.mem_range'_1] at listed
      obtain ⟨entry, member, same⟩ := filled number listed.1 (by omega)
      have shallow : level entry < bound := by omega
      exact List.mem_map.mpr ⟨entry, List.mem_filter.mpr ⟨member, decide_eq_true shallow⟩, same⟩
    have most := inside.length_le
    have least := covered.length_le
    rw [List.length_map, List.length_range'] at most least
    exact Nat.le_antisymm most least

end Outline

end Codenaut.Spans
