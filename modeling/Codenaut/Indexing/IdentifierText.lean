import Codenaut.Indexing.CallGraph
import Codenaut.Text.Separated

/-!
# Texts of identifiers

The text of a 128-bit identifier has thirty-six characters, digits and dashes
only. It determines the identifier, and orders identifiers as numbers.
-/

set_option autoImplicit false

namespace Codenaut.Indexing

open Codenaut.Db Codenaut.Text

/-- The number is a UUID. -/
def IsUuid (number : Nat) : Prop :=
  number < 16 ^ 32

@[simp] theorem hexDigits_length (width value : Nat) : (hexDigits width value).length = width := by
  induction width generalizing value with
  | zero => rfl
  | succ width ih => simp [hexDigits, ih]

theorem hexDigit_lt_iff {left right : Nat} (leftDigit : left < 16) (rightDigit : right < 16) :
    hexDigit left < hexDigit right ↔ left < right := by
  have table : ∀ left right : Fin 16,
      hexDigit left.val < hexDigit right.val ↔ left.val < right.val := by decide
  exact table ⟨left, leftDigit⟩ ⟨right, rightDigit⟩

theorem hexDigit_inj {left right : Nat} (leftDigit : left < 16) (rightDigit : right < 16) :
    hexDigit left = hexDigit right ↔ left = right := by
  have table : ∀ left right : Fin 16,
      hexDigit left.val = hexDigit right.val ↔ left.val = right.val := by decide
  exact table ⟨left, leftDigit⟩ ⟨right, rightDigit⟩

theorem mem_hexDigits {char : Char} {width value : Nat} (member : char ∈ hexDigits width value) :
    char ∈ "0123456789abcdef".toList := by
  have table : ∀ digit : Fin 16, hexDigit digit.val ∈ "0123456789abcdef".toList := by decide
  induction width generalizing value with
  | zero => cases member
  | succ width ih =>
      rw [hexDigits, List.mem_append, List.mem_singleton] at member
      cases member with
      | inl earlier => exact ih earlier
      | inr last => exact last ▸ table ⟨value % 16, Nat.mod_lt _ (by decide)⟩

theorem hexDigits_inj {width left right : Nat} (leftFits : left < 16 ^ width)
    (rightFits : right < 16 ^ width) :
    hexDigits width left = hexDigits width right ↔ left = right := by
  induction width generalizing left right with
  | zero => simp only [hexDigits, true_iff]; omega
  | succ width ih =>
      have leftHead : left / 16 < 16 ^ width := by omega
      have rightHead : right / 16 < 16 ^ width := by omega
      have heads := ih leftHead rightHead
      have lasts := hexDigit_inj (Nat.mod_lt left (by decide)) (Nat.mod_lt right (by decide))
      constructor
      · intro same
        rw [hexDigits, hexDigits] at same
        obtain ⟨equalHeads, equalLasts⟩ := List.append_inj same (by simp)
        have quotients := heads.mp equalHeads
        have remainders := lasts.mp (List.cons.inj equalLasts).1
        omega
      · exact fun same => same ▸ rfl

theorem hexDigits_lt {width left right : Nat} (leftFits : left < 16 ^ width)
    (rightFits : right < 16 ^ width) :
    hexDigits width left < hexDigits width right ↔ left < right := by
  induction width generalizing left right with
  | zero =>
      have equal : left = right := by omega
      simp [hexDigits, equal]
  | succ width ih =>
      have leftHead : left / 16 < 16 ^ width := by omega
      have rightHead : right / 16 < 16 ^ width := by omega
      have heads := ih leftHead rightHead
      have same := hexDigits_inj leftHead rightHead
      have lasts := hexDigit_lt_iff (Nat.mod_lt left (by decide)) (Nat.mod_lt right (by decide))
      rw [hexDigits, hexDigits, append_lt_append_iff (by simp), heads, same,
        List.cons_lt_cons_iff, lasts]
      simp only [List.lt_irrefl, and_false, or_false]
      omega

/-! ## Dashes -/

/-- Thirty-two digits in groups of eight, four, four, four and twelve. -/
def dashed (digits : List Char) : List Char :=
  digits.take 8 ++ '-' :: ((digits.drop 8).take 4 ++ '-' :: ((digits.drop 12).take 4 ++
    '-' :: ((digits.drop 16).take 4 ++ '-' :: digits.drop 20)))

theorem toList_uuidText (uuid : Nat) : (uuidText uuid).toList = dashed (hexDigits 32 uuid) := by
  simp [uuidText, dashed]

theorem lt_iff_take_drop (left right : List Char) (lengths : left.length = right.length)
    (count : Nat) :
    left < right ↔ left.take count < right.take count ∨
      left.take count = right.take count ∧ left.drop count < right.drop count := by
  have heads : (left.take count).length = (right.take count).length := by simp [lengths]
  rw [← append_lt_append_iff heads, List.take_append_drop, List.take_append_drop]

theorem dash_lt_iff {left right leftRest rightRest : List Char}
    (lengths : left.length = right.length) :
    left ++ '-' :: leftRest < right ++ '-' :: rightRest ↔
      left < right ∨ left = right ∧ leftRest < rightRest := by
  rw [append_lt_append_iff lengths, List.cons_lt_cons_iff]
  simp

/-- The dashes stand at the same places, so they do not change the order. -/
theorem dashed_lt {left right : List Char} (lengths : left.length = right.length) :
    dashed left < dashed right ↔ left < right := by
  rw [dashed, dashed, dash_lt_iff (by simp [lengths]), dash_lt_iff (by simp [lengths]),
    dash_lt_iff (by simp [lengths]), dash_lt_iff (by simp [lengths])]
  rw [lt_iff_take_drop left right lengths 8,
    lt_iff_take_drop (left.drop 8) (right.drop 8) (by simp [lengths]) 4,
    List.drop_drop, List.drop_drop,
    lt_iff_take_drop (left.drop 12) (right.drop 12) (by simp [lengths]) 4,
    List.drop_drop, List.drop_drop,
    lt_iff_take_drop (left.drop 16) (right.drop 16) (by simp [lengths]) 4,
    List.drop_drop, List.drop_drop]

theorem uuidText_lt {left right : Nat} (leftUuid : IsUuid left) (rightUuid : IsUuid right) :
    uuidText left < uuidText right ↔ left < right := by
  rw [String.lt_iff, toList_uuidText, toList_uuidText, dashed_lt (by simp),
    hexDigits_lt leftUuid rightUuid]

theorem uuidText_inj {left right : Nat} (leftUuid : IsUuid left) (rightUuid : IsUuid right) :
    uuidText left = uuidText right ↔ left = right := by
  constructor
  · intro same
    have notBelow : ¬ left < right := by
      rw [← uuidText_lt leftUuid rightUuid, same]
      exact String.lt_irrefl _
    have notAbove : ¬ right < left := by
      rw [← uuidText_lt rightUuid leftUuid, same]
      exact String.lt_irrefl _
    omega
  · exact fun same => same ▸ rfl

theorem mem_dashed {char : Char} {digits : List Char} (member : char ∈ dashed digits) :
    char = '-' ∨ char ∈ digits := by
  simp only [dashed, List.mem_append, List.mem_cons] at member
  grind [List.mem_of_mem_take, List.mem_of_mem_drop]

theorem not_mem_uuidText {char : Char} (other : char ∉ "-0123456789abcdef".toList) (uuid : Nat) :
    char ∉ (uuidText uuid).toList := by
  intro member
  apply other
  rw [toList_uuidText] at member
  have split : "-0123456789abcdef" = "-" ++ "0123456789abcdef" := by decide
  rw [split, String.toList_append]
  cases mem_dashed member with
  | inl dash => exact List.mem_append_left _ (List.mem_singleton.mpr dash)
  | inr digit => exact List.mem_append_right _ (mem_hexDigits digit)

end Codenaut.Indexing
