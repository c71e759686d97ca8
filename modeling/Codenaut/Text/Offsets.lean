import Mathlib.Algebra.BigOperators.Group.List.Basic
import Mathlib.Algebra.GroupWithZero.Nat
import Mathlib.Data.List.Infix
import Mathlib.Data.Prod.Lex

/-!
# Byte offsets

Offsets into a text count bytes of UTF-8 and lie between characters. Rows count
line feeds, and columns count the bytes since the last one.
-/

set_option autoImplicit false

namespace Codenaut.Text

/-- The length of a text in bytes. -/
def byteLength (text : List Char) : Nat :=
  (text.map Char.utf8Size).sum

@[simp] theorem byteLength_nil : byteLength [] = 0 :=
  rfl

@[simp] theorem byteLength_cons (char : Char) (text : List Char) :
    byteLength (char :: text) = char.utf8Size + byteLength text := by
  simp [byteLength]

@[simp] theorem byteLength_append (left right : List Char) :
    byteLength (left ++ right) = byteLength left + byteLength right := by
  simp [byteLength]

theorem byteLength_eq_zero {text : List Char} : byteLength text = 0 ↔ text = [] := by
  constructor
  · intro empty
    cases text with
    | nil => rfl
    | cons char text =>
        have positive := char.utf8Size_pos
        rw [byteLength_cons] at empty
        omega
  · rintro rfl
    rfl

theorem utf8ByteSize_ofList (text : List Char) :
    (String.ofList text).utf8ByteSize = byteLength text := by
  induction text with
  | nil => rfl
  | cons char text ih =>
      rw [byteLength_cons, ← ih, String.ofList_cons]
      simp

theorem length_le_byteLength (text : List Char) : text.length ≤ byteLength text := by
  induction text with
  | nil => rfl
  | cons char text ih =>
      have positive := char.utf8Size_pos
      rw [List.length_cons, byteLength_cons]
      omega

/-- A text has at most as many characters as bytes. -/
theorem length_le_utf8ByteSize (text : String) : text.length ≤ text.utf8ByteSize := by
  have bytes := utf8ByteSize_ofList text.toList
  rw [String.ofList_toList] at bytes
  rw [bytes, ← String.length_toList]
  exact length_le_byteLength text.toList

/-! ## Boundaries -/

/-- The text has a character boundary at the byte. -/
structure Boundary (text front back : List Char) (byte : Nat) : Prop where
  split : text = front ++ back
  length : byteLength front = byte

/-- Of two boundaries of a text the one at the lower byte comes first. -/
theorem Boundary.prefix_of_le {text front back later rest : List Char} {byte last : Nat}
    (first : Boundary text front back byte) (second : Boundary text later rest last)
    (le : byte ≤ last) : front <+: later := by
  have firstPrefix : front <+: text := ⟨back, first.split.symm⟩
  have secondPrefix : later <+: text := ⟨rest, second.split.symm⟩
  rcases List.prefix_or_prefix_of_prefix firstPrefix secondPrefix with inside | inside
  · exact inside
  · obtain ⟨middle, same⟩ := inside
    have lengths := congrArg byteLength same
    rw [byteLength_append, first.length, second.length] at lengths
    have none : middle = [] := byteLength_eq_zero.mp (by omega)
    rw [none, List.append_nil] at same
    exact ⟨[], by rw [List.append_nil, same]⟩

/-! ## Rows and columns -/

/-- The row and the column after a character. -/
def advance (position : Nat × Nat) (char : Char) : Nat × Nat :=
  if char = '\n' then (position.1 + 1, 0) else (position.1, position.2 + char.utf8Size)

/-- The position that many bytes into the text; `none` inside a character or
beyond the end. -/
def positionFrom (position : Nat × Nat) : List Char → Nat → Option (Nat × Nat)
  | _, 0 => some position
  | [], _ + 1 => none
  | char :: rest, byte + 1 =>
      if char.utf8Size ≤ byte + 1 then
        positionFrom (advance position char) rest (byte + 1 - char.utf8Size)
      else none

/-- The position of a byte of the text. -/
def positionAt (text : List Char) (byte : Nat) : Option (Nat × Nat) :=
  positionFrom (0, 0) text byte

theorem positionFrom_some {position last : Nat × Nat} {text : List Char} {byte : Nat}
    (found : positionFrom position text byte = some last) :
    ∃ front back, Boundary text front back byte ∧ front.foldl advance position = last := by
  induction text generalizing position byte with
  | nil =>
      cases byte with
      | zero => exact ⟨[], [], ⟨rfl, rfl⟩, Option.some.inj found⟩
      | succ byte => cases found
  | cons char rest ih =>
      cases byte with
      | zero => exact ⟨[], char :: rest, ⟨rfl, rfl⟩, Option.some.inj found⟩
      | succ byte =>
          rw [positionFrom] at found
          split at found
          case isTrue fits =>
            obtain ⟨front, back, boundary, same⟩ := ih found
            refine ⟨char :: front, back, ⟨?_, ?_⟩, same⟩
            · rw [boundary.split, List.cons_append]
            · rw [byteLength_cons, boundary.length]
              omega
          case isFalse => cases found

theorem advance_lt (position : Nat × Nat) (char : Char) :
    toLex position < toLex (advance position char) := by
  have positive := char.utf8Size_pos
  rw [Prod.Lex.toLex_lt_toLex]
  unfold advance
  split
  · exact .inl (Nat.lt_succ_self _)
  · exact .inr ⟨rfl, by dsimp only; omega⟩

theorem foldl_advance_le (position : Nat × Nat) (text : List Char) :
    toLex position ≤ toLex (text.foldl advance position) := by
  induction text generalizing position with
  | nil => exact le_refl _
  | cons char rest ih => exact (advance_lt position char).le.trans (ih _)

theorem foldl_advance_eq {position : Nat × Nat} {text : List Char}
    (same : text.foldl advance position = position) : text = [] := by
  cases text with
  | nil => rfl
  | cons char rest =>
      have later := (advance_lt position char).trans_le (foldl_advance_le _ rest)
      rw [List.foldl_cons] at same
      rw [same] at later
      exact absurd later (lt_irrefl _)

section Positions

variable {text : List Char} {first second : Nat} {position : Nat × Nat}

/-- Positions come in the order of their bytes. -/
theorem positionAt_le {last : Nat × Nat} (here : positionAt text first = some position)
    (there : positionAt text second = some last) (le : first ≤ second) :
    toLex position ≤ toLex last := by
  obtain ⟨front, back, boundary, rfl⟩ := positionFrom_some here
  obtain ⟨later, rest, ending, rfl⟩ := positionFrom_some there
  obtain ⟨middle, rfl⟩ := boundary.prefix_of_le ending le
  rw [List.foldl_append]
  exact foldl_advance_le _ middle

theorem positionAt_le_of_eq (here : positionAt text first = some position)
    (there : positionAt text second = some position) : second ≤ first := by
  by_contra less
  obtain ⟨front, back, boundary, reached⟩ := positionFrom_some here
  obtain ⟨later, rest, ending, same⟩ := positionFrom_some there
  obtain ⟨middle, rfl⟩ := boundary.prefix_of_le ending (by omega)
  rw [List.foldl_append, reached] at same
  have lengths := ending.length
  rw [foldl_advance_eq same, List.append_nil, boundary.length] at lengths
  omega

/-- A position determines its byte. -/
theorem positionAt_injective (here : positionAt text first = some position)
    (there : positionAt text second = some position) : first = second :=
  Nat.le_antisymm (positionAt_le_of_eq there here) (positionAt_le_of_eq here there)

end Positions

end Codenaut.Text
