import Codenaut.Text.Urls

/-!
# ASCII characters

A fact about ASCII characters is a fact about the first hundred and twenty-eight,
and a character that lowers to another one is an ASCII capital or the Kelvin sign.
-/

set_option autoImplicit false

namespace Codenaut.Text

/-- A statement about the characters of a text is evaluated along the text. -/
theorem forall_mem_of_all {text : List Char} {P : Char → Prop} [DecidablePred P]
    (all : text.all (P ·) = true) : ∀ char ∈ text, P char := by
  simpa only [List.all_eq_true, decide_eq_true_eq] using all

/-- A statement about an ASCII character is evaluated along the table of all of them. -/
@[elab_as_elim]
theorem of_ascii_table {P : Char → Prop} {char : Char} (ascii : char.toNat < 128)
    (table : ∀ code < 128, P (Char.ofNat code)) : P char := by
  have here := table char.toNat ascii
  rwa [Char.ofNat_toNat] at here

theorem ascii_of_isAlphanum {char : Char} (alphanum : char.isAlphanum = true) :
    char.toNat < 128 := by
  unfold Char.isAlphanum Char.isAlpha Char.isUpper Char.isLower Char.isDigit at alphanum
  simp only [Bool.or_eq_true, Bool.and_eq_true, decide_eq_true_eq, UInt32.le_iff_toNat_le,
    ge_iff_le] at alphanum
  have upper : 'Z'.val.toNat = 90 := rfl
  have lower : 'z'.val.toNat = 122 := rfl
  have digit : '9'.val.toNat = 57 := rfl
  have code : char.toNat = char.val.toNat := rfl
  omega

/-- No character outside ASCII has a lower case among the ASCII letters of `toLower`. -/
theorem toLower_of_not_ascii {char : Char} (outside : 128 ≤ char.toNat) :
    char.toLower = char := by
  unfold Char.toLower
  split
  · next capital =>
      simp only [UInt32.le_iff_toNat_le, ge_iff_le] at capital
      have upper : 'Z'.val.toNat = 90 := rfl
      have code : char.toNat = char.val.toNat := rfl
      omega
  · rfl

theorem ascii_of_toLower {char : Char} (ascii : char.toLower.toNat < 128) :
    char.toNat < 128 := by
  by_contra outside
  rw [toLower_of_not_ascii (Nat.le_of_not_lt outside)] at ascii
  exact outside ascii

/-- A text in lower case without the letter k has only ASCII characters before. -/
theorem ascii_of_lowerChars {text lowered : List Char} (same : lowerChars text = lowered)
    (ascii : ∀ char ∈ lowered, char.toNat < 128) (noK : 'k' ∉ lowered) {char : Char}
    (member : char ∈ text) : char.toNat < 128 ∧ char.toLower ∈ lowered := by
  have mapped : (if char = '\u212a' then 'k' else char.toLower) ∈ lowered := by
    rw [← same]
    exact List.mem_map_of_mem member
  split at mapped
  · exact (noK mapped).elim
  · exact ⟨ascii_of_toLower (ascii _ mapped), mapped⟩

end Codenaut.Text
