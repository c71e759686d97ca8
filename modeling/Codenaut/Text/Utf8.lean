import Codenaut.Text.Offsets

/-!
# Cutting UTF-8

A text is encoded, cut after a number of bytes and decoded again, where bytes that
encode no character are ignored. What is left is the longest front of the text
that fits into the bytes.
-/

set_option autoImplicit false

namespace Codenaut.Text

/-- `text.encode("utf-8")`. -/
def utf8Encode (text : List Char) : List UInt8 :=
  text.flatMap String.utf8EncodeChar

/-- The character that the bytes begin with. -/
def decodeChar (bytes : List UInt8) : Option Char :=
  bytes.toByteArray.utf8DecodeChar? 0

/-- `bytes.decode("utf-8", errors="ignore")`: a byte at which no character begins
is passed over. -/
def decodeIgnoring (bytes : List UInt8) : List Char :=
  match bytes with
  | [] => []
  | byte :: rest =>
      match decodeChar (byte :: rest) with
      | some char => char :: decodeIgnoring (rest.drop (char.utf8Size - 1))
      | none => decodeIgnoring rest
termination_by bytes.length
decreasing_by
  all_goals simp only [List.length_drop, List.length_cons]; omega

/-- The longest front of a text within a number of bytes. -/
structure LongestFront (bytes : Nat) (text front : List Char) : Prop where
  isPrefix : front <+: text
  within : byteLength front ≤ bytes
  longest : ∀ other, other <+: text → byteLength other ≤ bytes → other <+: front

/-- A text that fits is left whole. -/
theorem LongestFront.whole {bytes : Nat} {text : List Char} (fits : byteLength text ≤ bytes) :
    LongestFront bytes text text :=
  ⟨List.prefix_refl text, fits, fun _ initial _ => initial⟩

section Encoding

variable {char : Char} {rest : List UInt8} {count : Nat}

theorem utf8Encode_cons (char : Char) (text : List Char) :
    utf8Encode (char :: text) = String.utf8EncodeChar char ++ utf8Encode text := rfl

theorem length_utf8Encode (text : List Char) : (utf8Encode text).length = byteLength text := by
  induction text with
  | nil => rfl
  | cons char text ih =>
      rw [utf8Encode_cons, List.length_append, String.length_utf8EncodeChar, ih, byteLength_cons]

theorem decodeChar_encoded (char : Char) (rest : List UInt8) :
    decodeChar (String.utf8EncodeChar char ++ rest) = some char := by
  rw [decodeChar, List.toByteArray_append]
  exact ByteArray.utf8DecodeChar?_utf8EncodeChar_append

/-- Bytes that begin with a character begin with its encoding. -/
theorem encoded_of_decodeChar {bytes : List UInt8} (decoded : decodeChar bytes = some char) :
    ∃ rest, bytes = String.utf8EncodeChar char ++ rest := by
  obtain ⟨rest, whole⟩ := ByteArray.exists_of_utf8DecodeChar?_eq_some decoded
  refine ⟨rest.data.toList, ?_⟩
  have lists := congrArg (fun array => array.data.toList) whole
  simpa using lists

theorem decodeIgnoring_encoded (char : Char) (rest : List UInt8) :
    decodeIgnoring (String.utf8EncodeChar char ++ rest) = char :: decodeIgnoring rest := by
  have decoded := decodeChar_encoded char rest
  have length := String.length_utf8EncodeChar char
  have positive := char.utf8Size_pos
  cases bytes : String.utf8EncodeChar char with
  | nil =>
      rw [bytes, List.length_nil] at length
      omega
  | cons byte others =>
      rw [bytes, List.cons_append] at decoded
      rw [bytes, List.length_cons] at length
      rw [List.cons_append, decodeIgnoring]
      simp only [decoded]
      rw [← length, Nat.add_sub_cancel, List.drop_left]

/-- Within the encoding of a character no other one begins, nor does a part of it
end as a character. -/
theorem decodeChar_part (short : count < char.utf8Size) (index : Nat) :
    decodeChar (((String.utf8EncodeChar char).take count).drop index) = none := by
  cases decoded : decodeChar (((String.utf8EncodeChar char).take count).drop index) with
  | none => rfl
  | some other =>
      obtain ⟨rest, bytes⟩ := encoded_of_decodeChar decoded
      cases index with
      | zero =>
          have whole : String.utf8EncodeChar char = String.utf8EncodeChar other ++
              (rest ++ (String.utf8EncodeChar char).drop count) := by
            rw [← List.append_assoc, ← bytes, List.drop_zero, List.take_append_drop]
          have same := decodeChar_encoded other (rest ++ (String.utf8EncodeChar char).drop count)
          have own := decodeChar_encoded char []
          rw [← whole] at same
          rw [List.append_nil, same] at own
          obtain rfl := Option.some.inj own
          have lengths := congrArg List.length bytes
          rw [List.drop_zero, List.length_take, List.length_append,
            String.length_utf8EncodeChar] at lengths
          omega
      | succ index =>
          have first : 0 < (String.utf8EncodeChar other).length := by
            rw [String.length_utf8EncodeChar]
            exact other.utf8Size_pos
          have heads := congrArg (fun list => list[0]?) bytes
          simp only [List.getElem?_drop, List.getElem?_append_left first,
            List.getElem?_eq_getElem first, Nat.add_zero] at heads
          obtain ⟨inside, same⟩ := List.getElem?_eq_some_iff.mp heads
          rw [List.getElem_take] at same
          have starts := (@UInt8.isUTF8FirstByte_getElem_utf8EncodeChar other 0 first).mpr rfl
          rw [← same] at starts
          exact absurd (UInt8.isUTF8FirstByte_getElem_utf8EncodeChar.mp starts) (Nat.succ_ne_zero _)

theorem decodeIgnoring_part (short : count < char.utf8Size) (index : Nat) :
    decodeIgnoring (((String.utf8EncodeChar char).take count).drop index) = [] := by
  generalize left : count - index = remaining
  induction remaining generalizing index with
  | zero =>
      have empty : ((String.utf8EncodeChar char).take count).drop index = [] := by
        rw [List.drop_eq_nil_iff, List.length_take]
        omega
      rw [empty, decodeIgnoring]
  | succ remaining ih =>
      cases bytes : ((String.utf8EncodeChar char).take count).drop index with
      | nil => rw [decodeIgnoring]
      | cons byte rest =>
          have broken := decodeChar_part short index
          have later := ih (index + 1) (by omega)
          rw [← List.drop_drop, bytes, List.drop_one, List.tail_cons] at later
          rw [bytes] at broken
          rw [decodeIgnoring]
          simp only [broken, later]

/-- Encoded, cut and decoded, a text is its longest front within the bytes. -/
theorem decodeIgnoring_take (bytes : Nat) (text : List Char) :
    LongestFront bytes text (decodeIgnoring ((utf8Encode text).take bytes)) := by
  induction text generalizing bytes with
  | nil =>
      rw [utf8Encode, List.flatMap_nil, List.take_nil, decodeIgnoring]
      exact .whole (Nat.zero_le _)
  | cons char text ih =>
      have size := String.length_utf8EncodeChar char
      rw [utf8Encode_cons]
      by_cases fits : char.utf8Size ≤ bytes
      · obtain ⟨isPrefix, within, longest⟩ := ih (bytes - char.utf8Size)
        rw [List.take_append, List.take_of_length_le (size ▸ fits), size, decodeIgnoring_encoded]
        refine ⟨(List.prefix_cons_inj char).mpr isPrefix, ?_, fun other initial short => ?_⟩
        · rw [byteLength_cons]
          omega
        · cases other with
          | nil => exact List.nil_prefix
          | cons first other =>
              obtain ⟨rfl, tail⟩ := List.cons_prefix_cons.mp initial
              rw [byteLength_cons] at short
              exact (List.prefix_cons_inj first).mpr (longest other tail (by omega))
      · have cut : (String.utf8EncodeChar char ++ utf8Encode text).take bytes =
            ((String.utf8EncodeChar char).take bytes).drop 0 := by
          rw [List.take_append_of_le_length (by omega), List.drop_zero]
        rw [cut, decodeIgnoring_part (Nat.lt_of_not_le fits)]
        refine ⟨List.nil_prefix, Nat.zero_le _, fun other initial short => ?_⟩
        cases other with
        | nil => exact List.nil_prefix
        | cons first other =>
            obtain ⟨rfl, -⟩ := List.cons_prefix_cons.mp initial
            rw [byteLength_cons] at short
            omega

end Encoding

end Codenaut.Text
