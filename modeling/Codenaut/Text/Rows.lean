import Codenaut.Text.Offsets
import Codenaut.Text.Python

/-!
# Rows and lines

Rows end at line feeds only, the lines of `splitlines` at other separators as
well. A part of a text lies in the rows that its ends are in.
-/

set_option autoImplicit false

namespace Codenaut.Text

def rowsOf (text : List Char) : List (List Char) :=
  text.splitOn '\n'

/-- Rows with the line feeds between them. -/
def joinRows (rows : List (List Char)) : List Char :=
  ['\n'].intercalate rows

section Rows

variable {text front back row rest : List Char}

theorem rowsOf_ne_nil (text : List Char) : rowsOf text ≠ [] :=
  List.splitOn_ne_nil '\n' text

theorem rowsOf_cons (char : Char) (text : List Char) :
    rowsOf (char :: text) =
      if char = '\n' then [] :: rowsOf text else (rowsOf text).modifyHead (char :: ·) := by
  unfold rowsOf
  rw [List.splitOn_cons_eq_if_modifyHead]
  simp only [beq_iff_eq]

theorem rowsOf_row (free : '\n' ∉ row) (rest : List Char) :
    rowsOf (row ++ '\n' :: rest) = row :: rowsOf rest := by
  unfold rowsOf
  rw [List.splitOn_append_cons_self, List.splitOn_eq_singleton free]
  rfl

theorem rowsOf_single (free : '\n' ∉ row) : rowsOf row = [row] :=
  List.splitOn_eq_singleton free

theorem joinRows_cons {rows : List (List Char)} (some : rows ≠ []) (row : List Char) :
    joinRows (row :: rows) = row ++ '\n' :: joinRows rows := by
  cases rows with
  | nil => exact absurd rfl some
  | cons next rows => simp [joinRows, List.intercalate]

theorem joinRows_cons_head (char : Char) (first : List Char) (others : List (List Char)) :
    joinRows ((char :: first) :: others) = char :: joinRows (first :: others) := by
  cases others with
  | nil => simp [joinRows]
  | cons next others =>
      have more := List.cons_ne_nil next others
      rw [joinRows_cons more (char :: first), joinRows_cons more first]
      rfl

/-- Rows without text are empty. -/
theorem eq_nil_of_joinRows {rows : List (List Char)} (empty : joinRows rows = [])
    (member : row ∈ rows) : row = [] := by
  cases rows with
  | nil => cases member
  | cons first rows =>
      cases rows with
      | nil =>
          rw [List.mem_singleton.mp member]
          simpa [joinRows] using empty
      | cons second rows =>
          rw [joinRows_cons (List.cons_ne_nil second rows)] at empty
          simp at empty

theorem mem_of_mem_joinRows {rows : List (List Char)} {char : Char} (feedless : char ≠ '\n')
    (member : char ∈ joinRows rows) : ∃ row ∈ rows, char ∈ row := by
  induction rows with
  | nil => cases member
  | cons first rows ih =>
      cases rows with
      | nil => exact ⟨first, .head _, by simpa [joinRows] using member⟩
      | cons second rows =>
          rw [joinRows_cons (List.cons_ne_nil second rows), List.mem_append, List.mem_cons,
            or_iff_right feedless] at member
          rcases member with here | later
          · exact ⟨first, .head _, here⟩
          · obtain ⟨row, listed, inside⟩ := ih later
            exact ⟨row, .tail _ listed, inside⟩

/-! ## Parts of a text -/

theorem foldl_advance_row (text : List Char) (position : Nat × Nat) :
    (text.foldl advance position).1 = position.1 + text.count '\n' := by
  induction text generalizing position with
  | nil => rfl
  | cons char rest ih =>
      rw [List.foldl_cons, ih, List.count_cons]
      unfold advance
      by_cases feed : char = '\n'
      · rw [if_pos feed]
        simp only [feed, beq_self_eq_true, if_true]
        omega
      · rw [if_neg feed]
        simp [feed]

/-- The rows before that of a boundary, which starts with what precedes the
boundary in it. -/
theorem rows_front (front back : List Char) :
    ∃ passed opening, rowsOf (front ++ back) = passed ++ rowsOf (opening ++ back) ∧
      passed.length = front.count '\n' ∧ '\n' ∉ opening := by
  induction front with
  | nil => exact ⟨[], [], rfl, rfl, List.not_mem_nil⟩
  | cons char front ih =>
      obtain ⟨passed, opening, rows, length, free⟩ := ih
      rw [List.cons_append, rowsOf_cons, rows, List.count_cons]
      by_cases feed : char = '\n'
      · refine ⟨[] :: passed, opening, ?_, ?_, free⟩
        · rw [if_pos feed, List.cons_append]
        · simp [feed, length]
      · rw [if_neg feed]
        cases passed with
        | nil =>
            refine ⟨[], char :: opening, ?_, ?_, ?_⟩
            · rw [List.nil_append, List.nil_append, List.cons_append, rowsOf_cons, if_neg feed]
            · simpa [feed] using length
            · simpa [feed, eq_comm] using free
        | cons first passed =>
            refine ⟨(char :: first) :: passed, opening, rfl, ?_, free⟩
            simpa [feed] using length

/-- The rows up to that of a boundary start with what precedes the boundary. -/
theorem rows_back (front back : List Char) :
    ∃ closing, joinRows ((rowsOf (front ++ back)).take (front.count '\n' + 1)) =
      front ++ closing := by
  induction front with
  | nil =>
      cases rows : rowsOf back with
      | nil => exact absurd rows (rowsOf_ne_nil back)
      | cons first others => exact ⟨first, by simp [rows, joinRows]⟩
  | cons char front ih =>
      obtain ⟨closing, joined⟩ := ih
      refine ⟨closing, ?_⟩
      rw [List.cons_append, rowsOf_cons, List.count_cons]
      cases rows : rowsOf (front ++ back) with
      | nil => exact absurd rows (rowsOf_ne_nil _)
      | cons first others =>
          rw [rows] at joined
          by_cases feed : char = '\n'
          · simp only [feed, if_true, beq_self_eq_true]
            rw [List.take_succ_cons, joinRows_cons (by simp), joined]
            rfl
          · simp only [feed, if_false, beq_iff_eq, List.modifyHead_cons, Nat.add_zero,
              List.take_succ_cons] at joined ⊢
            rw [joinRows_cons_head, joined]
            rfl

/-- A part of a text lies in the rows from that of its start to that of its end. -/
theorem infix_rows (front middle back : List Char) :
    middle <:+: joinRows (((rowsOf (front ++ middle ++ back)).take
      ((front ++ middle).count '\n' + 1)).drop (front.count '\n')) := by
  obtain ⟨passed, opening, rows, length, free⟩ := rows_front front (middle ++ back)
  obtain ⟨closing, joined⟩ := rows_back (opening ++ middle) back
  have feeds : (front ++ middle).count '\n' + 1 =
      passed.length + ((opening ++ middle).count '\n' + 1) := by
    rw [List.count_append, List.count_append, List.count_eq_zero.mpr free, length]
    omega
  rw [feeds, ← length, List.append_assoc, rows, List.take_length_add_append, List.drop_left',
    ← List.append_assoc, joined]
  · exact ⟨opening, closing, rfl⟩
  · rfl

end Rows

/-! ## Lines -/

section Lines

variable {text row : List Char}

theorem splitlines_feed (rest : List Char) : splitlines ('\n' :: rest) = [] :: splitlines rest := by
  rw [splitlines.eq_3 '\n' rest (fun _ same => nomatch same), if_pos (by decide)]

theorem splitlines_cons_plain {char : Char} (plain : char ∉ lineSeparators) (rest : List Char) :
    splitlines (char :: rest) = prependChar char (splitlines rest) := by
  have single : ∀ later, char = '\r' → rest = '\n' :: later → False := by
    rintro later rfl -
    exact plain (by decide)
  rw [splitlines.eq_3 char rest single, if_neg plain]

theorem not_mem_prependChar {char separator : Char} (differs : separator ≠ char)
    {lines : List (List Char)} (free : ∀ line ∈ lines, separator ∉ line) :
    ∀ line ∈ prependChar char lines, separator ∉ line := by
  intro line member
  cases lines with
  | nil =>
      rw [List.mem_singleton.mp member]
      simpa using differs
  | cons first lines =>
      rcases List.mem_cons.mp member with rfl | later
      · simpa [differs] using free first (.head _)
      · exact free line (.tail _ later)

/-- The separators of lines are not part of them. -/
theorem not_mem_of_mem_splitlines {line : List Char} (member : line ∈ splitlines text)
    {separator : Char} (separates : separator ∈ lineSeparators) : separator ∉ line := by
  induction text using splitlines.induct generalizing line with
  | case1 => cases member
  | case2 rest ih =>
      rw [splitlines] at member
      rcases List.mem_cons.mp member with rfl | later
      · exact List.not_mem_nil
      · exact ih later
  | case3 char rest single closes ih =>
      rw [splitlines.eq_3 char rest single, if_pos closes] at member
      rcases List.mem_cons.mp member with rfl | later
      · exact List.not_mem_nil
      · exact ih later
  | case4 char rest single plain ih =>
      rw [splitlines_cons_plain plain] at member
      have differs : separator ≠ char := fun same => plain (same ▸ separates)
      exact not_mem_prependChar differs (fun _ => ih) line member

theorem splitlines_row (plain : ∀ char ∈ row, char ∉ lineSeparators) (rest : List Char) :
    splitlines (row ++ '\n' :: rest) = row :: splitlines rest := by
  induction row with
  | nil => exact splitlines_feed rest
  | cons char row ih =>
      rw [List.cons_append, splitlines_cons_plain (plain char (.head _)),
        ih fun other member => plain other (.tail _ member)]
      rfl

theorem splitlines_last (plain : ∀ char ∈ row, char ∉ lineSeparators) (some : row ≠ []) :
    splitlines row = [row] := by
  induction row with
  | nil => exact absurd rfl some
  | cons char row ih =>
      rw [splitlines_cons_plain (plain char (.head _))]
      cases row with
      | nil => rfl
      | cons next row =>
          rw [ih (fun other member => plain other (.tail _ member)) (List.cons_ne_nil _ _)]
          rfl

/-- No other separator stands in the first rows. -/
def Unseparated (text : List Char) (count : Nat) : Prop :=
  ∀ row ∈ (rowsOf text).take count, ∀ char ∈ row, char ∉ lineSeparators

instance (text : List Char) (count : Nat) : Decidable (Unseparated text count) :=
  @List.decidableBAll _ _ (fun row => List.decidableBAll (· ∉ lineSeparators) row)
    ((rowsOf text).take count)

theorem Unseparated.mono {fewer more : Nat} (plain : Unseparated text more)
    (le : fewer ≤ more) : Unseparated text fewer := fun row member =>
  plain row ((List.take_sublist_take_left le).mem member)

/-- Without other separators the lines are the rows, as far as there are lines. -/
theorem lines_take {count : Nat} (plain : Unseparated text count)
    (enough : count ≤ (splitlines text).length) :
    (splitlines text).take count = (rowsOf text).take count := by
  induction count generalizing text with
  | zero => rfl
  | succ count ih =>
      by_cases feed : '\n' ∈ text
      · obtain ⟨row, rest, rfl, free⟩ := List.eq_append_cons_of_mem feed
        unfold Unseparated at plain
        rw [rowsOf_row free, List.take_succ_cons] at plain ⊢
        have lines := splitlines_row (plain row (.head _)) rest
        rw [lines, List.length_cons] at enough
        rw [lines, List.take_succ_cons,
          ih (fun other member => plain other (.tail _ member)) (by omega)]
      · unfold Unseparated at plain
        rw [rowsOf_single feed] at plain ⊢
        cases text with
        | nil => cases enough
        | cons char text => rw [splitlines_last (plain _ (.head _)) (List.cons_ne_nil _ _)]

theorem not_mem_normalizeNewlines (text : List Char) : '\r' ∉ normalizeNewlines text := by
  intro member
  obtain ⟨char, -, same⟩ := List.mem_map.mp member
  split at same
  · cases same
  case isFalse other => exact other same

/-! ## Numbers of lines -/

/-- The lines of these numbers are the rows of these numbers. -/
def RowsKept (text : List Char) (startLine endLine : Nat) : Prop :=
  ∀ number, startLine ≤ number → number ≤ endLine →
    (splitlines text)[number - 1]? = (rowsOf text)[number - 1]?

/-- They are when no other separator precedes the end of the last of them. -/
theorem rowsKept_of_plain {startLine endLine : Nat}
    (plain : Unseparated text endLine) (enough : endLine ≤ (splitlines text).length) (positive : 1 ≤ startLine) :
    RowsKept text startLine endLine := by
  intro number first last
  have inside : number - 1 < endLine := by omega
  rw [← List.getElem?_take_of_lt inside, lines_take plain enough, List.getElem?_take_of_lt inside]

/-- They are not when one of the rows has another separator. -/
theorem not_rowsKept_of_separator {startLine endLine number : Nat} (first : startLine ≤ number)
    (last : number ≤ endLine) (found : (rowsOf text)[number - 1]? = some row) {separator : Char}
    (separates : separator ∈ lineSeparators) (within : separator ∈ row) :
    ¬ RowsKept text startLine endLine := by
  intro kept
  have line := (kept number first last).trans found
  exact not_mem_of_mem_splitlines (List.mem_of_getElem? line) separates within

theorem joinRows_injective {lines rows : List (List Char)} (linesFree : ∀ line ∈ lines, '\n' ∉ line)
    (rowsFree : ∀ row ∈ rows, '\n' ∉ row) (some : joinRows lines ≠ [])
    (same : joinRows lines = joinRows rows) : lines = rows := by
  have linesSome : lines ≠ [] := by
    rintro rfl
    exact some rfl
  have rowsSome : rows ≠ [] := by
    rintro rfl
    exact some same
  rw [← List.splitOn_intercalate '\n' linesFree linesSome,
    ← List.splitOn_intercalate '\n' rowsFree rowsSome]
  exact congrArg (List.splitOn '\n') same

/-- A slice of the lines is that of the rows exactly when the rows are kept. -/
theorem lineSlice_eq_iff {startLine endLine : Nat}
    (some : joinRows (((splitlines text).take endLine).drop (startLine - 1)) ≠ []) :
    joinRows (((splitlines text).take endLine).drop (startLine - 1)) =
        joinRows (((rowsOf text).take endLine).drop (startLine - 1)) ↔
      RowsKept text startLine endLine := by
  constructor
  · intro same number first last
    have slices := joinRows_injective
      (fun line member => not_mem_of_mem_splitlines
        (List.mem_of_mem_take (List.mem_of_mem_drop member)) (by decide))
      (fun row member => not_mem_of_mem_splitOn
        (List.mem_of_mem_take (List.mem_of_mem_drop member))) some same
    have positive : 0 < endLine := by
      rw [Nat.pos_iff_ne_zero]
      rintro rfl
      exact some (by simp [joinRows])
    have entries := congrArg (·[number - 1 - (startLine - 1)]?) slices
    simp only [List.getElem?_drop, List.getElem?_take] at entries
    have place : startLine - 1 + (number - 1 - (startLine - 1)) = number - 1 := by omega
    rwa [place, if_pos (by omega), if_pos (by omega)] at entries
  · intro kept
    congr 1
    apply List.ext_getElem?
    intro place
    simp only [List.getElem?_drop, List.getElem?_take]
    split
    case isTrue inside =>
      exact kept (startLine - 1 + place + 1) (by omega) (by omega)
    case isFalse => rfl

/-! ## Lines and rows further down -/

theorem splitlines_cons_separator {char : Char} (closes : char ∈ lineSeparators)
    (single : char ≠ '\r') (rest : List Char) :
    splitlines (char :: rest) = [] :: splitlines rest := by
  have alone : ∀ later, char = '\r' → rest = '\n' :: later → False :=
    fun _ same _ => single same
  rw [splitlines.eq_3 char rest alone, if_pos closes]

/-- A row makes a line for each of its separators, and one for its end. -/
theorem splitlines_pieces (returnless : '\r' ∉ row) (rest : List Char) :
    ∃ pieces, splitlines (row ++ '\n' :: rest) = pieces ++ splitlines rest ∧
      pieces.length = row.countP (· ∈ lineSeparators) + 1 := by
  induction row with
  | nil => exact ⟨[[]], splitlines_feed rest, rfl⟩
  | cons char row ih =>
      obtain ⟨pieces, lines, length⟩ := ih fun later => returnless (.tail _ later)
      rw [List.cons_append]
      by_cases closes : char ∈ lineSeparators
      · have single : char ≠ '\r' := fun same => returnless (same ▸ .head _)
        refine ⟨[] :: pieces, ?_, ?_⟩
        · rw [splitlines_cons_separator closes single, lines, List.cons_append]
        · rw [List.length_cons, length,
            List.countP_cons_of_pos (p := fun char => decide (char ∈ lineSeparators))
              (decide_eq_true closes)]
      · cases pieces with
        | nil => simp at length
        | cons first others =>
            refine ⟨(char :: first) :: others, ?_, ?_⟩
            · rw [splitlines_cons_plain closes, lines]
              rfl
            · rw [List.countP_cons_of_neg (by simpa using closes)]
              exact length

/-- What is no separator is part of a line. -/
theorem exists_line {char : Char} (inner : char ∉ lineSeparators) (member : char ∈ text) :
    ∃ line ∈ splitlines text, char ∈ line := by
  induction text using splitlines.induct with
  | case1 => cases member
  | case2 rest ih =>
      have later : char ∈ rest := by
        simp only [List.mem_cons] at member
        rcases member with rfl | rfl | later
        · exact absurd (by decide) inner
        · exact absurd (by decide) inner
        · exact later
      obtain ⟨line, listed, inside⟩ := ih later
      rw [splitlines]
      exact ⟨line, .tail _ listed, inside⟩
  | case3 head rest single closes ih =>
      rw [splitlines.eq_3 head rest single, if_pos closes]
      rcases List.mem_cons.mp member with rfl | later
      · exact absurd closes inner
      · obtain ⟨line, listed, inside⟩ := ih later
        exact ⟨line, .tail _ listed, inside⟩
  | case4 head rest single plain ih =>
      rw [splitlines_cons_plain plain]
      rcases List.mem_cons.mp member with rfl | later
      · cases splitlines rest with
        | nil => exact ⟨[char], .head _, .head _⟩
        | cons first others => exact ⟨char :: first, .head _, .head _⟩
      · obtain ⟨line, listed, inside⟩ := ih later
        cases lines : splitlines rest with
        | nil =>
            rw [lines] at listed
            cases listed
        | cons first others =>
            rw [lines] at listed
            rcases List.mem_cons.mp listed with rfl | other
            · exact ⟨head :: line, .head _, .tail _ inside⟩
            · exact ⟨line, .tail _ other, inside⟩

/-- What is no separator is in a line as many places further down as separators
precede its row. -/
theorem exists_line_below {number : Nat} (returnless : '\r' ∉ text)
    (found : (rowsOf text)[number]? = some row) {char : Char} (inner : char ∉ lineSeparators)
    (member : char ∈ row) :
    ∃ place line, (splitlines text)[place]? = some line ∧ char ∈ line ∧
      number + ((rowsOf text).take number).flatten.countP (· ∈ lineSeparators) ≤ place := by
  induction number generalizing text with
  | zero =>
      have within : char ∈ text := by
        by_cases feed : '\n' ∈ text
        · obtain ⟨first, rest, rfl, free⟩ := List.eq_append_cons_of_mem feed
          rw [rowsOf_row free] at found
          cases found
          exact List.mem_append_left _ member
        · rw [rowsOf_single feed] at found
          cases found
          exact member
      obtain ⟨line, listed, inside⟩ := exists_line inner within
      obtain ⟨place, there⟩ := List.mem_iff_getElem?.mp listed
      exact ⟨place, line, there, inside, Nat.zero_le place⟩
  | succ number ih =>
      by_cases feed : '\n' ∈ text
      · obtain ⟨first, rest, rfl, free⟩ := List.eq_append_cons_of_mem feed
        rw [rowsOf_row free, List.getElem?_cons_succ] at found
        obtain ⟨pieces, lines, length⟩ := @splitlines_pieces first
          (fun inFirst => returnless (List.mem_append_left _ inFirst)) rest
        obtain ⟨place, line, there, inside, below⟩ := ih
          (fun inRest => returnless (List.mem_append_right _ (.tail _ inRest))) found
        refine ⟨pieces.length + place, line, ?_, inside, ?_⟩
        · rwa [lines, List.getElem?_append_right (Nat.le_add_right _ _), Nat.add_sub_cancel_left]
        · rw [rowsOf_row free, List.take_succ_cons, List.flatten_cons, List.countP_append, length]
          omega
      · rw [rowsOf_single feed] at found
        cases found

/-- Rows that are kept have no other separator. -/
theorem Unseparated.extend {count more : Nat} (plain : Unseparated text count)
    (kept : RowsKept text (count + 1) more) : Unseparated text more := by
  intro row member char within closes
  obtain ⟨place, there⟩ := List.mem_iff_getElem?.mp member
  rw [List.getElem?_take] at there
  split at there
  case isFalse => cases there
  case isTrue before =>
    by_cases early : place < count
    · refine plain row (List.mem_iff_getElem?.mpr ⟨place, ?_⟩) char within closes
      rw [List.getElem?_take, if_pos early, there]
    · have line := kept (place + 1) (by omega) (by omega)
      rw [Nat.add_sub_cancel, there] at line
      exact not_mem_of_mem_splitlines (List.mem_of_getElem? line) closes within

/-- If the last line with a visible character is the row of its number, no other
separator precedes it: it would stand further down. -/
theorem unseparated_of_last {number : Nat} (returnless : '\r' ∉ text)
    (found : (splitlines text)[number]? = some row)
    (kept : (splitlines text)[number]? = (rowsOf text)[number]?) {char : Char}
    (visible : isSpace char = false) (member : char ∈ row)
    (last : ∀ place line, number < place → (splitlines text)[place]? = some line →
      ∀ later ∈ line, isSpace later = true) : Unseparated text (number + 1) := by
  have inner : char ∉ lineSeparators := by
    intro closes
    have spaces : ∀ separator ∈ lineSeparators, isSpace separator = true :=
      List.all_eq_true.mp (by decide)
    rw [spaces char closes] at visible
    cases visible
  rw [kept] at found
  obtain ⟨place, line, there, inside, below⟩ := exists_line_below returnless found inner member
  have last : place ≤ number := by
    by_contra later
    have space := last place line (Nat.not_le.mp later) there char inside
    rw [visible] at space
    cases space
  have none : ((rowsOf text).take number).flatten.countP (· ∈ lineSeparators) = 0 := by omega
  have before : Unseparated text number := fun other listed separator within closes =>
    List.countP_eq_zero.mp none separator (List.mem_flatten.mpr ⟨other, listed, within⟩)
      (decide_eq_true closes)
  refine before.extend fun place first last => ?_
  have same : place - 1 = number := by omega
  rw [same, kept]

end Lines

end Codenaut.Text
