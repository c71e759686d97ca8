import Codenaut.Indexing.DocumentationSections
import Mathlib.Data.List.GetD
import Mathlib.Data.List.TakeWhile

/-!
# Fenced code

Blocks that only a fence of the same character, at least as long and without an
info string, closes, against the two scanners, which pair a fence with the next
one of its character.
-/

set_option autoImplicit false

namespace Codenaut.Indexing

open Codenaut.Spans Codenaut.Text

/-! ## Blocks -/

/-- The fence of a line: its character, its length and what follows it. -/
def fenceRun (line : List Char) : Option (Char × Nat × List Char) :=
  (fenceMarker line).map fun marker =>
    let rest := line.dropWhile isTabOrSpace
    (marker, (rest.takeWhile (· = marker)).length, rest.dropWhile (· = marker))

/-- The open block after one more line. -/
def blockStep (block : Option (Char × Nat)) (line : List Char) : Option (Char × Nat) :=
  match fenceRun line, block with
  | none, block => block
  | some (marker, length, _), none => some (marker, length)
  | some (marker, length, info), some (char, opened) =>
      if marker = char ∧ opened ≤ length ∧ info.all isTabOrSpace then none
      else some (char, opened)

def blockAfter (lines : List (List Char)) : Option (Char × Nat) :=
  lines.foldl blockStep none

/-- The line of this number. -/
def lineAt (lines : List (List Char)) (number : Nat) : List Char :=
  lines.getD (number - 1) []

/-- A block is open where the line starts. -/
def InBlock (lines : List (List Char)) (number : Nat) : Prop :=
  1 ≤ number ∧ number ≤ lines.length ∧ blockAfter (lines.take (number - 1)) ≠ none

/-! ## Pairs of fences -/

/-- Each fence with the next one of its character, those between them skipped.
The character of the one that is left over. -/
def unpaired : List Char → Option Char
  | [] => none
  | marker :: rest =>
      if marker ∈ rest then unpaired (rest.dropWhile (· ≠ marker)).tail else some marker
termination_by markers => markers.length
decreasing_by
  have shorter := (List.dropWhile_suffix (l := rest) (· ≠ marker)).length_le
  rw [List.length_tail, List.length_cons]
  omega

theorem foldl_toggle_skipped {marker : Char} {skipped : List Char}
    (others : ∀ other ∈ skipped, other ≠ marker) :
    skipped.foldl toggleFence (some marker) = some marker := by
  induction skipped with
  | nil => rfl
  | cons other rest ih =>
      have apart : other ≠ marker := others other (.head _)
      rw [List.foldl_cons, toggleFence, if_neg (by simpa using apart.symm)]
      exact ih fun later member => others later (.tail _ member)

/-- The toggle of the scanners leaves the fence without partner open. -/
theorem foldl_toggle (markers : List Char) :
    markers.foldl toggleFence none = unpaired markers := by
  fun_induction unpaired markers with
  | case1 => rfl
  | case2 marker rest paired ih =>
      obtain ⟨skipped, later, split, free⟩ := List.eq_append_cons_of_mem paired
      have others : ∀ other ∈ skipped, other ≠ marker := fun other member same =>
        free (same ▸ member)
      have dropped : rest.dropWhile (· ≠ marker) = marker :: later := by
        rw [split, List.dropWhile_append_of_pos (by simpa using others)]
        simp
      rw [dropped, List.tail_cons] at ih
      rw [dropped, List.tail_cons, ← ih, split, List.foldl_cons, List.foldl_append]
      have opened : toggleFence none marker = some marker := rfl
      rw [opened, foldl_toggle_skipped others, List.foldl_cons, toggleFence, if_pos rfl]
  | case3 marker rest lone =>
      have others : ∀ other ∈ rest, other ≠ marker := fun other member same =>
        lone (same ▸ member)
      exact foldl_toggle_skipped others

/-- The character of the fence before a line that has no partner. -/
def unpairedBefore (lines : List (List Char)) (number : Nat) : Option Char :=
  unpaired ((lines.take (number - 1)).filterMap fenceMarker)

theorem fenceAfter_eq (lines : List (List Char)) :
    fenceAfter lines = unpaired (lines.filterMap fenceMarker) := by
  rw [← foldl_toggle, List.foldl_filterMap, fenceAfter]
  congr 1
  funext fence line
  unfold fenceStep
  cases fenceMarker line <;> rfl

/-! ## The scanner of paragraphs -/

/-- The start of the open paragraph and the open fence after one more line. -/
def paragraphStep (lines : List (List Char)) (state : Option Nat × Option Char) (number : Nat) :
    Option Nat × Option Char :=
  match fenceMarker (lineAt lines number) with
  | some marker => (some (state.1.getD number), toggleFence state.2 marker)
  | none =>
      if strip (lineAt lines number) = [] ∧ state.2 = none then (none, state.2)
      else (some (state.1.getD number), state.2)

/-- The state of the scanner of a section before a line. -/
def paragraphState (lines : List (List Char)) (startLine number : Nat) :
    Option Nat × Option Char :=
  (List.range' startLine (number - startLine)).foldl (paragraphStep lines) (none, none)

/-- The line ends a paragraph that it is not the first line of. -/
def Splits (lines : List (List Char)) (part : DocumentationSection) (number : Nat) : Prop :=
  number ≤ part.endLine ∧
    ∃ range ∈ paragraphRanges lines part.startLine part.endLine, range.2 + 1 = number

/-- The paragraph that the line closes: a blank line outside fences does. -/
def closedBy (lines : List (List Char)) (state : Option Nat × Option Char) (number : Nat) :
    Option Span :=
  match fenceMarker (lineAt lines number) with
  | some _ => none
  | none =>
      if strip (lineAt lines number) = [] ∧ state.2 = none then
        state.1.map fun start => (start, number - 1)
      else none

section Paragraphs

variable {lines : List (List Char)} {state : Option Nat × Option Char} {endLine number : Nat}

theorem paragraphsFrom_cons (number : Nat) (rest : List Nat) :
    paragraphsFrom lines endLine state.1 state.2 (number :: rest) =
      (closedBy lines state number).toList ++
        paragraphsFrom lines endLine (paragraphStep lines state number).1
          (paragraphStep lines state number).2 rest := by
  rw [paragraphsFrom]
  unfold paragraphStep closedBy lineAt
  cases fenceMarker (lines.getD (number - 1) []) with
  | some marker => rfl
  | none =>
      by_cases blank : strip (lines.getD (number - 1) []) = [] ∧ state.2 = none
      · simp only [blank, and_self, if_true]
      · simp only [blank, if_false, Option.toList_none, List.nil_append]

theorem closedBy_isSome_iff : (closedBy lines state number).isSome = true ↔
    fenceMarker (lineAt lines number) = none ∧ strip (lineAt lines number) = [] ∧
      state.2 = none ∧ state.1.isSome = true := by
  unfold closedBy
  cases fenceMarker (lineAt lines number) with
  | some marker => simp
  | none =>
      by_cases blank : strip (lineAt lines number) = [] ∧ state.2 = none
      · simp [blank]
      · simp only [blank, if_false, Option.isSome_none]
        simp only [Bool.false_eq_true, true_and, false_iff]
        exact fun closes => blank ⟨closes.1, closes.2.1⟩

theorem closedBy_end {range : Span} (closed : closedBy lines state number = some range) :
    range.2 = number - 1 := by
  unfold closedBy at closed
  split at closed
  · cases closed
  · split at closed
    · obtain ⟨start, -, rfl⟩ := Option.map_eq_some_iff.mp closed
      rfl
    · cases closed

/-- Paragraphs end no earlier than before the first line that is scanned. -/
theorem paragraphsFrom_ends {count : Nat} (closing : number + count = endLine + 1) :
    ∀ range ∈ paragraphsFrom lines endLine state.1 state.2 (List.range' number count),
      number ≤ range.2 + 1 := by
  induction count generalizing number state with
  | zero =>
      intro range member
      rw [List.range'_zero, paragraphsFrom, Option.mem_toList] at member
      obtain ⟨start, -, rfl⟩ := Option.map_eq_some_iff.mp member
      dsimp only
      omega
  | succ count ih =>
      intro range member
      rw [List.range'_succ, paragraphsFrom_cons, List.mem_append, Option.mem_toList] at member
      rcases member with closed | later
      · rw [closedBy_end closed]
        omega
      · have ends := @ih (paragraphStep lines state number) (number + 1) (by omega) range later
        omega

/-- A paragraph ends before a later line just where the scanner closes one there. -/
theorem exists_end_iff {count split : Nat} (closing : number + count = endLine + 1)
    (first : number ≤ split) (last : split ≤ endLine) (positive : 1 ≤ number) :
    (∃ range ∈ paragraphsFrom lines endLine state.1 state.2 (List.range' number count),
      range.2 + 1 = split) ↔
    (closedBy lines ((List.range' number (split - number)).foldl (paragraphStep lines) state)
      split).isSome = true := by
  induction count generalizing number state with
  | zero => omega
  | succ count ih =>
      rw [List.range'_succ, paragraphsFrom_cons]
      by_cases here : number = split
      · subst here
        have later := @paragraphsFrom_ends lines (paragraphStep lines state number) endLine
          (number + 1) count (by omega)
        rw [Nat.sub_self, List.range'_zero, List.foldl_nil]
        constructor
        · rintro ⟨range, member, ends⟩
          rw [List.mem_append, Option.mem_toList] at member
          rcases member with closed | after
          · exact Option.isSome_of_mem closed
          · have starts := later range after
            omega
        · intro closes
          obtain ⟨range, closed⟩ := Option.isSome_iff_exists.mp closes
          have ends := closedBy_end closed
          exact ⟨range, List.mem_append_left _ (Option.mem_toList.mpr closed), by omega⟩
      · have more : split - number = (split - (number + 1)) + 1 := by omega
        rw [more, List.range'_succ, List.foldl_cons,
          ← @ih (paragraphStep lines state number) (number + 1) (by omega) (by omega) (by omega)]
        refine exists_congr fun range => and_congr_left fun ends => ?_
        rw [List.mem_append, Option.mem_toList, or_iff_right]
        intro closed
        have early := closedBy_end closed
        omega

theorem splits_iff {part : DocumentationSection} (positive : 1 ≤ part.startLine)
    (first : part.startLine ≤ number) : Splits lines part number ↔ number ≤ part.endLine ∧
      (closedBy lines (paragraphState lines part.startLine number) number).isSome = true := by
  refine and_congr_right fun last => ?_
  exact @exists_end_iff lines (none, none) part.endLine part.startLine
    (part.endLine + 1 - part.startLine) number (by omega) first last positive

end Paragraphs

/-! ## The two scanners -/

section Scanners

variable {lines : List (List Char)} {startLine number : Nat}

theorem lineAt_succ (there : number < lines.length) : lineAt lines (number + 1) = lines[number] :=
  List.getD_eq_getElem _ _ there

theorem fenceAfter_succ (there : number < lines.length) : fenceAfter (lines.take (number + 1)) =
    fenceStep (fenceAfter (lines.take number)) (lineAt lines (number + 1)) := by
  rw [fenceAfter, ← List.take_append_getElem there, List.foldl_append, lineAt_succ there]
  rfl

theorem blockAfter_succ (there : number < lines.length) : blockAfter (lines.take (number + 1)) =
    blockStep (blockAfter (lines.take number)) (lineAt lines (number + 1)) := by
  rw [blockAfter, ← List.take_append_getElem there, List.foldl_append, lineAt_succ there]
  rfl

theorem paragraphState_succ (before : startLine ≤ number) :
    paragraphState lines startLine (number + 1) =
      paragraphStep lines (paragraphState lines startLine number) number := by
  have more : number + 1 - startLine = (number - startLine) + 1 := by omega
  rw [paragraphState, more, List.range'_concat, List.foldl_append]
  have next : startLine + 1 * (number - startLine) = number := by omega
  rw [next]
  rfl

theorem paragraphStep_fence (state : Option Nat × Option Char) :
    (paragraphStep lines state number).2 = fenceStep state.2 (lineAt lines number) := by
  unfold paragraphStep fenceStep
  cases fenceMarker (lineAt lines number) with
  | some marker => rfl
  | none =>
      by_cases blank : strip (lineAt lines number) = [] ∧ state.2 = none
      · simp only [blank, and_self, if_true]
      · simp only [blank, if_false]

/-- The scanner of a section reads the fences as the scanner of headings does,
which has none open where a section starts. -/
theorem paragraphState_fence (closed : fenceAfter (lines.take (startLine - 1)) = none)
    (positive : 1 ≤ startLine) (first : startLine ≤ number)
    (there : number ≤ lines.length + 1) :
    (paragraphState lines startLine number).2 = fenceAfter (lines.take (number - 1)) := by
  induction number, first using Nat.le_induction with
  | base =>
      rw [closed, paragraphState, Nat.sub_self]
      rfl
  | succ number before ih =>
      have same := ih (by omega)
      rw [paragraphState_succ before, paragraphStep_fence, same]
      have split : number + 1 - 1 = (number - 1) + 1 := by omega
      rw [split, fenceAfter_succ (by omega)]
      rw [show number - 1 + 1 = number by omega]

theorem scanLine_fence (scan : HeadingScan) (index : Nat) (line : List Char) :
    (scanLine scan index line).fence = fenceStep scan.fence line := by
  unfold scanLine fenceStep
  cases fenceMarker line with
  | some marker => rfl
  | none =>
      dsimp only
      split
      · rfl
      · split <;> rfl

theorem scanLines_fence (scan : HeadingScan) (index : Nat) (lines : List (List Char)) :
    (scanLines scan index lines).fence = lines.foldl fenceStep scan.fence := by
  induction lines generalizing scan index with
  | nil => rfl
  | cons line rest ih =>
      rw [scanLines, ih, List.foldl_cons, scanLine_fence]

theorem readHeading_line {fence : Option Char} {line : List Char} {found : Heading}
    (read : readHeading fence number line = some found) : found.line = number := by
  unfold readHeading at read
  split at read
  · obtain ⟨parts, -, rfl⟩ := Option.map_eq_some_iff.mp read
    rfl
  · cases read

theorem readHeading_isSome_iff {fence : Option Char} {line : List Char} :
    (readHeading fence number line).isSome = true ↔
      fenceMarker line = none ∧ fence = none ∧ heading line ≠ none := by
  unfold readHeading
  split
  case isTrue outside => simp [outside, Option.isSome_iff_ne_none]
  case isFalse fenced =>
    simp only [Option.isSome_none, Bool.false_eq_true, false_iff]
    exact fun read => fenced ⟨read.1, read.2.1⟩

theorem headingsFrom_at {fence : Option Char} {place : Nat} :
    (∃ found ∈ headingsFrom fence number lines, found.line = number + place) ↔
      place < lines.length ∧ (readHeading ((lines.take place).foldl fenceStep fence)
        (number + place) (lines.getD place [])).isSome = true := by
  induction lines generalizing fence number place with
  | nil => simp [headingsFrom]
  | cons line rest ih =>
      simp only [headingsFrom, List.mem_append, Option.mem_toList, or_and_right, exists_or]
      cases place with
      | zero =>
          have later : ¬∃ found ∈ headingsFrom (fenceStep fence line) (number + 1) rest,
              found.line = number + 0 := by
            rintro ⟨found, member, same⟩
            have bounds := headingsFrom_line member
            omega
          simp only [later, or_false, List.length_cons, Nat.zero_lt_succ, true_and, List.take_zero,
            List.foldl_nil, List.getD_cons_zero]
          rw [Option.isSome_iff_exists]
          exact exists_congr fun found => and_iff_left_of_imp fun read => readHeading_line read
      | succ place =>
          have here : ¬∃ found ∈ readHeading fence number line,
              found.line = number + (place + 1) := by
            rintro ⟨found, read, same⟩
            have own := readHeading_line read
            omega
          have shift : number + (place + 1) = number + 1 + place := by omega
          simp only [Option.mem_def] at here
          simp only [here, false_or, List.length_cons, Nat.add_lt_add_iff_right,
            List.take_succ_cons, List.foldl_cons, List.getD_cons_succ]
          rw [shift, ih]

/-- A line after the first starts a section when the toggled reading sees a
heading there. -/
theorem heading_at_iff : (∃ found ∈ headingsOf lines, found.line = number + 1) ↔
    number < lines.length ∧ fenceMarker (lineAt lines (number + 1)) = none ∧
      fenceAfter (lines.take number) = none ∧ heading (lineAt lines (number + 1)) ≠ none := by
  have counted := @headingsFrom_at lines 1 none number
  rw [readHeading_isSome_iff] at counted
  rw [headingsOf, Nat.add_comm number 1, counted, lineAt, Nat.add_sub_cancel_left]
  rfl

end Scanners

/-! ## Opaque blocks -/

/-- No line of a block starts a section or splits a paragraph, and the scanners
agree on the open fence at every line. -/
structure FencesOpaque (filePath : String) (lines : List (List Char)) : Prop where
  unopened : ∀ number, InBlock lines number →
    ∀ part ∈ documentSections filePath lines, part.startLine ≠ number
  unsplit : ∀ number, InBlock lines number →
    ∀ part ∈ documentSections filePath lines, part.startLine ≤ number →
      ¬Splits lines part number
  agreed : ∀ part ∈ documentSections filePath lines, ∀ number, part.startLine ≤ number →
    number ≤ part.endLine → (paragraphState lines part.startLine number).2 =
      (scanLines {} 1 (lines.take (number - 1))).fence

/-- A line that the scanners act on outside fences. -/
def Breaks (filePath : String) (line : List Char) : Prop :=
  strip line = [] ∨ isMarkdown filePath = true ∧ heading line ≠ none

section Blocks

variable {filePath : String} {lines : List (List Char)} {part : DocumentationSection}
  {number : Nat}

theorem section_start (member : part ∈ documentSections filePath lines) :
    part.startLine = 1 ∨ isMarkdown filePath = true ∧
      ∃ found ∈ headingsOf lines, found.line = part.startLine := by
  unfold documentSections at member
  split at member
  case isTrue markdown =>
    have listed := List.mem_map_of_mem
      (f := fun part : DocumentationSection => (part.startLine, part.headingHierarchy)) member
    rw [markdownSections_starts] at listed
    rcases List.mem_append.mp listed with opening | later
    · split at opening
      · cases opening
      · exact .inl (congrArg Prod.fst (List.mem_singleton.mp opening))
    · have line := List.mem_map_of_mem (f := Prod.fst) later
      rw [startsFrom_lines] at line
      exact .inr ⟨markdown, List.mem_map.mp line⟩
  · rw [List.mem_singleton.mp member]
    exact .inl rfl

theorem exists_section_start (markdown : isMarkdown filePath = true) {found : Heading}
    (member : found ∈ headingsOf lines) :
    ∃ part ∈ documentSections filePath lines, part.startLine = found.line := by
  have line := List.mem_map_of_mem (f := (·.line)) member
  rw [← startsFrom_lines []] at line
  obtain ⟨start, listed, same⟩ := List.mem_map.mp line
  have started : start ∈ sectionStarts lines := List.mem_append_right _ listed
  rw [← markdownSections_starts] at started
  obtain ⟨part, inside, rfl⟩ := List.mem_map.mp started
  rw [documentSections, if_pos markdown]
  exact ⟨part, inside, same⟩

/-- No fence is open where a section starts. -/
theorem section_start_closed (member : part ∈ documentSections filePath lines) :
    fenceAfter (lines.take (part.startLine - 1)) = none := by
  have positive := ((documentSections_tile filePath lines).inside _
    (List.mem_map_of_mem member)).1
  rcases section_start member with first | ⟨-, found, listed, line⟩
  · rw [first]
    rfl
  · have split : part.startLine = (part.startLine - 1) + 1 := by
      have positive : 1 ≤ part.startLine := positive
      omega
    have opened := heading_at_iff.mp ⟨found, listed, line.trans split⟩
    exact opened.2.2.1

theorem paragraphs_agree (member : part ∈ documentSections filePath lines)
    (first : part.startLine ≤ number) (last : number ≤ part.endLine) :
    (paragraphState lines part.startLine number).2 = fenceAfter (lines.take (number - 1)) := by
  have bounds := section_bounds member
  exact paragraphState_fence (section_start_closed member) bounds.1 first (by omega)

theorem space_of_strip {line : List Char} (blank : strip line = []) :
    ∀ char ∈ line, isSpace char = true := by
  have trailing := List.rdropWhile_eq_nil_iff.mp blank
  have leading : line.dropWhile isSpace = [] := by
    by_contra some
    have first := List.head_dropWhile_not isSpace some
    rw [trailing _ (List.head_mem some)] at first
    cases first
  exact List.dropWhile_eq_nil_iff.mp leading

theorem fenceMarker_blank {line : List Char} (blank : strip line = []) :
    fenceMarker line = none := by
  have spaces := space_of_strip blank
  unfold fenceMarker
  split
  case h_1 rest dropped =>
    have tick : '\x60' ∈ line.dropWhile isTabOrSpace := dropped ▸ List.mem_cons_self
    have space := spaces _ ((List.dropWhile_suffix _).subset tick)
    exact absurd space (by decide)
  case h_2 rest dropped =>
    have tilde : '~' ∈ line.dropWhile isTabOrSpace := dropped ▸ List.mem_cons_self
    have space := spaces _ ((List.dropWhile_suffix _).subset tilde)
    exact absurd space (by decide)
  · rfl

/-- A fence is neither blank nor a heading. -/
theorem Breaks.fenceMarker {line : List Char} (breaks : Breaks filePath line) :
    fenceMarker line = none := by
  rcases breaks with blank | ⟨-, headed⟩
  · exact fenceMarker_blank blank
  · cases line with
    | nil => rfl
    | cons first rest =>
        by_cases sign : first = '#'
        · subst sign
          rfl
        · have unheaded : heading (first :: rest) = none := by
            unfold heading
            simp [sign]
          exact absurd unheaded headed

theorem paragraphStep_isSome {state : Option Nat × Option Char}
    (goesOn : fenceMarker (lineAt lines number) = none → strip (lineAt lines number) = [] →
      state.2 ≠ none) : (paragraphStep lines state number).1.isSome = true := by
  unfold paragraphStep
  cases marked : Indexing.fenceMarker (lineAt lines number) with
  | some marker => rfl
  | none => rw [if_neg fun closes => goesOn marked closes.1 closes.2, Option.isSome_some]

/-- Where no line of a block splits a paragraph, one stays open in the block. -/
theorem FencesOpaque.paragraph_open (holds : FencesOpaque filePath lines)
    (member : part ∈ documentSections filePath lines) (first : part.startLine ≤ number)
    (last : number ≤ part.endLine) (inside : InBlock lines number) :
    (paragraphState lines part.startLine number).1.isSome = true := by
  induction number, first using Nat.le_induction with
  | base => exact absurd rfl (holds.unopened _ inside part member)
  | succ number before ih =>
      have bounds := section_bounds member
      rw [paragraphState_succ before]
      refine paragraphStep_isSome fun unmarked blank closed => ?_
      by_cases earlier : InBlock lines number
      · have opened := ih (by omega) earlier
        refine holds.unsplit number earlier part member before ?_
        exact (splits_iff bounds.1 before).mpr
          ⟨by omega, closedBy_isSome_iff.mpr ⟨unmarked, blank, closed, opened⟩⟩
      · -- the block opens with this line
        have none : blockAfter (lines.take (number - 1)) = none := by
          by_contra opened
          exact earlier ⟨by omega, by have there := inside.2.1; omega, opened⟩
        refine inside.2.2 ?_
        have split : number + 1 - 1 = (number - 1) + 1 := by omega
        have same : number - 1 + 1 = number := by omega
        rw [split, blockAfter_succ (by have there := inside.2.1; omega), none, same]
        unfold blockStep fenceRun
        rw [unmarked]
        rfl

theorem not_inBlock_one : ¬InBlock lines 1 := fun inside => inside.2.2 rfl

end Blocks

/-- The blocks of a documentation file are opaque just where every blank line of a
block, and in Markdown every heading, follows a fence without partner. -/
theorem fences_opaque_iff (filePath : String) (lines : List (List Char)) :
    FencesOpaque filePath lines ↔ ∀ number, InBlock lines number →
      Breaks filePath (lineAt lines number) → unpairedBefore lines number ≠ none := by
  have toggled : ∀ number, unpairedBefore lines number = fenceAfter (lines.take (number - 1)) :=
    fun number => (fenceAfter_eq _).symm
  constructor
  · intro holds number inside breaks lone
    rw [toggled] at lone
    have there := inside.2.1
    have unmarked := breaks.fenceMarker
    rcases breaks with blank | ⟨markdown, headed⟩
    · have within : Spans.Within number (1, max 1 lines.length) :=
        ⟨inside.1, by dsimp only; omega⟩
      obtain ⟨span, listed, first, last⟩ :=
        (documentSections_tile filePath lines).held number within trivial
      obtain ⟨part, member, rfl⟩ := List.mem_map.mp listed
      have opened := holds.paragraph_open member first last inside
      have closed := paragraphs_agree member first last
      refine holds.unsplit number inside part member first ?_
      exact (splits_iff (section_bounds member).1 first).mpr
        ⟨last, closedBy_isSome_iff.mpr ⟨unmarked, blank, closed.trans lone, opened⟩⟩
    · have split : number = (number - 1) + 1 := by
        have positive := inside.1
        omega
      rw [split] at unmarked headed
      obtain ⟨found, listed, line⟩ :=
        heading_at_iff.mpr ⟨by omega, unmarked, lone, headed⟩
      obtain ⟨part, member, starts⟩ := exists_section_start markdown listed
      exact holds.unopened number inside part member (by omega)
  · intro paired
    refine ⟨fun number inside part member same => ?_,
      fun number inside part member first split => ?_, fun part member number first last => ?_⟩
    · rcases section_start member with start | ⟨markdown, found, listed, line⟩
      · rw [← same, start] at inside
        exact not_inBlock_one inside
      · have split : number = (number - 1) + 1 := by
          have positive := inside.1
          omega
        have starts : found.line = (number - 1) + 1 := by omega
        have headed := heading_at_iff.mp ⟨found, listed, starts⟩
        rw [← split] at headed
        refine paired number inside (.inr ⟨markdown, headed.2.2.2⟩) ?_
        rw [toggled]
        exact headed.2.2.1
    · obtain ⟨last, closes⟩ := (splits_iff (section_bounds member).1 first).mp split
      obtain ⟨-, blank, closed, -⟩ := closedBy_isSome_iff.mp closes
      refine paired number inside (.inl blank) ?_
      rw [toggled, ← paragraphs_agree member first last]
      exact closed
    · rw [scanLines_fence, paragraphs_agree member first last]
      rfl

/-- A longer fence around a shorter one and a heading. -/
def nestedFences : List (List Char) :=
  ["````".toList, "```".toList, "# x".toList, "```".toList, "````".toList]

theorem nested_fences_opened : ¬FencesOpaque "guide.md" nestedFences := by
  intro holds
  have inside : InBlock nestedFences 3 := ⟨by decide, by decide, by decide +kernel⟩
  have listed : ⟨3, 5, ["x"]⟩ ∈ documentSections "guide.md" nestedFences := by
    decide +kernel
  exact holds.unopened 3 inside _ listed rfl

end Codenaut.Indexing
