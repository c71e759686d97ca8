import Codenaut.Indexing.Chunking
import Codenaut.Spans.Packing

/-!
# Sections of a document

The headings that the section scanner reads, outside what it takes for fenced
code. Each starts a section, and the sections tile the lines of the document.
-/

set_option autoImplicit false

namespace Codenaut.Indexing

open Codenaut.Spans

/-! ## Fences and headings -/

/-- The open fence after one more line. -/
def fenceStep (fence : Option Char) (line : List Char) : Option Char :=
  match fenceMarker line with
  | some marker => toggleFence fence marker
  | none => fence

/-- The open fence after these lines, none open before them. -/
def fenceAfter (lines : List (List Char)) : Option Char :=
  lines.foldl fenceStep none

structure Heading where
  line : Nat
  level : Nat
  title : String
  deriving DecidableEq, Repr

/-- The heading that the scanner reads in a line. -/
def readHeading (fence : Option Char) (number : Nat) (line : List Char) : Option Heading :=
  if fenceMarker line = none ∧ fence = none then
    (heading line).map fun (level, title) => ⟨number, level, title⟩
  else none

/-- The headings of the lines from a number on. -/
def headingsFrom (fence : Option Char) (number : Nat) : List (List Char) → List Heading
  | [] => []
  | line :: rest =>
      (readHeading fence number line).toList ++
        headingsFrom (fenceStep fence line) (number + 1) rest

def headingsOf (lines : List (List Char)) : List Heading :=
  headingsFrom none 1 lines

/-- The hierarchy after a heading, as the scanner keeps it. -/
def nextHierarchy (hierarchy : List String) (next : Heading) : List String :=
  hierarchy.take (next.level - 1) ++ [next.title]

/-- Where the sections of the headings start, with their hierarchies. -/
def startsFrom (hierarchy : List String) : List Heading → List (Nat × List String)
  | [] => []
  | next :: rest =>
      (next.line, nextHierarchy hierarchy next) :: startsFrom (nextHierarchy hierarchy next) rest

/-- What the scanner collects: the document starts a section even if its first
line is no heading. -/
def sectionStarts (lines : List (List Char)) : List (Nat × List String) :=
  (if (headingsOf lines).head?.any (·.line = 1) then [] else [(1, [])]) ++
    startsFrom [] (headingsOf lines)

section Scan

variable {fence : Option Char} {number : Nat} {lines : List (List Char)}

theorem headingsFrom_line {found : Heading} (member : found ∈ headingsFrom fence number lines) :
    number ≤ found.line ∧ found.line < number + lines.length := by
  induction lines generalizing fence number with
  | nil => cases member
  | cons line rest ih =>
      rw [headingsFrom, List.mem_append, Option.mem_toList] at member
      rw [List.length_cons]
      rcases member with here | later
      · unfold readHeading at here
        split at here
        · obtain ⟨parts, -, rfl⟩ := Option.map_eq_some_iff.mp here
          exact ⟨le_refl number, by dsimp only; omega⟩
        · cases here
      · have bounds := ih later
        omega

theorem headingsFrom_sorted :
    (headingsFrom fence number lines).Pairwise fun first second => first.line < second.line := by
  induction lines generalizing fence number with
  | nil => exact .nil
  | cons line rest ih =>
      rw [headingsFrom]
      cases here : readHeading fence number line with
      | none => exact ih
      | some found =>
          refine List.pairwise_cons.mpr ⟨fun later member => ?_, ih⟩
          have bounds := headingsFrom_line member
          have own := @headingsFrom_line fence number [line] found
            (by simp [headingsFrom, here])
          simp only [List.length_singleton] at own
          omega

/-- A line adds its heading's start and hierarchy. -/
theorem scanLine_starts (scan : HeadingScan) (index : Nat) (line : List Char)
    (started : ¬(index = 1 ∧ scan.starts = [(1, [])])) :
    scanLine scan index line =
      { starts := scan.starts ++
          startsFrom scan.hierarchy (readHeading scan.fence index line).toList
        hierarchy := (readHeading scan.fence index line).toList.foldl nextHierarchy scan.hierarchy
        fence := fenceStep scan.fence line } := by
  unfold scanLine fenceStep readHeading
  cases marked : fenceMarker line with
  | some marker => simp [startsFrom]
  | none =>
      cases opened : scan.fence with
      | some marker =>
          cases scan
          simp_all [startsFrom]
      | none =>
          cases found : heading line with
          | none =>
              cases scan
              simp_all [startsFrom]
          | some parts => simp [started, startsFrom, nextHierarchy]

theorem startsFrom_append (hierarchy : List String) (first second : List Heading) :
    startsFrom hierarchy (first ++ second) =
      startsFrom hierarchy first ++ startsFrom (first.foldl nextHierarchy hierarchy) second := by
  induction first generalizing hierarchy with
  | nil => rfl
  | cons next rest ih => simp [startsFrom, ih]

theorem scanLines_starts (scan : HeadingScan) (index : Nat) (later : 1 < index)
    (lines : List (List Char)) : (scanLines scan index lines).starts =
      scan.starts ++ startsFrom scan.hierarchy (headingsFrom scan.fence index lines) := by
  induction lines generalizing scan index with
  | nil => simp [scanLines, headingsFrom, startsFrom]
  | cons line rest ih =>
      have started : ¬(index = 1 ∧ scan.starts = [(1, [])]) := by omega
      rw [scanLines, ih _ _ (by omega), scanLine_starts scan index line started, headingsFrom,
        startsFrom_append, List.append_assoc]

/-- The starts that the scanner collects are those of the headings. -/
theorem scanned_starts (some : lines ≠ []) :
    (scanLines {} 1 lines).starts = sectionStarts lines := by
  cases lines with
  | nil => exact absurd rfl some
  | cons line rest =>
      rw [scanLines, scanLines_starts _ _ (by omega), sectionStarts, headingsOf, headingsFrom]
      unfold scanLine fenceStep readHeading
      cases marked : fenceMarker line with
      | some marker =>
          have first : (headingsFrom (toggleFence none marker) 2 rest).head?.any (·.line = 1) =
              false := by
            cases opened : headingsFrom (toggleFence none marker) 2 rest with
            | nil => rfl
            | cons found others =>
                have bounds := headingsFrom_line (opened ▸ List.mem_cons_self)
                have apart : found.line ≠ 1 := by omega
                simp [apart]
          simp [first]
      | none =>
          cases found : heading line with
          | none =>
              have first : (headingsFrom none 2 rest).head?.any (·.line = 1) = false := by
                cases opened : headingsFrom none 2 rest with
                | nil => rfl
                | cons found others =>
                    have bounds := headingsFrom_line (opened ▸ List.mem_cons_self)
                    have apart : found.line ≠ 1 := by omega
                    simp [apart]
              simp [first]
          | some parts => simp [startsFrom, nextHierarchy]

end Scan

/-! ## Sections -/

def sectionSpan (part : DocumentationSection) : Span :=
  (part.startLine, part.endLine)

/-- Starts of lines in order, the last of them within the count. -/
structure StartsWithin (count : Nat) (starts : List (Nat × List String)) : Prop where
  sorted : starts.Pairwise fun first second => first.1 < second.1
  within : ∀ start ∈ starts, start.1 ≤ count

section Sections

variable {count : Nat} {starts : List (Nat × List String)} {lines : List (List Char)}

/-- Every start has its section. -/
theorem sectionsFrom_starts (starting : StartsWithin count starts) :
    (sectionsFrom count starts).map (fun part => (part.startLine, part.headingHierarchy)) =
      starts := by
  induction starts with
  | nil => rfl
  | cons start rest ih =>
      obtain ⟨after, sorted⟩ := List.pairwise_cons.mp starting.sorted
      have others := ih ⟨sorted, fun later member => starting.within later (.tail _ member)⟩
      have within := starting.within start (.head _)
      cases rest with
      | nil => simp [sectionsFrom, within]
      | cons next rest =>
          have before : start.1 ≤ next.1 - 1 := by
            have less := after next (.head _)
            omega
          rw [sectionsFrom, if_pos before, List.map_cons, others]

theorem sectionsFrom_tile {start : Nat × List String}
    (starting : StartsWithin count (start :: starts)) :
    Tiles ((sectionsFrom count (start :: starts)).map sectionSpan) (start.1, count) := by
  induction starts generalizing start with
  | nil =>
      have within := starting.within start (.head _)
      simp only [sectionsFrom, within, if_true, List.map_cons, List.map_nil, sectionSpan]
      exact holding_singleton within
  | cons next rest ih =>
      obtain ⟨after, sorted⟩ := List.pairwise_cons.mp starting.sorted
      have less := after next (.head _)
      have within := starting.within next (.tail _ (.head _))
      have before : start.1 ≤ next.1 - 1 := by omega
      rw [sectionsFrom, if_pos before, List.map_cons]
      have ends : next.1 - 1 ≤ count := by omega
      refine Holding.cons before ends ?_
      rw [show next.1 - 1 + 1 = next.1 by omega]
      exact ih ⟨sorted, fun later member => starting.within later (.tail _ member)⟩

theorem startsFrom_lines (hierarchy : List String) (headings : List Heading) :
    (startsFrom hierarchy headings).map (·.1) = headings.map (·.line) := by
  induction headings generalizing hierarchy with
  | nil => rfl
  | cons next rest ih => simp [startsFrom, ih]

theorem sectionStarts_within (some : lines ≠ []) :
    StartsWithin lines.length (sectionStarts lines) := by
  have positive := List.length_pos_of_ne_nil some
  have numbers : (startsFrom [] (headingsOf lines)).map (·.1) =
      (headingsOf lines).map (·.line) := startsFrom_lines [] _
  have bounds : ∀ start ∈ startsFrom [] (headingsOf lines), 1 ≤ start.1 ∧
      start.1 ≤ lines.length := by
    intro start member
    have listed := List.mem_map_of_mem (f := Prod.fst) member
    rw [numbers] at listed
    obtain ⟨found, inside, same⟩ := List.mem_map.mp listed
    have limits := headingsFrom_line inside
    omega
  have sorted : (startsFrom [] (headingsOf lines)).Pairwise fun first second =>
      first.1 < second.1 := by
    rw [← List.pairwise_map (f := Prod.fst) (R := (· < ·)), numbers, List.pairwise_map]
    exact headingsFrom_sorted
  unfold sectionStarts
  split
  · exact ⟨sorted, fun start member => (bounds start member).2⟩
  case isFalse unheaded =>
    refine ⟨List.pairwise_cons.mpr ⟨fun start member => ?_, sorted⟩,
      List.forall_mem_cons.mpr ⟨positive, fun start member => (bounds start member).2⟩⟩
    have member : start ∈ startsFrom [] (headingsOf lines) := member
    -- the first heading is later than line 1, and the others are later still
    cases headings : headingsOf lines with
    | nil =>
        rw [headings] at member
        cases member
    | cons next rest =>
        rw [headings, List.head?_cons, Option.any_some, decide_eq_true_eq] at unheaded
        have listed := List.mem_map_of_mem (f := Prod.fst) member
        rw [numbers] at listed
        obtain ⟨found, inside, same⟩ := List.mem_map.mp listed
        have ordered := @headingsFrom_sorted none 1 lines
        have first : next ∈ headingsOf lines := headings ▸ List.mem_cons_self
        have limits := headingsFrom_line first
        rw [headingsOf] at headings inside
        rw [headings] at ordered inside
        rcases List.mem_cons.mp inside with rfl | later
        · dsimp only at same ⊢
          omega
        · have less := (List.pairwise_cons.mp ordered).1 found later
          dsimp only at same ⊢
          omega

/-- The sections of a Markdown document are those of its starts. -/
theorem markdownSections_starts (lines : List (List Char)) :
    (markdownSections lines).map (fun part => (part.startLine, part.headingHierarchy)) =
      sectionStarts lines := by
  by_cases none : lines = []
  · subst none
    rfl
  · rw [markdownSections, if_neg none, scanned_starts none]
    exact sectionsFrom_starts (sectionStarts_within none)

/-- The sections of a document; one without lines has the line 1. -/
def documentSections (filePath : String) (lines : List (List Char)) :
    List DocumentationSection :=
  if isMarkdown filePath then markdownSections lines else [⟨1, max 1 lines.length, []⟩]

theorem sectionStarts_head (lines : List (List Char)) :
    ∃ headings rest, sectionStarts lines = (1, headings) :: rest := by
  unfold sectionStarts
  split
  case isTrue headed =>
    cases headings : headingsOf lines with
    | nil => simp [headings] at headed
    | cons next rest =>
        have first : next.line = 1 := by simpa [headings] using headed
        exact ⟨_, _, by rw [startsFrom, first, List.nil_append]⟩
  · exact ⟨_, _, rfl⟩

/-- The sections tile the lines. -/
theorem documentSections_tile (filePath : String) (lines : List (List Char)) :
    Tiles ((documentSections filePath lines).map sectionSpan) (1, max 1 lines.length) := by
  unfold documentSections
  split
  · by_cases none : lines = []
    · rw [markdownSections, if_pos none, none]
      exact holding_singleton (le_refl 1)
    · have positive := List.length_pos_of_ne_nil none
      have whole : max 1 lines.length = lines.length := by omega
      have starting := sectionStarts_within none
      obtain ⟨headings, rest, starts⟩ := sectionStarts_head lines
      rw [markdownSections, if_neg none, scanned_starts none, whole]
      rw [starts] at starting ⊢
      exact sectionsFrom_tile starting
  · exact holding_singleton (Nat.le_max_left 1 lines.length)

theorem section_bounds {filePath : String} {part : DocumentationSection}
    (member : part ∈ documentSections filePath lines) :
    1 ≤ part.startLine ∧ part.startLine ≤ part.endLine ∧
      part.endLine ≤ max 1 lines.length := by
  have tiles := documentSections_tile filePath lines
  have listed := List.mem_map_of_mem (f := sectionSpan) member
  obtain ⟨first, last⟩ := tiles.inside _ listed
  exact ⟨first, tiles.separated.proper _ listed, last⟩

end Sections

end Codenaut.Indexing
