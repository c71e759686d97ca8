import Codenaut.Indexing.DocumentationSections
import Codenaut.Spans.Outline

/-!
# Heading paths

The headings in force where a section starts, against the hierarchy that the
section carries. The scanner takes the place of a title in the hierarchy for its
level, so the two agree until a document skips a level and comes back.
-/

set_option autoImplicit false

namespace Codenaut.Indexing

open Codenaut.Spans Codenaut.Text

/-- The headings in force at a line. -/
def pathAt (lines : List (List Char)) (number : Nat) : List Heading :=
  inForce (·.level) ((headingsOf lines).filter (·.line ≤ number))

/-- The section carries the headings in force, each deeper than the one before
and its own heading the last. -/
structure RealPath (lines : List (List Char)) (part : DocumentationSection) : Prop where
  path : part.headingHierarchy = (pathAt lines part.startLine).map (·.title)
  rising : Rising (·.level) (pathAt lines part.startLine)
  own : ∀ found ∈ headingsOf lines, found.line = part.startLine →
    (pathAt lines part.startLine).getLast? = some found

/-- The heading is deeper than all headings in force, or those of every level
above its own are in force. -/
def WellPlaced (before : List Heading) (next : Heading) : Prop :=
  (∀ outer ∈ inForce (·.level) before, outer.level < next.level) ∨
    ∀ number, 1 ≤ number → number < next.level →
      ∃ outer ∈ inForce (·.level) before, outer.level = number

/-- The hierarchy that the scanner keeps after these headings. -/
def hierarchyOf (headings : List Heading) : List String :=
  headings.foldl nextHierarchy []

section Paths

variable {lines : List (List Char)} {before headings : List Heading} {next : Heading}

theorem hierarchyOf_snoc (before : List Heading) (next : Heading) :
    hierarchyOf (before ++ [next]) =
      (hierarchyOf before).take (next.level - 1) ++ [next.title] := by
  rw [hierarchyOf, List.foldl_append]
  rfl

theorem heading_level {line : List Char} {parts : Nat × String} (read : heading line = some parts) :
    1 ≤ parts.1 := by
  unfold heading at read
  dsimp only at read
  split at read
  · cases read
  case isFalse bounded =>
    have positive := Nat.pos_of_ne_zero (not_or.mp bounded).1
    split at read
    · split at read
      · cases read
      · cases read
        exact positive
    · split at read
      · cases read
      · split at read <;> cases read <;> exact positive

theorem headingsFrom_level {fence : Option Char} {number : Nat} {found : Heading}
    (member : found ∈ headingsFrom fence number lines) : 1 ≤ found.level := by
  induction lines generalizing fence number with
  | nil => cases member
  | cons line rest ih =>
      rw [headingsFrom, List.mem_append, Option.mem_toList] at member
      rcases member with here | later
      · unfold readHeading at here
        split at here
        · obtain ⟨parts, read, rfl⟩ := Option.map_eq_some_iff.mp here
          exact heading_level read
        · cases here
      · exact ih later

/-- One heading keeps the hierarchy right just where it is well placed. -/
theorem hierarchyOf_snoc_iff
    (agreed : hierarchyOf before = (inForce (·.level) before).map (·.title))
    (positive : ∀ outer ∈ before, 1 ≤ outer.level) :
    hierarchyOf (before ++ [next]) = (inForce (·.level) (before ++ [next])).map (·.title) ↔
      WellPlaced before next := by
  have rising := @inForce_rising Heading (·.level) before
  have levels : ∀ outer ∈ inForce (·.level) before, 1 ≤ outer.level := fun outer member =>
    positive outer ((inForce_sublist before).mem member)
  have most := rising.count_le next.level levels
  have within := List.countP_le_length (p := fun outer : Heading => decide (outer.level < next.level))
    (l := inForce (·.level) before)
  rw [WellPlaced, ← rising.count_eq_iff next.level levels, hierarchyOf_snoc, inForce_snoc,
    rising.filter_lt, agreed, List.map_append, List.map_take, List.map_singleton,
    List.append_left_inj]
  have shallow : (∀ outer ∈ inForce (·.level) before, outer.level < next.level) ↔
      (inForce (·.level) before).countP (·.level < next.level) =
        (inForce (·.level) before).length := by
    rw [List.countP_eq_length]
    simp only [decide_eq_true_eq]
  rw [shallow]
  constructor
  · intro same
    have lengths := congrArg List.length same
    rw [List.length_take, List.length_take, List.length_map] at lengths
    omega
  · intro placed
    rcases placed with all | full
    · rw [all, List.take_of_length_le, List.take_of_length_le]
      · rw [List.length_map]
      · rw [List.length_map]
        omega
    · rw [full]

/-- All hierarchies are right just where all headings are well placed. -/
theorem hierarchies_iff (positive : ∀ found ∈ headings, 1 ≤ found.level) :
    (∀ before next after, headings = before ++ next :: after →
      hierarchyOf (before ++ [next]) = (inForce (·.level) (before ++ [next])).map (·.title)) ↔
    ∀ before next after, headings = before ++ next :: after → WellPlaced before next := by
  have earlier : ∀ before next after, headings = before ++ next :: after →
      ∀ outer ∈ before, 1 ≤ outer.level := fun before next after split outer member =>
    positive outer (split ▸ List.mem_append_left _ member)
  constructor
  · intro agreed before next after split
    have right : hierarchyOf before = (inForce (·.level) before).map (·.title) := by
      cases before using List.reverseRecOn with
      | nil => rfl
      | append_singleton front last =>
          exact agreed front last (next :: after) (by simpa using split)
    exact (hierarchyOf_snoc_iff right (earlier before next after split)).mp
      (agreed before next after split)
  · intro placed before
    induction before using List.reverseRecOn with
    | nil =>
        intro next after split
        exact (hierarchyOf_snoc_iff rfl (by simp)).mpr
          (placed [] next after split)
    | append_singleton front last ih =>
        intro next after split
        have right := ih last (next :: after) (by simpa using split)
        exact (hierarchyOf_snoc_iff right (earlier _ next after split)).mpr
          (placed _ next after split)

/-- A start is the line of a heading, with the hierarchy kept there. -/
theorem mem_startsFrom {hierarchy : List String} {start : Nat × List String} :
    start ∈ startsFrom hierarchy headings ↔ ∃ before next after,
      headings = before ++ next :: after ∧
      start = (next.line, (before ++ [next]).foldl nextHierarchy hierarchy) := by
  induction headings generalizing hierarchy with
  | nil => simp [startsFrom]
  | cons first rest ih =>
      rw [startsFrom, List.mem_cons, ih]
      constructor
      · rintro (same | ⟨before, next, after, rfl, same⟩)
        · exact ⟨[], first, rest, rfl, same⟩
        · exact ⟨first :: before, next, after, rfl, same⟩
      · rintro ⟨before, next, after, split, same⟩
        cases before with
        | nil =>
            cases split
            exact .inl same
        | cons head before =>
            cases split
            exact .inr ⟨before, next, after, rfl, same⟩

theorem headings_upTo {after : List Heading} (split : headingsOf lines = before ++ next :: after) :
    (headingsOf lines).filter (·.line ≤ next.line) = before ++ [next] := by
  have sorted := @headingsFrom_sorted none 1 lines
  rw [← headingsOf, split, List.pairwise_append] at sorted
  obtain ⟨-, rest, apart⟩ := sorted
  have kept : before.filter (·.line ≤ next.line) = before := by
    refine List.filter_eq_self.mpr fun outer member => ?_
    have less := apart outer member next (.head _)
    exact decide_eq_true (Nat.le_of_lt less)
  have dropped : after.filter (·.line ≤ next.line) = [] := by
    refine List.filter_eq_nil_iff.mpr fun later member => ?_
    have less := (List.pairwise_cons.mp rest).1 later member
    rw [decide_eq_true_eq]
    omega
  rw [split, List.filter_append, List.filter_cons_of_pos (by simp), kept, dropped]

theorem pathAt_heading {after : List Heading}
    (split : headingsOf lines = before ++ next :: after) :
    pathAt lines next.line = inForce (·.level) (before ++ [next]) := by
  rw [pathAt, headings_upTo split]

/-- A section's own heading is the last of its path. -/
theorem pathAt_getLast (member : next ∈ headingsOf lines) :
    (pathAt lines next.line).getLast? = some next := by
  obtain ⟨before, after, split⟩ := List.append_of_mem member
  rw [pathAt_heading split, inForce_snoc, List.getLast?_concat]

/-- No heading is in force before the first one. -/
theorem pathAt_unheaded (unheaded : ¬(headingsOf lines).head?.any (·.line = 1) = true) :
    pathAt lines 1 = [] := by
  have none : (headingsOf lines).filter (·.line ≤ 1) = [] := by
    refine List.filter_eq_nil_iff.mpr fun found member first => ?_
    cases headings : headingsOf lines with
    | nil =>
        rw [headings] at member
        cases member
    | cons opening rest =>
        have sorted := @headingsFrom_sorted none 1 lines
        have bounds := @headingsFrom_line none 1 lines opening
        rw [← headingsOf, headings] at sorted bounds
        have positive := (bounds (.head _)).1
        have less := (List.pairwise_cons.mp sorted).1
        simp only [headings, List.head?_cons, Option.any_some, decide_eq_true_eq] at unheaded first
        rw [headings] at member
        rcases List.mem_cons.mp member with rfl | later
        · omega
        · have more := less found later
          omega
  rw [pathAt, none]
  rfl

/-- The starts carry the paths just where the scanner's hierarchies are right. -/
theorem starts_real_iff :
    (∀ start ∈ sectionStarts lines, start.2 = (pathAt lines start.1).map (·.title)) ↔
    ∀ before next after, headingsOf lines = before ++ next :: after →
      hierarchyOf (before ++ [next]) = (inForce (·.level) (before ++ [next])).map (·.title) := by
  constructor
  · intro real before next after split
    have listed : (next.line, hierarchyOf (before ++ [next])) ∈ sectionStarts lines :=
      List.mem_append_right _ (mem_startsFrom.mpr ⟨before, next, after, split, rfl⟩)
    have same := real _ listed
    rwa [pathAt_heading split] at same
  · intro agreed start listed
    rcases List.mem_append.mp listed with opening | listed
    · split at opening
      · cases opening
      case isFalse unheaded =>
        rw [List.mem_singleton.mp opening, pathAt_unheaded unheaded]
        rfl
    · obtain ⟨before, next, after, split, rfl⟩ := mem_startsFrom.mp listed
      rw [pathAt_heading split]
      exact agreed before next after split

end Paths

/-- Every section of a Markdown document carries the headings in force just where
every heading is well placed after the earlier ones. -/
theorem heading_paths_real_iff (lines : List (List Char)) :
    (∀ part ∈ markdownSections lines, RealPath lines part) ↔
      ∀ before next after, headingsOf lines = before ++ next :: after →
        WellPlaced before next := by
  have positive : ∀ found ∈ headingsOf lines, 1 ≤ found.level := fun found member =>
    headingsFrom_level member
  rw [← hierarchies_iff positive, ← starts_real_iff, ← markdownSections_starts lines,
    List.forall_mem_map]
  refine forall₂_congr fun part member => ⟨fun real => real.path, fun path => ?_⟩
  exact ⟨path, inForce_rising _, fun found listed same => same ▸ pathAt_getLast listed⟩

/-- Two headings of one level under a skipped one. -/
theorem siblings_nested : ¬ ∀ part ∈ markdownSections (splitlines "# A\n### C\n### D\n".toList),
    RealPath (splitlines "# A\n### C\n### D\n".toList) part := by
  intro real
  have listed : ⟨3, 3, ["A", "C", "D"]⟩ ∈ markdownSections
      (splitlines "# A\n### C\n### D\n".toList) := by
    decide +kernel
  have path := (real _ listed).path
  revert path
  decide +kernel

end Codenaut.Indexing
