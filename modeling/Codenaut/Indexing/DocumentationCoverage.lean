import Codenaut.Indexing.ChunkCitations
import Codenaut.Indexing.DocumentationSections
import Codenaut.Indexing.ParserSettings
import Mathlib.Data.List.GetD

/-!
# Coverage of a document

The paragraphs of a section hold its filled lines, packing keeps the paragraphs
in order, and a paragraph that is too large is cut between lines. So the chunks
of a document without warnings hold every filled line once.
-/

set_option autoImplicit false

namespace Codenaut.Indexing

open Codenaut.Core Codenaut.Db Codenaut.Relational Codenaut.Spans Codenaut.Text

/-- The line is there and is not blank. -/
def Filled (lines : List (List Char)) (number : Nat) : Prop :=
  strip (lines.getD (number - 1) []) ≠ []

section Paragraphs

variable {lines : List (List Char)} {endLine : Nat}

theorem paragraphsFrom_holding {count number : Nat} {paragraphStart : Option Nat}
    {fence : Option Char} (closing : number + count = endLine + 1)
    (before : ∀ start ∈ paragraphStart, start < number)
    (tracked : paragraphStart = none → fence = none) :
    Holding (Filled lines)
      (paragraphsFrom lines endLine paragraphStart fence (List.range' number count))
      (paragraphStart.getD number, endLine) := by
  induction count generalizing number paragraphStart fence with
  | zero =>
      cases paragraphStart with
      | none =>
          refine holding_nil fun other within => ?_
          have starts : number ≤ other := within.1
          have ends : other ≤ endLine := within.2
          omega
      | some start =>
          have less := before start rfl
          have proper : start ≤ endLine := by omega
          exact holding_singleton proper
  | succ count ih =>
      rw [List.range'_succ, paragraphsFrom]
      have opened : paragraphStart.getD number ≤ number := by
        cases paragraphStart with
        | none => exact le_refl _
        | some start => exact Nat.le_of_lt (before start rfl)
      have goesOn : ∀ next : Option Char, Holding (Filled lines)
          (paragraphsFrom lines endLine (some (paragraphStart.getD number)) next
            (List.range' (number + 1) count)) (paragraphStart.getD number, endLine) := fun next =>
        @ih (number + 1) (some (paragraphStart.getD number)) next (by omega)
          (fun start same => by
            cases same
            omega)
          (fun absent => nomatch absent)
      split
      · exact goesOn _
      · split
        case isTrue closes =>
          have rest := @ih (number + 1) none fence (by omega) (by simp) (fun _ => closes.2)
          -- the blank line belongs to no paragraph
          have skipped := rest.widen (Nat.le_succ number) fun other first last filled => by
            have same : other = number := by omega
            exact filled (same ▸ closes.1)
          cases paragraphStart with
          | none => exact skipped
          | some start =>
              have less := before start rfl
              refine Holding.cons (by omega) (by omega) ?_
              rwa [show number - 1 + 1 = number by omega]
        · exact goesOn _

/-- The paragraphs of a section hold its filled lines. -/
theorem paragraphRanges_holding {startLine : Nat} (proper : startLine ≤ endLine + 1) :
    Holding (Filled lines) (paragraphRanges lines startLine endLine) (startLine, endLine) :=
  @paragraphsFrom_holding lines endLine (endLine + 1 - startLine) startLine none none (by omega)
    (by simp) fun _ => rfl

end Paragraphs

/-! ## Packing -/

def fitsChunk (chunker : DocumentationChunker) (lines : List (List Char)) (start stop : Nat) :
    Bool :=
  (lineSlice lines start stop).utf8ByteSize ≤ chunker.maxChunkBytes

section Packing

variable {chunker : DocumentationChunker} {lines : List (List Char)} {start stop : Nat}
  {ranges : List Span}

theorem not_fitsChunk : (lineSlice lines start stop).utf8ByteSize > chunker.maxChunkBytes ↔
    ¬fitsChunk chunker lines start stop = true := by
  rw [fitsChunk, decide_eq_true_eq, Nat.not_le]

/-- Lines that fit one by one are packed as spans of one line are. -/
theorem splitFrom_groups {numbers : List Nat}
    (made : splitFrom chunker lines start stop numbers = some ranges) :
    ranges = groupsFrom (fitsChunk chunker lines) start stop
      (numbers.map fun number => (number, number)) ∧
    ∀ number ∈ numbers, fitsChunk chunker lines number number = true := by
  induction numbers generalizing start stop ranges with
  | nil =>
      cases made
      exact ⟨rfl, fun number member => nomatch member⟩
  | cons number rest ih =>
      rw [splitFrom] at made
      split at made
      · cases made
      case isFalse single =>
        have alone : fitsChunk chunker lines number number = true :=
          Decidable.not_not.mp fun large => single (not_fitsChunk.mpr large)
        rw [List.map_cons, groupsFrom, List.forall_mem_cons]
        split at made
        case isTrue large =>
          obtain ⟨later, laterMade, rfl⟩ := Option.map_eq_some_iff.mp made
          obtain ⟨same, others⟩ := ih laterMade
          rw [if_neg (not_fitsChunk.mp large), same]
          exact ⟨rfl, alone, others⟩
        case isFalse small =>
          obtain ⟨same, others⟩ := ih made
          rw [if_pos (Decidable.not_not.mp fun large => small (not_fitsChunk.mpr large))]
          exact ⟨same, alone, others⟩

theorem splitLineRange_groups (proper : start ≤ stop)
    (made : splitLineRange chunker lines start stop = some ranges) :
    ranges = groups (fitsChunk chunker lines) (singles (start, stop)) ∧
    ∀ span ∈ singles (start, stop), fitsChunk chunker lines span.1 span.2 = true := by
  obtain ⟨same, fit⟩ := splitFrom_groups made
  refine ⟨?_, fun span member => ?_⟩
  · have counted : stop + 1 - start = (stop - start) + 1 := by omega
    rw [counted, List.range'_succ] at same fit
    rw [same, singles, counted, List.range'_succ, List.map_cons, groupsFrom, groups,
      if_pos (fit start (.head _))]
  · obtain ⟨number, listed, rfl⟩ := List.mem_map.mp member
    exact fit number listed

/-- A closed group is cut into ranges that fit. -/
theorem closeRange_tiles (proper : start ≤ stop)
    (made : closeRange chunker lines start stop = some ranges) :
    Tiles ranges (start, stop) ∧
      ∀ range ∈ ranges, fitsChunk chunker lines range.1 range.2 = true := by
  unfold closeRange at made
  split at made
  · obtain ⟨same, fit⟩ := splitLineRange_groups proper made
    obtain ⟨blocks, packed⟩ := @groups_packed (fitsChunk chunker lines) (singles (start, stop))
    rw [same, packed.hulls]
    refine ⟨(singles_tile _).hulls packed.toPartition, fun range member => ?_⟩
    obtain ⟨block, listed, rfl⟩ := List.mem_map.mp member
    rcases packed.fitting block listed with ⟨span, rfl⟩ | fits
    · exact fit span (packed.joined ▸ List.mem_flatten.mpr ⟨[span], listed, .head _⟩)
    · exact fits
  case isFalse small =>
    cases made
    refine ⟨holding_singleton proper, fun range member => ?_⟩
    rw [List.mem_singleton.mp member]
    exact Decidable.not_not.mp fun large => small (not_fitsChunk.mpr large)

/-- Packing closes the greedy groups of the paragraphs one by one. -/
theorem packFrom_groups {paragraphs : List Span}
    (made : packFrom chunker lines start stop paragraphs = some ranges) :
    ∃ parts : List (List Span), ranges = parts.flatten ∧
      List.Forall₂ (fun part whole => closeRange chunker lines whole.1 whole.2 = some part)
        parts (groupsFrom (fitsChunk chunker lines) start stop paragraphs) := by
  induction paragraphs generalizing start stop ranges with
  | nil => exact ⟨[ranges], by simp, .cons made .nil⟩
  | cons candidate rest ih =>
      rw [packFrom] at made
      rw [groupsFrom]
      split at made
      case isTrue fits =>
        rw [if_pos (show fitsChunk chunker lines start candidate.2 = true from
          decide_eq_true fits)]
        exact ih made
      case isFalse large =>
        rw [if_neg (not_fitsChunk.mp (Nat.not_le.mp large))]
        split at made
        · cases made
        case h_2 closed closing =>
          obtain ⟨later, laterMade, rfl⟩ := Option.map_eq_some_iff.mp made
          obtain ⟨parts, rfl, others⟩ := ih laterMade
          exact ⟨closed :: parts, rfl, .cons closing others⟩

theorem packRanges_groups {paragraphs : List Span}
    (made : packRanges chunker lines paragraphs = some ranges) :
    ∃ parts : List (List Span), ranges = parts.flatten ∧
      List.Forall₂ (fun part whole => closeRange chunker lines whole.1 whole.2 = some part)
        parts (groups (fitsChunk chunker lines) paragraphs) := by
  cases paragraphs with
  | nil =>
      cases made
      exact ⟨[], rfl, .nil⟩
  | cons first rest => exact packFrom_groups made

theorem forall_flatten_of_forall₂ {α β : Type} {Good : α → Prop} {parts : List (List α)}
    {wholes : List β}
    (good : List.Forall₂ (fun part _ => ∀ item ∈ part, Good item) parts wholes) :
    ∀ item ∈ parts.flatten, Good item := by
  induction good with
  | nil => exact fun item member => nomatch member
  | cons first _ ih =>
      rw [List.flatten_cons]
      exact List.forall_mem_append.mpr ⟨first, ih⟩

/-- Packing keeps what the paragraphs hold, in ranges that fit. -/
theorem packRanges_holding {marked : Nat → Prop} {outer : Span} {paragraphs : List Span}
    (holding : Holding marked paragraphs outer)
    (made : packRanges chunker lines paragraphs = some ranges) :
    Holding marked ranges outer ∧
      ∀ range ∈ ranges, fitsChunk chunker lines range.1 range.2 = true := by
  obtain ⟨parts, rfl, closed⟩ := packRanges_groups made
  obtain ⟨blocks, packed⟩ := @groups_packed (fitsChunk chunker lines) paragraphs
  have grouped := holding.hulls packed.toPartition
  rw [← packed.hulls] at grouped
  have closing := ((List.forall₂_and_left _ _).mpr ⟨grouped.separated.proper, closed.flip⟩).imp
    fun group part both => closeRange_tiles both.1 both.2
  exact ⟨grouped.flatten (closing.imp fun _ _ both => both.1.holding).flip,
    forall_flatten_of_forall₂ (closing.imp fun _ _ both => both.2).flip⟩

end Packing

/-! ## Chunks -/

/-- The chunk is cut from a section and carries its headings. -/
structure CutFromSection (chunker : DocumentationChunker) (part : DocumentationSection)
    (chunk : ContentChunk) : Prop where
  first : part.startLine ≤ chunk.startLine
  last : chunk.endLine ≤ part.endLine
  headings : chunk.headingHierarchy = part.headingHierarchy
  bounded : chunk.content.utf8ByteSize ≤ chunker.maxChunkBytes

section Chunks

variable {chunker : DocumentationChunker} {platform : Platform} {scope : ChunkScope}
  {filePath : String} {commitSha : CommitSha} {lines : List (List Char)}
  {part : DocumentationSection} {chunks : List ContentChunk}

/-- A slice without text has no filled line. -/
theorem not_filled_of_empty {startLine endLine number : Nat}
    (empty : lineSlice lines startLine endLine = "")
    (within : Spans.Within number (startLine, endLine)) (positive : 1 ≤ startLine) :
    ¬Filled lines number := by
  have starts : startLine ≤ number := within.1
  have ends : number ≤ endLine := within.2
  intro filled
  apply filled
  by_cases there : number - 1 < lines.length
  · have member : lines[number - 1] ∈ (lines.take endLine).drop (startLine - 1) := by
      refine List.mem_drop_iff_getElem.mpr ⟨number - startLine, ?_, ?_⟩
      · rw [List.length_take]
        omega
      · simp only [List.getElem_take]
        congr 1
        omega
    have joined : joinLines ((lines.take endLine).drop (startLine - 1)) = [] := by
      simpa [lineSlice] using empty
    rw [List.getD_eq_getElem _ _ there, eq_nil_of_joinRows joined member]
    rfl
  · rw [List.getD_eq_default _ _ (Nat.not_lt.mp there)]
    rfl

/-- The chunks of a section hold its filled lines. -/
theorem sectionChunks_holding (proper : part.startLine ≤ part.endLine)
    (positive : 1 ≤ part.startLine)
    (made : sectionChunks chunker platform scope filePath commitSha lines part = some chunks) :
    Holding (Filled lines) (chunks.map chunkSpan) (sectionSpan part) ∧
      ∀ chunk ∈ chunks, CutFromSection chunker part chunk := by
  unfold sectionChunks at made
  split at made
  · cases made
  · obtain ⟨packed, packing, rfl⟩ := Option.map_eq_some_iff.mp made
    have paragraphs := @paragraphRanges_holding lines part.endLine part.startLine (by omega)
    obtain ⟨holding, fit⟩ := packRanges_holding paragraphs packing
    refine ⟨?_, fun chunk member => ?_⟩
    · rw [List.filter_map, List.map_map]
      have same : chunkSpan ∘ documentationChunk platform scope filePath commitSha lines
          part.headingHierarchy = id := rfl
      rw [same, List.map_id]
      refine holding.filter _ fun range member dropped number within => ?_
      have empty : lineSlice lines range.1 range.2 = "" :=
        Decidable.not_not.mp (of_decide_eq_false dropped)
      exact not_filled_of_empty empty within (positive.trans (holding.inside range member).1)
    · obtain ⟨listed, -⟩ := List.mem_filter.mp member
      obtain ⟨range, inside, rfl⟩ := List.mem_map.mp listed
      obtain ⟨first, last⟩ := holding.inside range inside
      exact ⟨first, last, rfl, of_decide_eq_true (fit range inside)⟩

end Chunks

/-! ## Documents -/

/-- The chunks come in order, each from one section, and hold every filled line
once. -/
structure DocumentCovered (chunker : DocumentationChunker) (filePath : String)
    (lines : List (List Char)) (chunks : List ContentChunk) : Prop where
  proper : ∀ chunk ∈ chunks, chunk.startLine ≤ chunk.endLine
  ascending : chunks.Pairwise fun left right => left.endLine < right.startLine
  sections : ∀ chunk ∈ chunks, ∃ part ∈ documentSections filePath lines,
    CutFromSection chunker part chunk
  cut : ∀ chunk ∈ chunks, CutFrom lines chunk
  once : ∀ number, 1 ≤ number → Filled lines number →
    chunks.countP (fun chunk => chunk.startLine ≤ number ∧ number ≤ chunk.endLine) = 1
  ordinals : chunks.map (·.ordinal) = List.range chunks.length

section Documents

variable {chunker : DocumentationChunker} {platform : Platform} {scope : ChunkScope}
  {filePath : String} {sourceText : List Char} {commitSha : CommitSha}
  {lines : List (List Char)} {chunks : List ContentChunk}

theorem numbered_spans (chunks : List ContentChunk) :
    (numbered chunks).map chunkSpan = chunks.map chunkSpan := by
  apply List.ext_getElem (by simp [numbered])
  intro place _ _
  simp [numbered, chunkSpan]

/-- Chunks in order stay as they are when they are sorted. -/
theorem sortOn_of_separated {hash : ContentChunk → String}
    (separated : Separated (chunks.map chunkSpan)) :
    sortOn (fun chunk => toLex (chunk.startLine, toLex (chunk.endLine, hash chunk))) chunks =
      chunks := by
  apply List.Pairwise.insertionSort_eq
  refine (List.pairwise_map.mp separated.apart).imp_of_mem fun {left right} inside _ less => ?_
  have proper := separated.proper (chunkSpan left) (List.mem_map_of_mem inside)
  have first : left.startLine < right.startLine := Nat.lt_of_le_of_lt proper less
  exact Prod.Lex.toLex_le_toLex.mpr (.inl first)

/-- Without warnings every section has its chunks. -/
theorem sections_chunked {sections : List DocumentationSection}
    (quiet : ((sections.map (sectionChunks chunker platform scope filePath commitSha
      lines)).flatMap fun result =>
        if result.isSome then [] else ["documentation_section_too_large"]) = []) :
    ∃ parts : List (List ContentChunk), List.Forall₂
      (fun chunks part => sectionChunks chunker platform scope filePath commitSha lines part =
        some chunks) parts sections ∧
      (sections.map (sectionChunks chunker platform scope filePath commitSha
        lines)).flatMap (·.getD []) = parts.flatten := by
  induction sections with
  | nil => exact ⟨[], .nil, rfl⟩
  | cons part rest ih =>
      rw [List.map_cons, List.flatMap_cons, List.append_eq_nil_iff] at quiet
      obtain ⟨parts, made, joined⟩ := ih quiet.2
      cases here : sectionChunks chunker platform scope filePath commitSha lines part with
      | none => simp [here] at quiet
      | some chunks =>
          refine ⟨chunks :: parts, .cons here made, ?_⟩
          rw [List.map_cons, List.flatMap_cons, here, joined, Option.getD_some,
            List.flatten_cons]

/-- The chunks of all sections hold what the sections hold. -/
theorem parts_holding {parts : List (List ContentChunk)}
    (made : List.Forall₂
      (fun chunks part => sectionChunks chunker platform scope filePath commitSha lines part =
        some chunks) parts (documentSections filePath lines)) :
    Holding (Filled lines) (parts.flatten.map chunkSpan) (1, max 1 lines.length) ∧
      ∀ chunk ∈ parts.flatten, ∃ part ∈ documentSections filePath lines,
        CutFromSection chunker part chunk := by
  have tiles := documentSections_tile filePath lines
  have sections := ((List.forall₂_and_left _ _).mpr
    ⟨fun part member => And.intro member
      (List.mem_map_of_mem (f := sectionSpan) member), made.flip⟩).imp
    fun part chunks both => And.intro both.1.1 (sectionChunks_holding
      (tiles.separated.proper _ both.1.2) (tiles.inside _ both.1.2).1 both.2)
  constructor
  · rw [List.map_flatten]
    refine tiles.holding.flatten (List.forall₂_map_left_iff.mpr (List.forall₂_map_right_iff.mpr ?_))
    exact (sections.imp fun _ _ both => both.2.1).flip
  · exact forall_flatten_of_forall₂ (sections.imp fun part chunks both chunk member =>
      ⟨part, both.1, both.2.2 chunk member⟩).flip

/-- A documentation file without warnings has the chunks of all its sections. -/
theorem chunkDocumentation_parts (warned : 0 < chunker.maxWarnings)
    (quiet : (chunkDocumentation chunker platform scope filePath sourceText commitSha).warnings =
      []) : ∃ parts : List (List ContentChunk), List.Forall₂
      (fun chunks part => sectionChunks chunker platform scope filePath commitSha
        (splitlines (normalizeNewlines sourceText)) part = some chunks) parts
      (documentSections filePath (splitlines (normalizeNewlines sourceText))) ∧
    (chunkDocumentation chunker platform scope filePath sourceText commitSha).chunks =
      numbered (sortOn (fun chunk => toLex (chunk.startLine, toLex (chunk.endLine,
        chunk.contentHash))) parts.flatten) := by
  unfold chunkDocumentation at quiet ⊢
  by_cases unsupported : (!isMarkdown filePath && !isPlainText filePath) = true
  · rw [if_pos unsupported] at quiet
    cases quiet
  · rw [if_neg unsupported] at quiet ⊢
    dsimp only at quiet ⊢
    rw [← documentSections] at quiet ⊢
    split at quiet
    · cases quiet
    case isFalse counted =>
      rw [if_neg counted]
      have unwarned := (List.take_eq_nil_iff.mp quiet).resolve_left (Nat.ne_of_gt warned)
      obtain ⟨parts, made, joined⟩ := sections_chunked unwarned
      exact ⟨parts, made, by rw [joined]⟩

end Documents

/-- The sections of a documentation file tile its lines, and without warnings its
chunks hold every line that is not blank once. -/
theorem documentation_covered (settings : ParserSettings) (platform : Platform)
    (scope : ChunkScope) (filePath : String) (sourceText : List Char) (commitSha : CommitSha)
    (quiet : (chunkDocumentation (ParserLimits.fromSettings settings).documentationChunker platform
      scope filePath sourceText commitSha).warnings = []) :
    Tiles ((documentSections filePath (splitlines (normalizeNewlines sourceText))).map sectionSpan)
      (1, max 1 (splitlines (normalizeNewlines sourceText)).length) ∧
    DocumentCovered (ParserLimits.fromSettings settings).documentationChunker filePath
      (splitlines (normalizeNewlines sourceText))
      (chunkDocumentation (ParserLimits.fromSettings settings).documentationChunker platform scope
        filePath sourceText commitSha).chunks := by
  have tiles := documentSections_tile filePath (splitlines (normalizeNewlines sourceText))
  refine ⟨tiles, ?_⟩
  have warned : 0 < (ParserLimits.fromSettings settings).documentationChunker.maxWarnings :=
    settings.warnings.1
  obtain ⟨parts, made, chunked⟩ := chunkDocumentation_parts warned quiet
  obtain ⟨holding, sections⟩ := parts_holding made
  rw [sortOn_of_separated holding.separated] at chunked
  have cut := fun chunk member => @chunkDocumentation_cut platform scope chunk
    (ParserLimits.fromSettings settings).documentationChunker filePath sourceText commitSha member
  rw [chunked] at cut ⊢
  rw [← numbered_spans] at holding
  refine ⟨fun chunk member => ?_, List.pairwise_map.mp holding.separated.apart,
    fun chunk member => ?_, cut, fun number positive filled => ?_, numbered_ordinals _⟩
  · exact holding.separated.proper (chunkSpan chunk) (List.mem_map_of_mem member)
  · obtain ⟨piece, listed, same⟩ := numbered_among member
    obtain ⟨part, inside, pieceCut⟩ := sections piece listed
    rw [same]
    exact ⟨part, inside, pieceCut.first, pieceCut.last, pieceCut.headings, pieceCut.bounded⟩
  · have there : number ≤ max 1 (splitlines (normalizeNewlines sourceText)).length := by
      by_contra late
      apply filled
      rw [List.getD_eq_default _ _ (by omega)]
      rfl
    have counted := holding.separated.count_within (holding.held number ⟨positive, there⟩ filled)
    rwa [List.countP_map] at counted

namespace DocumentSamples

/-- The defaults, with small limits. -/
def smallSettings : ParserSettings where
  embeddingModelIdentifier := "model"
  embeddingModelRevision := "revision"
  embeddingDimension := 768
  parserMaxChunkBytes := 512
  parserMaxDocumentSectionBytes := 1024

/-- Documents may be no larger than the content of a chunk. -/
def tightSettings : ParserSettings where
  embeddingModelIdentifier := "model"
  embeddingModelRevision := "revision"
  embeddingDimension := 768
  embeddingMaxDocumentBytes := 1024
  parserMaxChunkBytes := 1024

/-- Two headings and a blank line. -/
def guideText : List Char := "# A\nb\n\n## C\nd\n".toList

end DocumentSamples

open ReceiverSamples CitationSamples DocumentSamples in
theorem guide_covered :
    Tiles ((documentSections "guide.md" (splitlines (normalizeNewlines guideText))).map sectionSpan)
      (1, max 1 (splitlines (normalizeNewlines guideText)).length) ∧
    DocumentCovered (ParserLimits.fromSettings smallSettings).documentationChunker "guide.md"
      (splitlines (normalizeNewlines guideText))
      (chunkDocumentation (ParserLimits.fromSettings smallSettings).documentationChunker platform
        chunkScope "guide.md" guideText "commit").chunks :=
  documentation_covered smallSettings platform chunkScope "guide.md" guideText "commit"
    (by decide +kernel)

end Codenaut.Indexing
