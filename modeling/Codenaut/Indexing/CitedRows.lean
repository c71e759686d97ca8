import Codenaut.Indexing.DocumentationCoverage
import Codenaut.Indexing.FencedCode
import Codenaut.Indexing.SymbolSplits

/-!
# Texts that are cited line by line

Under which texts the chunks of every limits setting hold the rows that they cite:
each statement that can be cut must stand in lines that are its rows, and a document
must have no other separator down to its last written line.
-/

set_option autoImplicit false

namespace Codenaut.Indexing

open Codenaut.Db Codenaut.Relational Codenaut.Spans Codenaut.Text

/-! ## Statements that can be cut -/

/-- The lines from the first statement to the last hold some text. -/
def HasText (lines : List (List Char)) (run : List SourceSegment) : Prop :=
  lineSlice lines (hull (run.map segmentSpan)).1 (hull (run.map segmentSpan)).2 ≠ ""

/-- Within a limit on bytes, the runs of statements are divided greedily into
groups that hold text and fit. -/
def Divides (limit : Nat) (lines : List (List Char)) (statements : List SourceSegment) : Prop :=
  ∀ run ∈ contiguousRuns statements, ∀ group ∈ groups
      (fun start stop => decide ((lineSlice lines start stop).utf8ByteSize ≤ limit))
      (run.map segmentSpan),
    lineSlice lines group.1 group.2 ≠ "" ∧ (lineSlice lines group.1 group.2).utf8ByteSize ≤ limit

/-- The statements outside definitions: of the module, up to a run without text; of a
class with a header none of whose runs is without text; of a function that a smaller
limit divides. -/
inductive CutStatement (parsed : ParsedFile) (lines : List (List Char)) : SourceSegment → Prop where
  | module {before after : List (List SourceSegment)} {run : List SourceSegment}
      {statement : SourceSegment} :
      contiguousRuns parsed.moduleSegments = before ++ run :: after →
      (∀ earlier ∈ before, HasText lines earlier) → HasText lines run → statement ∈ run →
      CutStatement parsed lines statement
  | overview {symbol : ParsedSymbol} {statement : SourceSegment} : symbol ∈ parsed.symbols →
      symbol.symbolType = .classType → symbol.headerText ≠ "" →
      (∀ run ∈ contiguousRuns (elementsOf symbol), HasText lines run) →
      statement ∈ elementsOf symbol → CutStatement parsed lines statement
  | body {symbol : ParsedSymbol} {limit : Nat} {statement : SourceSegment} :
      symbol ∈ parsed.symbols → symbol.symbolType ≠ .classType →
      limit < symbol.sourceText.utf8ByteSize → Divides limit lines (elementsOf symbol) →
      statement ∈ elementsOf symbol → CutStatement parsed lines statement

/-- A statement that can be cut is one of the module or of a body. -/
theorem CutStatement.listed {parsed : ParsedFile} {lines : List (List Char)}
    {statement : SourceSegment} (cut : CutStatement parsed lines statement) :
    statement ∈ parsed.moduleSegments ∨
      ∃ symbol ∈ parsed.symbols, statement ∈ symbol.bodySegments := by
  cases cut with
  | module runs _ _ member =>
      left
      rw [← (contiguousRuns_adjoining parsed.moduleSegments).1, runs]
      exact List.mem_flatten.mpr ⟨_, by simp, member⟩
  | overview listed _ _ _ member => exact .inr ⟨_, listed, List.mem_of_mem_filter member⟩
  | body listed _ _ _ member => exact .inr ⟨_, listed, List.mem_of_mem_filter member⟩

/-! ## Runs -/

section Runs

variable {chunker : PythonChunker} {platform : Platform} {scope : ChunkScope}
  {parsed : ParsedFile} {lines : List (List Char)} {chunkType : ChunkType}
  {owner : Option ParsedSymbol} {run : List SourceSegment} {chunks : List ContentChunk}

theorem runsFrom_filled {current : List SourceSegment} (filled : current ≠ []) (last : Nat)
    (segments : List SourceSegment) : ∀ run ∈ runsFrom current last segments, run ≠ [] := by
  induction segments generalizing current last with
  | nil => simpa [runsFrom] using filled
  | cons segment rest ih =>
      rw [runsFrom]
      split
      · exact List.forall_mem_cons.mpr ⟨filled, ih (List.cons_ne_nil _ _) _⟩
      · exact ih (by simp) _

theorem contiguousRuns_filled (segments : List SourceSegment) :
    ∀ run ∈ contiguousRuns segments, run ≠ [] := by
  cases segments with
  | nil => exact fun run member => nomatch member
  | cons first rest => exact runsFrom_filled (List.cons_ne_nil _ _) _ rest

/-- The runs of statements in order are in order. -/
theorem contiguousRuns_ordered {segments : List SourceSegment}
    (ordered : Ordered (segments.map segmentSpan)) (member : run ∈ contiguousRuns segments) :
    Ordered (run.map segmentSpan) := by
  refine ordered.sublist (List.Sublist.map segmentSpan ?_)
  rw [← (contiguousRuns_adjoining segments).1]
  exact List.sublist_flatten_of_mem member

/-- A run is chunked in groups of neighbours. -/
theorem segmentChunks_spans
    (made : segmentChunks chunker platform scope parsed lines chunkType owner run = some chunks) :
    chunks.map chunkSpan = groups (fitsLines chunker lines) (run.map segmentSpan) := by
  rw [segmentChunks_groups, mapM_eq_some_iff] at made
  have spans : List.Forall₂ (fun group chunk => group = chunkSpan chunk)
      (groups (fitsLines chunker lines) (run.map segmentSpan)) chunks :=
    made.imp fun group chunk grouped => by
      have kept := makeChunk_some grouped
      exact Prod.ext kept.first.symm kept.last.symm
  rw [← List.forall₂_map_right_iff (R := (· = ·)), List.forall₂_eq_eq_eq] at spans
  exact spans.symm

/-- A line of a chunk is one of a statement. -/
theorem segmentChunks_line (adjoining : Adjoining (run.map segmentSpan))
    (made : segmentChunks chunker platform scope parsed lines chunkType owner run = some chunks)
    {chunk : ContentChunk} (member : chunk ∈ chunks) {number : Nat}
    (within : Spans.Within number (chunkSpan chunk)) :
    ∃ statement ∈ run, Spans.Within number (segmentSpan statement) := by
  obtain ⟨blocks, packed⟩ := @groups_packed (fitsLines chunker lines) (run.map segmentSpan)
  have listed : chunkSpan chunk ∈ blocks.map hull := by
    rw [← packed.hulls, ← segmentChunks_spans made]
    exact List.mem_map_of_mem member
  obtain ⟨block, inBlocks, same⟩ := List.mem_map.mp listed
  have near : Adjoining block :=
    adjoining.infix (packed.joined ▸ List.infix_of_mem_flatten inBlocks)
  obtain ⟨span, inBlock, found⟩ := near.within_hull (packed.filled block inBlocks) (same ▸ within)
  have element : span ∈ run.map segmentSpan :=
    packed.joined ▸ List.mem_flatten.mpr ⟨block, inBlocks, inBlock⟩
  obtain ⟨statement, inRun, rfl⟩ := List.mem_map.mp element
  exact ⟨statement, inRun, found⟩

/-- A run that is chunked holds text. -/
theorem hasText_of_chunks (ordered : Ordered (run.map segmentSpan)) (filled : run ≠ [])
    (made : segmentChunks chunker platform scope parsed lines chunkType owner run = some chunks) :
    HasText lines run := by
  have cut := segmentChunks_cut made
  have spans := segmentChunks_spans made
  obtain ⟨blocks, packed⟩ := @groups_packed (fitsLines chunker lines) (run.map segmentSpan)
  obtain ⟨first, rest, rfl⟩ := List.exists_cons_of_ne_nil filled
  obtain ⟨group, listed, -, -⟩ := packed.covers ordered (List.mem_map_of_mem (.head rest))
  have inside := packed.hulls_inside (fun span member => ordered.le_hull member) group listed
  rw [← packed.hulls, ← spans] at listed
  obtain ⟨chunk, member, rfl⟩ := List.mem_map.mp listed
  have something := (cut chunk member).nonempty
  rw [(cut chunk member).content] at something
  intro empty
  have sizes := @lineSlice_le lines _ _ _ _ inside.1 inside.2
  rw [empty, String.utf8ByteSize_empty, Nat.le_zero, String.utf8ByteSize_eq_zero_iff] at sizes
  exact something sizes

/-- Where all fits, a run with text is one chunk. -/
theorem segmentChunks_whole (room : ∀ start stop, fitsLines chunker lines start stop = true)
    (text : HasText lines run) : ∃ chunk, chunkSpan chunk = hull (run.map segmentSpan) ∧
      segmentChunks chunker platform scope parsed lines chunkType owner run = some [chunk] := by
  have filled : run.map segmentSpan ≠ [] := by
    intro empty
    apply text
    rw [empty]
    simp [hull, lineSlice, joinLines]
  cases made : groupChunk chunker platform scope parsed lines chunkType owner
      (hull (run.map segmentSpan)) with
  | none =>
      have large := (makeChunk_eq_none_iff text).mp made
      exact absurd (of_decide_eq_true (room _ _)) (Nat.not_le.mpr large)
  | some chunk =>
      have kept := makeChunk_some made
      refine ⟨chunk, Prod.ext kept.first kept.last, ?_⟩
      rw [segmentChunks_groups, groups_of_fits room filled, List.mapM_cons, made]
      rfl

end Runs

/-! ## Python files -/

section Python

variable {chunker : PythonChunker} {platform : Platform} {scope : ChunkScope}
  {parsed : ParsedFile} {lines : List (List Char)} {symbol : ParsedSymbol}
  {piece : ContentChunk} {statement : SourceSegment}

/-- The statements of the module, and those of every body, are in order. -/
structure StatementsOrdered (parsed : ParsedFile) : Prop where
  module : Ordered (parsed.moduleSegments.map segmentSpan)
  bodies : ∀ symbol ∈ parsed.symbols, Ordered (symbol.bodySegments.map segmentSpan)

theorem elementsOf_ordered (ordered : Ordered (symbol.bodySegments.map segmentSpan)) :
    Ordered ((elementsOf symbol).map segmentSpan) :=
  ordered.sublist (List.filter_sublist.map segmentSpan)

/-- Every line of the chunk is one of a statement that can be cut. -/
def OfStatements (parsed : ParsedFile) (lines : List (List Char)) (piece : ContentChunk) : Prop :=
  ∀ number, Spans.Within number (chunkSpan piece) → ∃ statement,
    CutStatement parsed lines statement ∧ Spans.Within number (segmentSpan statement)

theorem moduleResult_statements (ordered : Ordered (parsed.moduleSegments.map segmentSpan))
    {before runs : List (List SourceSegment)}
    (split : contiguousRuns parsed.moduleSegments = before ++ runs)
    (texts : ∀ earlier ∈ before, HasText lines earlier) :
    ∀ piece ∈ (moduleResult chunker platform scope parsed lines runs).1,
      OfStatements parsed lines piece := by
  induction runs generalizing before with
  | nil => exact fun piece member => nomatch member
  | cons run after ih =>
      have listed : run ∈ contiguousRuns parsed.moduleSegments := by
        rw [split]
        simp
      unfold moduleResult
      split
      · exact fun piece member => nomatch member
      case h_2 chunks made =>
        have text := hasText_of_chunks (contiguousRuns_ordered ordered listed)
          (contiguousRuns_filled _ run listed) made
        intro piece member
        rcases List.mem_append.mp member with here | later
        · intro number within
          obtain ⟨statement, inRun, found⟩ := segmentChunks_line
            ((contiguousRuns_adjoining _).2 run listed) made here within
          exact ⟨statement, .module split texts text inRun, found⟩
        · refine @ih (before ++ [run]) (by simpa using split) ?_ piece later
          exact List.forall_mem_append.mpr ⟨texts, List.forall_mem_singleton.mpr text⟩

/-- The runs of a body that is chunked: each with its chunks. -/
theorem runChunks_runs {chunkType : ChunkType} {chunks : List ContentChunk}
    (made : runChunks chunker platform scope parsed lines chunkType symbol = some chunks) :
    ∃ parts, (contiguousRuns (elementsOf symbol)).mapM (segmentChunks chunker platform scope parsed
      lines chunkType (some symbol)) = some parts ∧ chunks = parts.flatten := by
  obtain ⟨parts, each, rfl⟩ := Option.map_eq_some_iff.mp made
  exact ⟨parts, each, rfl⟩

theorem runChunks_line {chunkType : ChunkType} {chunks : List ContentChunk}
    (made : runChunks chunker platform scope parsed lines chunkType symbol = some chunks)
    (member : piece ∈ chunks) {number : Nat} (within : Spans.Within number (chunkSpan piece)) :
    ∃ statement ∈ elementsOf symbol, Spans.Within number (segmentSpan statement) := by
  obtain ⟨parts, each, rfl⟩ := runChunks_runs made
  obtain ⟨part, inParts, inPart⟩ := List.mem_flatten.mp member
  obtain ⟨run, listed, runMade⟩ := mapM_item each inParts
  obtain ⟨statement, inRun, found⟩ := segmentChunks_line
    ((contiguousRuns_adjoining _).2 run listed) runMade inPart within
  have joined := (contiguousRuns_adjoining (elementsOf symbol)).1
  exact ⟨statement, joined ▸ List.mem_flatten.mpr ⟨run, listed, inRun⟩, found⟩

theorem runChunks_texts {chunkType : ChunkType} {chunks : List ContentChunk}
    (ordered : Ordered (symbol.bodySegments.map segmentSpan))
    (made : runChunks chunker platform scope parsed lines chunkType symbol = some chunks) :
    ∀ run ∈ contiguousRuns (elementsOf symbol), HasText lines run := by
  obtain ⟨parts, each, -⟩ := runChunks_runs made
  intro run listed
  obtain ⟨part, -, runMade⟩ := mapM_result each listed
  exact hasText_of_chunks (contiguousRuns_ordered (elementsOf_ordered ordered) listed)
    (contiguousRuns_filled _ run listed) runMade

theorem runChunks_divides {chunkType : ChunkType} {chunks : List ContentChunk}
    (made : runChunks chunker platform scope parsed lines chunkType symbol = some chunks) :
    Divides chunker.maxChunkBytes lines (elementsOf symbol) := by
  rw [runChunks_groups] at made
  intro run listed group member
  have grouped : group ∈ groupsOf chunker lines symbol :=
    List.mem_flatMap.mpr ⟨run, listed, member⟩
  obtain ⟨chunk, -, chunkMade⟩ := mapM_result made grouped
  have kept := makeChunk_some chunkMade
  exact ⟨kept.nonempty, kept.holds ▸ makeChunk_bounded chunkMade⟩

/-- What is cut of a symbol is cut from its statements. -/
theorem chunksOf_statements (listed : symbol ∈ parsed.symbols)
    (ordered : Ordered (symbol.bodySegments.map segmentSpan))
    (member : piece ∈ (chunksOf chunker platform scope parsed symbol).drop
      (if keepsText chunker symbol then 1 else 0)) :
    OfStatements parsed (splitlines parsed.sourceText.toList) piece := by
  unfold chunksOf symbolResult at member
  by_cases huge : symbol.sourceText.utf8ByteSize > chunker.maxSymbolBytes
  · rw [if_pos huge, List.drop_nil] at member
    cases member
  · rw [if_neg huge] at member
    cases made : symbolChunks chunker platform scope parsed
        (splitlines parsed.sourceText.toList) symbol with
    | none =>
      rw [made, List.drop_nil] at member
      cases member
    | some chunks =>
      rw [made] at member
      dsimp only at member
      unfold symbolChunks at made
      split at made
      case isTrue isClass =>
        have keeps : keepsText chunker symbol = true := by simp [keepsText, isClass]
        split at made
        · cases made
        case h_2 header headerMade =>
          obtain ⟨overview, overviewMade, rfl⟩ := Option.map_eq_some_iff.mp made
          rw [if_pos keeps, List.drop_one, List.tail_cons] at member
          intro number within
          obtain ⟨statement, element, found⟩ := runChunks_line overviewMade member within
          exact ⟨statement, .overview listed isClass (makeChunk_some headerMade).nonempty
            (runChunks_texts ordered overviewMade) element, found⟩
      case isFalse notClass =>
        split at made
        case isTrue fits =>
          obtain ⟨whole, -, rfl⟩ := Option.map_eq_some_iff.mp made
          have keeps : keepsText chunker symbol = true := by simp [keepsText, fits]
          rw [if_pos keeps] at member
          cases member
        case isFalse large =>
          intro number within
          obtain ⟨statement, element, found⟩ :=
            runChunks_line made (List.mem_of_mem_drop member) within
          exact ⟨statement, .body listed notClass (Nat.not_le.mp large) (runChunks_divides made)
            element, found⟩

theorem cutChunks_statements (ordered : StatementsOrdered parsed)
    (member : piece ∈ cutChunks chunker platform scope parsed) :
    OfStatements parsed (splitlines parsed.sourceText.toList) piece := by
  rcases List.mem_append.mp member with ofSymbol | ofModule
  · obtain ⟨symbol, listed, dropped⟩ := List.mem_flatMap.mp ofSymbol
    exact chunksOf_statements listed (ordered.bodies symbol listed) dropped
  · exact @moduleResult_statements chunker platform scope parsed _ ordered.module [] _ rfl
      (by simp) piece ofModule

/-! ## Limits that cut a statement -/

/-- A limit that no slice of the lines exceeds, nor a text of this size. -/
def room (lines : List (List Char)) (size : Nat) : Nat :=
  byteLength (joinLines lines) + size

theorem lineSlice_room (start stop size : Nat) :
    (lineSlice lines start stop).utf8ByteSize ≤ room lines size := by
  rw [lineSlice, utf8ByteSize_ofList]
  have part : (lines.take stop).drop (start - 1) <:+: lines :=
    (List.drop_suffix _ _).isInfix.trans (List.take_prefix _ _).isInfix
  obtain ⟨before, after, whole⟩ := part
  have inside := joinLines_inside before ((lines.take stop).drop (start - 1)) after
  rw [whole] at inside
  exact (byteLength_inside inside).trans (Nat.le_add_right _ _)

/-- The chunk holds the lines of the statement. -/
def Holds (piece : ContentChunk) (statement : SourceSegment) : Prop :=
  piece.startLine ≤ statement.startLine ∧ statement.endLine ≤ piece.endLine

theorem whole_holds {run : List SourceSegment} (ordered : Ordered (run.map segmentSpan))
    (member : statement ∈ run) (span : chunkSpan piece = hull (run.map segmentSpan)) :
    Holds piece statement := by
  have inside := ordered.le_hull (List.mem_map_of_mem (f := segmentSpan) member)
  rw [← span] at inside
  exact inside

/-- The runs before the first one without text are chunked. -/
theorem moduleResult_whole (fitting : ∀ start stop, fitsLines chunker lines start stop = true)
    {before after : List (List SourceSegment)} {run : List SourceSegment}
    (texts : ∀ earlier ∈ before, HasText lines earlier) (text : HasText lines run) :
    ∃ piece ∈ (moduleResult chunker platform scope parsed lines (before ++ run :: after)).1,
      chunkSpan piece = hull (run.map segmentSpan) := by
  induction before with
  | nil =>
      obtain ⟨piece, span, made⟩ := @segmentChunks_whole chunker platform scope parsed lines
        .moduleChunk none run fitting text
      refine ⟨piece, ?_, span⟩
      rw [List.nil_append, moduleResult, made]
      exact List.mem_append_left _ (List.mem_singleton_self piece)
  | cons first before ih =>
      obtain ⟨own, others⟩ := List.forall_mem_cons.mp texts
      obtain ⟨piece, member, span⟩ := ih others
      obtain ⟨other, -, made⟩ := @segmentChunks_whole chunker platform scope parsed lines
        .moduleChunk none first fitting own
      refine ⟨piece, ?_, span⟩
      rw [List.cons_append, moduleResult, made]
      exact List.mem_append_right _ member

/-- Without a run without text a body is chunked run by run. -/
theorem runChunks_whole {chunkType : ChunkType}
    (fitting : ∀ start stop, fitsLines chunker lines start stop = true)
    (texts : ∀ run ∈ contiguousRuns (elementsOf symbol), HasText lines run) :
    ∃ chunks, runChunks chunker platform scope parsed lines chunkType symbol = some chunks ∧
      ∀ run ∈ contiguousRuns (elementsOf symbol), ∃ piece ∈ chunks,
        chunkSpan piece = hull (run.map segmentSpan) := by
  have whole := fun run listed => @segmentChunks_whole chunker platform scope parsed lines
    chunkType (some symbol) run fitting (texts run listed)
  cases made : runChunks chunker platform scope parsed lines chunkType symbol with
  | none =>
      rw [runChunks, Option.map_eq_none_iff, mapM_eq_none_iff] at made
      obtain ⟨run, listed, refused⟩ := made
      obtain ⟨piece, -, accepted⟩ := whole run listed
      rw [refused] at accepted
      cases accepted
  | some chunks =>
      refine ⟨chunks, rfl, fun run listed => ?_⟩
      obtain ⟨parts, each, rfl⟩ := runChunks_runs made
      obtain ⟨part, inParts, runMade⟩ := mapM_result each listed
      obtain ⟨piece, span, accepted⟩ := whole run listed
      rw [accepted] at runMade
      cases runMade
      exact ⟨piece, List.mem_flatten.mpr ⟨_, inParts, List.mem_singleton_self piece⟩, span⟩

/-- A body that a limit divides is chunked group by group. -/
theorem runChunks_divided {chunkType : ChunkType}
    (divides : Divides chunker.maxChunkBytes lines (elementsOf symbol)) :
    ∃ chunks, runChunks chunker platform scope parsed lines chunkType symbol = some chunks ∧
      chunks.map chunkSpan = groupsOf chunker lines symbol := by
  cases made : runChunks chunker platform scope parsed lines chunkType symbol with
  | none =>
      rw [runChunks_groups, mapM_eq_none_iff] at made
      obtain ⟨group, member, refused⟩ := made
      obtain ⟨run, listed, inRun⟩ := List.mem_flatMap.mp member
      obtain ⟨filled, fits⟩ := divides run listed group inRun
      exact absurd fits (Nat.not_le.mpr ((makeChunk_eq_none_iff filled).mp refused))
  | some chunks => exact ⟨chunks, rfl, runChunks_spans made⟩

/-- With room for every slice, a statement of the module is held. -/
theorem module_held (ordered : Ordered (parsed.moduleSegments.map segmentSpan))
    {before after : List (List SourceSegment)} {run : List SourceSegment}
    (runs : contiguousRuns parsed.moduleSegments = before ++ run :: after)
    (texts : ∀ earlier ∈ before, HasText (splitlines parsed.sourceText.toList) earlier)
    (text : HasText (splitlines parsed.sourceText.toList) run) (member : statement ∈ run)
    (platform : Platform) (scope : ChunkScope) :
    ∃ chunker, ∃ piece ∈ cutChunks chunker platform scope parsed, Holds piece statement := by
  let chunker : PythonChunker := ⟨0, room (splitlines parsed.sourceText.toList) 0, 0, 0⟩
  have fitting : ∀ start stop, fitsLines chunker (splitlines parsed.sourceText.toList) start
      stop = true := fun start stop => decide_eq_true (lineSlice_room start stop 0)
  obtain ⟨piece, made, span⟩ := @moduleResult_whole chunker platform scope parsed _ fitting
    before after run texts text
  have listed : run ∈ contiguousRuns parsed.moduleSegments := by
    rw [runs]
    simp
  refine ⟨chunker, piece, List.mem_append_right _ ?_,
    whole_holds (contiguousRuns_ordered ordered listed) member span⟩
  rwa [runs]

/-- With room for every slice and the header, a statement of a class is held. -/
theorem overview_held (listed : symbol ∈ parsed.symbols)
    (ordered : Ordered ((elementsOf symbol).map segmentSpan))
    (isClass : symbol.symbolType = .classType) (headed : symbol.headerText ≠ "")
    (texts : ∀ run ∈ contiguousRuns (elementsOf symbol),
      HasText (splitlines parsed.sourceText.toList) run)
    (member : statement ∈ elementsOf symbol) (platform : Platform) (scope : ChunkScope) :
    ∃ chunker, ∃ piece ∈ cutChunks chunker platform scope parsed, Holds piece statement := by
  let chunker : PythonChunker := ⟨symbol.sourceText.utf8ByteSize,
    room (splitlines parsed.sourceText.toList) symbol.headerText.utf8ByteSize, 0, 0⟩
  have fitting : ∀ start stop, fitsLines chunker (splitlines parsed.sourceText.toList) start
      stop = true := fun start stop => decide_eq_true (lineSlice_room start stop _)
  obtain ⟨chunks, made, pieces⟩ := @runChunks_whole chunker platform scope parsed _ symbol
    .classOverview fitting texts
  rw [← (contiguousRuns_adjoining (elementsOf symbol)).1] at member
  obtain ⟨run, inRuns, inRun⟩ := List.mem_flatten.mp member
  obtain ⟨piece, inChunks, span⟩ := pieces run inRuns
  refine ⟨chunker, piece, List.mem_append_left _ (List.mem_flatMap.mpr ⟨symbol, listed, ?_⟩),
    whole_holds (contiguousRuns_ordered ordered inRuns) inRun span⟩
  have keeps : keepsText chunker symbol = true := by simp [keepsText, isClass]
  have small : ¬symbol.sourceText.utf8ByteSize > chunker.maxSymbolBytes := lt_irrefl _
  rw [if_pos keeps, chunksOf, symbolResult, if_neg small, symbolChunks, if_pos isClass, made]
  cases header : makeChunk chunker platform scope parsed .classOverview (some symbol)
      symbol.headerText symbol.headerStartLine symbol.headerEndLine with
  | none =>
      have large := (makeChunk_eq_none_iff headed).mp header
      exact absurd (Nat.le_add_left _ _) (Nat.not_le.mpr large)
  | some chunk => exact inChunks

/-- Under a limit that divides the body, a statement of a function is held. -/
theorem body_held {limit : Nat} (listed : symbol ∈ parsed.symbols)
    (ordered : Ordered ((elementsOf symbol).map segmentSpan))
    (notClass : symbol.symbolType ≠ .classType) (less : limit < symbol.sourceText.utf8ByteSize)
    (divides : Divides limit (splitlines parsed.sourceText.toList) (elementsOf symbol))
    (member : statement ∈ elementsOf symbol) (platform : Platform) (scope : ChunkScope) :
    ∃ chunker, ∃ piece ∈ cutChunks chunker platform scope parsed, Holds piece statement := by
  let chunker : PythonChunker := ⟨symbol.sourceText.utf8ByteSize, limit, 0, 0⟩
  obtain ⟨chunks, made, spans⟩ := @runChunks_divided chunker platform scope parsed _ symbol
    (chunkTypeOf symbol) divides
  obtain ⟨blocks, packed, -⟩ := @groupsOf_packed chunker
    (splitlines parsed.sourceText.toList) symbol
  obtain ⟨group, grouped, first, last⟩ :=
    packed.covers ordered (List.mem_map_of_mem (f := segmentSpan) member)
  rw [← packed.hulls, ← spans] at grouped
  obtain ⟨piece, inChunks, rfl⟩ := List.mem_map.mp grouped
  refine ⟨chunker, piece, List.mem_append_left _ (List.mem_flatMap.mpr ⟨symbol, listed, ?_⟩),
    first, last⟩
  have cut : keepsText chunker symbol = false := by
    simp [keepsText, notClass, chunker, less]
  have small : ¬symbol.sourceText.utf8ByteSize > chunker.maxSymbolBytes := lt_irrefl _
  have large : ¬symbol.sourceText.utf8ByteSize ≤ chunker.maxChunkBytes := Nat.not_le.mpr less
  rw [cut, chunksOf, symbolResult, if_neg small, symbolChunks, if_neg notClass, if_neg large,
    made]
  exact inChunks

/-- A statement that can be cut is held by a chunk, under some limits. -/
theorem CutStatement.held (ordered : StatementsOrdered parsed)
    (cut : CutStatement parsed (splitlines parsed.sourceText.toList) statement)
    (platform : Platform) (scope : ChunkScope) :
    ∃ chunker, ∃ piece ∈ cutChunks chunker platform scope parsed, Holds piece statement := by
  have elements : ∀ symbol ∈ parsed.symbols, Ordered ((elementsOf symbol).map segmentSpan) :=
    fun symbol listed => elementsOf_ordered (ordered.bodies symbol listed)
  cases cut with
  | module runs texts text member =>
      exact module_held ordered.module runs texts text member platform scope
  | overview listed isClass headed texts member =>
      exact overview_held listed (elements _ listed) isClass headed texts member platform scope
  | body listed notClass less divides member =>
      exact body_held listed (elements _ listed) notClass less divides member platform scope

/-! ## The number of chunks -/

theorem segmentChunks_uncounted (count : Nat) (chunkType : ChunkType)
    (owner : Option ParsedSymbol) (run : List SourceSegment) :
    segmentChunks { chunker with maxChunksPerFile := count } platform scope parsed lines chunkType
      owner run = segmentChunks chunker platform scope parsed lines chunkType owner run := by
  rw [segmentChunks_groups, segmentChunks_groups]
  rfl

theorem runChunks_uncounted (count : Nat) (chunkType : ChunkType) :
    runChunks { chunker with maxChunksPerFile := count } platform scope parsed lines chunkType
      symbol = runChunks chunker platform scope parsed lines chunkType symbol := by
  rw [runChunks_groups, runChunks_groups]
  rfl

theorem symbolResult_uncounted (count : Nat) :
    symbolResult { chunker with maxChunksPerFile := count } platform scope parsed lines symbol =
      symbolResult chunker platform scope parsed lines symbol := by
  unfold symbolResult symbolChunks
  simp only [runChunks_uncounted]
  rfl

theorem moduleResult_uncounted (count : Nat) (runs : List (List SourceSegment)) :
    moduleResult { chunker with maxChunksPerFile := count } platform scope parsed lines runs =
      moduleResult chunker platform scope parsed lines runs := by
  induction runs with
  | nil => rfl
  | cons run runs ih => rw [moduleResult, moduleResult, segmentChunks_uncounted, ih]

/-- What is cut does not depend on how many chunks a file may have. -/
theorem cutChunks_uncounted (count : Nat) :
    cutChunks { chunker with maxChunksPerFile := count } platform scope parsed =
      cutChunks chunker platform scope parsed := by
  unfold cutChunks chunksOf
  simp only [symbolResult_uncounted, moduleResult_uncounted]
  rfl

theorem collectedChunks_uncounted (count : Nat) :
    collectedChunks { chunker with maxChunksPerFile := count } platform scope parsed =
      collectedChunks chunker platform scope parsed := by
  have symbols : symbolResult { chunker with maxChunksPerFile := count } platform scope parsed
      (splitlines parsed.sourceText.toList) = symbolResult chunker platform scope parsed
        (splitlines parsed.sourceText.toList) := funext fun symbol => symbolResult_uncounted count
  unfold collectedChunks
  dsimp only
  rw [symbols, moduleResult_uncounted]

theorem cutChunks_collected (member : piece ∈ cutChunks chunker platform scope parsed) :
    piece ∈ (collectedChunks chunker platform scope parsed).1 := by
  rcases List.mem_append.mp member with ofSymbol | ofModule
  · obtain ⟨symbol, listed, dropped⟩ := List.mem_flatMap.mp ofSymbol
    refine List.mem_append_left _ (List.mem_flatMap.mpr ⟨_, List.mem_map_of_mem listed, ?_⟩)
    exact List.mem_of_mem_drop dropped
  · exact List.mem_append_right _ ofModule

theorem exists_numbered {chunks : List ContentChunk} (member : piece ∈ chunks) :
    ∃ ordinal, { piece with ordinal := ordinal } ∈ numbered chunks := by
  obtain ⟨place, bound, rfl⟩ := List.mem_iff_getElem.mp member
  exact ⟨place, List.mem_mapIdx.mpr ⟨place, bound, rfl⟩⟩

/-- With room for all chunks, what is cut is a chunk of the file. -/
theorem exists_chunk (member : piece ∈ cutChunks chunker platform scope parsed) :
    ∃ chunker ordinal, { piece with ordinal := ordinal } ∈
        (chunkPython chunker platform scope parsed).chunks ∧
      piece ∈ cutChunks chunker platform scope parsed := by
  have collected := cutChunks_collected member
  refine ⟨{ chunker with
    maxChunksPerFile := (collectedChunks chunker platform scope parsed).1.length }, ?_⟩
  rw [cutChunks_uncounted, chunkPython, collectedChunks_uncounted, exists_and_right]
  dsimp only
  rw [if_neg (lt_irrefl _)]
  exact ⟨exists_numbered (mem_sortOn.mpr collected), member⟩

end Python

section Files

variable {parser : PythonStaticParser} {platform : Platform} {file : SourceFile} {root : Node}

theorem parseTree_ordered (laws : WellFormed file.source root) :
    StatementsOrdered (parseTree parser platform file root) := by
  constructor
  · unfold parseTree
    dsimp only
    split
    · exact ⟨(fun span member => nomatch member), .nil⟩
    · exact (segments_ordered laws).sublist
        ((List.filter_sublist.map _).map segmentSpan)
  · intro symbol member
    rcases walkDefinitions_made (fun node => laws.child) (parseTree_symbols member) with none | made
    · cases none
    · obtain ⟨wrapper, definition, wrapperLaws, made⟩ := made
      exact made.ordered wrapperLaws

/-- Under every limits setting the chunks of a file hold what they cite exactly when
each statement that can be cut stands in lines that are its rows. -/
theorem python_cited_iff {scope : ChunkScope} (laws : WellFormed file.source root) :
    (∀ chunker, PythonCited chunker platform scope (parseTree parser platform file root)
        file.source) ↔
      ∀ statement, CutStatement (parseTree parser platform file root)
          (splitlines (parseTree parser platform file root).sourceText.toList) statement →
        RowsKept file.source statement.startLine statement.endLine := by
  have ordered := @parseTree_ordered parser platform file root laws
  constructor
  · intro cited statement cut
    obtain ⟨_, piece, isCut, first, last⟩ := cut.held ordered platform scope
    obtain ⟨chunker, ordinal, emitted, among⟩ := exists_chunk isCut
    have kept := (pythonCited_iff laws).mp (cited chunker) _ emitted ⟨piece, among, rfl⟩
    exact fun number starts ends => kept number (first.trans starts) (ends.trans last)
  · intro kept chunker
    apply (pythonCited_iff laws).mpr
    rintro chunk - ⟨piece, isCut, same⟩ number starts ends
    rw [same] at starts ends
    obtain ⟨statement, cut, found⟩ := cutChunks_statements ordered isCut number ⟨starts, ends⟩
    exact kept statement cut number found.1 found.2

end Files

/-! ## Documents -/

instance (lines : List (List Char)) : DecidablePred (Filled lines) :=
  fun number => inferInstanceAs (Decidable (strip (lines.getD (number - 1) []) ≠ []))

/-- The last line that is not blank. -/
def lastFilled (lines : List (List Char)) : Nat :=
  Nat.findGreatest (Filled lines) lines.length

/-- The last line that is not blank, or with an open fence at the end the last line. -/
def lastWritten (lines : List (List Char)) : Nat :=
  if fenceAfter lines = none then lastFilled lines else lines.length

section Written

variable {lines : List (List Char)} {number : Nat}

theorem not_filled_iff : ¬Filled lines number ↔ strip (lineAt lines number) = [] :=
  not_not

theorem filled_le (filled : Filled lines number) : number ≤ lines.length := by
  by_contra late
  apply filled
  rw [List.getD_eq_default _ _ (by omega)]
  rfl

theorem le_lastFilled (filled : Filled lines number) : number ≤ lastFilled lines :=
  Nat.le_findGreatest (filled_le filled) filled

theorem lastFilled_pos (filled : Filled lines (lastFilled lines)) : 1 ≤ lastFilled lines := by
  by_contra unwritten
  have zero : lastFilled lines = 0 := by omega
  rw [zero] at filled
  exact unwritten (le_lastFilled filled)

theorem lastFilled_zero (blank : ¬Filled lines (lastFilled lines)) : lastFilled lines = 0 := by
  by_contra positive
  exact blank (Nat.findGreatest_of_ne_zero rfl positive)

theorem lastWritten_le (lines : List (List Char)) : lastWritten lines ≤ lines.length := by
  unfold lastWritten
  split
  · exact Nat.findGreatest_le _
  · exact le_refl _

/-- A blank line leaves the fence. -/
theorem fenceAfter_blank (there : number < lines.length) (blank : ¬Filled lines (number + 1)) :
    fenceAfter (lines.take (number + 1)) = fenceAfter (lines.take number) := by
  rw [fenceAfter_succ there, fenceStep, fenceMarker_blank (not_filled_iff.mp blank)]

/-- Behind the last line that is not blank the fence stays as it is. -/
theorem fenceAfter_take (from_ : lastFilled lines ≤ number) :
    fenceAfter (lines.take number) = fenceAfter lines := by
  by_cases inside : number ≤ lines.length
  · induction inside using Nat.decreasingInduction with
    | self => rw [List.take_length]
    | of_succ place less ih =>
        rw [← ih (Nat.le_succ_of_le from_)]
        refine (fenceAfter_blank less fun filled => ?_).symm
        have last := le_lastFilled filled
        omega
  · rw [List.take_of_length_le (by omega)]

/-- An open fence is a line that is not blank. -/
theorem exists_filled (opened : fenceAfter lines ≠ none) : lastFilled lines ≠ 0 := by
  intro unwritten
  apply opened
  rw [← fenceAfter_take (le_of_eq unwritten)]
  rfl

end Written

section Paragraphs

variable {lines : List (List Char)} {endLine : Nat} {state : Option Nat × Option Char}

/-- At the end of a paragraph one is open. -/
theorem paragraphsFrom_open {number count : Nat} (positive : 1 ≤ number)
    (closing : number + count = endLine + 1) {range : Span}
    (member : range ∈ paragraphsFrom lines endLine state.1 state.2 (List.range' number count)) :
    ((List.range' number (range.2 + 1 - number)).foldl (paragraphStep lines) state).1.isSome =
      true := by
  induction count generalizing number state with
  | zero =>
      rw [List.range'_zero, paragraphsFrom, Option.mem_toList] at member
      obtain ⟨start, opened, rfl⟩ := Option.map_eq_some_iff.mp member
      have empty : endLine + 1 - number = 0 := by omega
      rw [empty, List.range'_zero, List.foldl_nil, opened]
      rfl
  | succ count ih =>
      rw [List.range'_succ, paragraphsFrom_cons, List.mem_append, Option.mem_toList] at member
      rcases member with closed | later
      · have ends := closedBy_end closed
        have empty : range.2 + 1 - number = 0 := by omega
        rw [empty, List.range'_zero, List.foldl_nil]
        exact (closedBy_isSome_iff.mp (Option.isSome_of_mem closed)).2.2.2
      · have ends := @paragraphsFrom_ends lines (paragraphStep lines state number) endLine
          (number + 1) count (by omega) range later
        have opened := @ih (paragraphStep lines state number) (number + 1) (by omega) (by omega)
          later
        have more : range.2 + 1 - number = range.2 + 1 - (number + 1) + 1 := by omega
        rwa [more, List.range'_succ, List.foldl_cons]

/-- A paragraph that is open at the end of the section is closed there. -/
theorem exists_last {number count : Nat}
    (opened : ((List.range' number count).foldl (paragraphStep lines) state).1.isSome = true) :
    ∃ range ∈ paragraphsFrom lines endLine state.1 state.2 (List.range' number count),
      range.2 = endLine := by
  induction count generalizing number state with
  | zero =>
      obtain ⟨start, same⟩ := Option.isSome_iff_exists.mp opened
      refine ⟨(start, endLine), ?_, rfl⟩
      rw [List.range'_zero, List.foldl_nil] at same
      rw [List.range'_zero, paragraphsFrom, same]
      exact List.mem_singleton_self _
  | succ count ih =>
      rw [List.range'_succ, List.foldl_cons] at opened
      obtain ⟨range, member, last⟩ := ih opened
      rw [List.range'_succ, paragraphsFrom_cons]
      exact ⟨range, List.mem_append_right _ member, last⟩

theorem paragraphStep_blank {number : Nat} (blank : strip (lineAt lines number) = [])
    (closed : state.2 = none) : paragraphStep lines state number = (none, none) := by
  rw [paragraphStep, fenceMarker_blank blank]
  dsimp only
  rw [if_pos ⟨blank, closed⟩, closed]

/-- A fence is open only in a paragraph. -/
theorem paragraphStep_tracked {number : Nat} : (paragraphStep lines state number).2 ≠ none →
    (paragraphStep lines state number).1.isSome = true := by
  unfold paragraphStep
  cases fenceMarker (lineAt lines number) with
  | some marker => exact fun _ => rfl
  | none =>
      dsimp only
      split
      case isTrue blank => exact fun opened => absurd blank.2 opened
      case isFalse => exact fun _ => rfl

theorem foldl_tracked (numbers : List Nat) (tracked : state.2 ≠ none → state.1.isSome = true) :
    (numbers.foldl (paragraphStep lines) state).2 ≠ none →
      (numbers.foldl (paragraphStep lines) state).1.isSome = true := by
  induction numbers generalizing state with
  | nil => exact tracked
  | cons number rest ih => exact ih paragraphStep_tracked

end Paragraphs

section Sections

variable {lines : List (List Char)} {filePath : String} {part : DocumentationSection}
  {range : Span}

/-- Every line is in a section. -/
theorem exists_section (filePath : String) {number : Nat} (positive : 1 ≤ number)
    (there : number ≤ lines.length) : ∃ part ∈ documentSections filePath lines,
      Spans.Within number (sectionSpan part) := by
  have tiles := documentSections_tile filePath lines
  obtain ⟨span, listed, within⟩ := tiles.held number ⟨positive, by omega⟩ trivial
  obtain ⟨part, member, rfl⟩ := List.mem_map.mp listed
  exact ⟨part, member, within⟩

/-- No paragraph ends behind the last written line: the blank line would close it. -/
theorem paragraph_le (listed : part ∈ documentSections filePath lines)
    (member : range ∈ paragraphRanges lines part.startLine part.endLine) :
    range.2 ≤ lastWritten lines := by
  have bounds := section_bounds listed
  have holding := @paragraphRanges_holding lines part.endLine part.startLine (by omega)
  obtain ⟨first, last⟩ := holding.inside range member
  have proper := holding.separated.proper range member
  by_cases closed : fenceAfter lines = none
  · rw [lastWritten, if_pos closed]
    by_contra late
    have blank : ¬Filled lines range.2 := fun filled => late (le_lastFilled filled)
    have opened := @paragraphsFrom_open lines part.endLine (none, none) part.startLine
      (part.endLine + 1 - part.startLine) bounds.1 (by omega) range member
    have from_ : part.startLine ≤ range.2 := first.trans proper
    have fence := paragraphs_agree listed from_ last
    rw [fenceAfter_take (by omega), closed] at fence
    rw [← paragraphState, paragraphState_succ from_,
      paragraphStep_blank (not_filled_iff.mp blank) fence] at opened
    cases opened
  · rw [lastWritten, if_neg closed]
    have holding : lines ≠ [] := by
      rintro rfl
      exact closed rfl
    have positive := List.length_pos_of_ne_nil holding
    omega

/-- Where a fence is open at the end, the last section has the last filled line. -/
theorem exists_last_section (opened : fenceAfter lines ≠ none)
    (filled : Filled lines (lastFilled lines)) : ∃ part ∈ documentSections filePath lines,
      Spans.Within (lastFilled lines) (sectionSpan part) ∧ part.endLine = lines.length := by
  have holding : lines ≠ [] := by
    rintro rfl
    exact opened rfl
  have positive := List.length_pos_of_ne_nil holding
  obtain ⟨part, listed, first, last⟩ := exists_section filePath positive (le_refl _)
  have bounds := section_bounds listed
  have ends : lines.length ≤ part.endLine := last
  have there := filled_le filled
  refine ⟨part, listed, ⟨?_, there.trans ends⟩, by omega⟩
  by_contra late
  have after : lastFilled lines ≤ part.startLine - 1 := by
    have starts : ¬part.startLine ≤ lastFilled lines := late
    omega
  exact opened ((fenceAfter_take after).symm.trans (section_start_closed listed))

/-- Where a fence is open at the end, so is a paragraph of the last section. -/
theorem exists_last_paragraph (opened : fenceAfter lines ≠ none)
    (listed : part ∈ documentSections filePath lines) (last : part.endLine = lines.length) :
    ∃ range ∈ paragraphRanges lines part.startLine part.endLine, range.2 = part.endLine := by
  have bounds := section_bounds listed
  refine @exists_last _ _ (none, none) _ _ ?_
  have fence := paragraphState_fence (section_start_closed listed) bounds.1
    (show part.startLine ≤ part.endLine + 1 by omega) (by omega)
  rw [Nat.add_sub_cancel, last, List.take_length] at fence
  refine foldl_tracked _ (fun absurdly => absurd rfl absurdly) ?_
  rw [paragraphState] at fence
  rw [last, fence]
  exact opened

end Sections

section Documents

variable {documented : DocumentationChunker} {platform : Platform} {scope : ChunkScope}
  {filePath : String} {sourceText : List Char} {commitSha : CommitSha}
  {lines : List (List Char)} {part : DocumentationSection} {chunk : ContentChunk}

/-- No chunk ends behind the last written line. -/
theorem document_chunk_within
    (member : chunk ∈ (chunkDocumentation documented platform scope filePath sourceText
      commitSha).chunks) : 1 ≤ chunk.startLine ∧
      chunk.endLine ≤ lastWritten (splitlines (normalizeNewlines sourceText)) := by
  obtain ⟨-, part, listed, pieces, made, piece, inside, same⟩ := chunkDocumentation_section member
  unfold sectionChunks at made
  split at made
  · cases made
  · obtain ⟨packed, packing, rfl⟩ := Option.map_eq_some_iff.mp made
    obtain ⟨range, ranged, rfl⟩ := List.mem_map.mp (List.mem_of_mem_filter inside)
    have bounds := section_bounds listed
    have paragraphs := @paragraphRanges_holding (splitlines (normalizeNewlines sourceText))
      part.endLine part.startLine (by omega)
    have written : Holding (fun _ => False) (paragraphRanges
        (splitlines (normalizeNewlines sourceText)) part.startLine part.endLine)
        (part.startLine, lastWritten (splitlines (normalizeNewlines sourceText))) :=
      ⟨paragraphs.separated,
        fun span listedSpan => ⟨(paragraphs.inside span listedSpan).1,
          paragraph_le listed listedSpan⟩,
        fun _ _ mark => mark.elim⟩
    obtain ⟨first, last⟩ := (packRanges_holding written packing).1.inside range ranged
    rw [same]
    exact ⟨bounds.1.trans first, last⟩

/-! ### Limits under which a section is one chunk -/

theorem packFrom_whole (fitting : ∀ start stop, fitsChunk documented lines start stop = true)
    (start stop : Nat) (ranges : List Span) :
    packFrom documented lines start stop ranges = some [hull ((start, stop) :: ranges)] := by
  induction ranges generalizing stop with
  | nil =>
      rw [packFrom, closeRange, if_neg (not_fitsChunk.not.mpr (not_not.mpr (fitting start stop)))]
      rfl
  | cons range rest ih =>
      rw [packFrom, if_pos (of_decide_eq_true (fitting start range.2)), ih]
      cases rest <;> rfl

theorem packRanges_whole (fitting : ∀ start stop, fitsChunk documented lines start stop = true)
    {ranges : List Span} (filled : ranges ≠ []) :
    packRanges documented lines ranges = some [hull ranges] := by
  cases ranges with
  | nil => exact absurd rfl filled
  | cons range rest => exact packFrom_whole fitting range.1 range.2 rest

/-- Limits that no slice of the lines exceeds. -/
def wide (lines : List (List Char)) (count : Nat) : DocumentationChunker :=
  ⟨room lines 0, room lines 0, count, 0⟩

theorem fitsChunk_wide (count start stop : Nat) :
    fitsChunk (wide lines count) lines start stop = true :=
  decide_eq_true (lineSlice_room start stop 0)

theorem sectionChunks_wide (count : Nat) (part : DocumentationSection) :
    sectionChunks (wide lines count) platform scope filePath commitSha lines part =
      (packRanges (wide lines count) lines
        (paragraphRanges lines part.startLine part.endLine)).map fun packed =>
          (packed.map (documentationChunk platform scope filePath commitSha lines
            part.headingHierarchy)).filter (·.content ≠ "") :=
  if_neg (Nat.not_lt.mpr (lineSlice_room _ _ 0))

theorem length_sectionChunks_wide (count : Nat) (part : DocumentationSection) :
    ((sectionChunks (wide lines count) platform scope filePath commitSha lines part).getD
      []).length ≤ 1 := by
  rw [sectionChunks_wide]
  by_cases without : paragraphRanges lines part.startLine part.endLine = []
  · rw [without]
    exact Nat.zero_le 1
  · rw [packRanges_whole (fitsChunk_wide count) without]
    exact List.length_filter_le _ _

theorem length_flatMap_le {α β : Type} {step : α → List β} (items : List α)
    (single : ∀ item ∈ items, (step item).length ≤ 1) :
    (items.flatMap step).length ≤ items.length := by
  induction items with
  | nil => exact Nat.zero_le 0
  | cons item rest ih =>
      obtain ⟨here, later⟩ := List.forall_mem_cons.mp single
      have others := ih later
      rw [List.flatMap_cons, List.length_append, List.length_cons]
      omega

/-- The chunks of every section are chunks of the document. -/
theorem chunkDocumentation_wide (supported : (isMarkdown filePath || isPlainText filePath) = true)
    {count : Nat}
    (counted : (documentSections filePath (splitlines (normalizeNewlines sourceText))).length =
      count)
    (listed : part ∈ documentSections filePath (splitlines (normalizeNewlines sourceText)))
    (made : sectionChunks (wide (splitlines (normalizeNewlines sourceText)) count) platform scope
      filePath commitSha (splitlines (normalizeNewlines sourceText)) part = some [chunk]) :
    ∃ ordinal, { chunk with ordinal := ordinal } ∈
      (chunkDocumentation (wide (splitlines (normalizeNewlines sourceText)) count) platform scope
        filePath sourceText commitSha).chunks := by
  have known : ¬(!isMarkdown filePath && !isPlainText filePath) = true := by
    cases markdown : isMarkdown filePath <;> simp_all
  unfold chunkDocumentation
  rw [if_neg known]
  dsimp only
  rw [← documentSections]
  generalize documentSections filePath (splitlines (normalizeNewlines sourceText)) = sections
    at counted listed ⊢
  have few := length_flatMap_le sections fun part _ => @length_sectionChunks_wide platform scope
    filePath commitSha (splitlines (normalizeNewlines sourceText)) count part
  rw [counted] at few
  have within : ¬(sections.flatMap fun part => (sectionChunks
      (wide (splitlines (normalizeNewlines sourceText)) count) platform scope filePath commitSha
      (splitlines (normalizeNewlines sourceText)) part).getD []).length >
        (wide (splitlines (normalizeNewlines sourceText)) count).maxChunksPerFile :=
    Nat.not_lt.mpr few
  rw [List.flatMap_map, if_neg within]
  exact exists_numbered (mem_sortOn.mpr (List.mem_flatMap.mpr ⟨part, listed, by simp [made]⟩))

/-- The paragraphs of a section with a line that is not blank are one chunk. -/
theorem sectionChunks_filled (listed : part ∈ documentSections filePath lines) {number : Nat}
    (within : Spans.Within number (sectionSpan part)) (filled : Filled lines number)
    (count : Nat) : sectionChunks (wide lines count) platform scope filePath commitSha lines part =
      some [documentationChunk platform scope filePath commitSha lines part.headingHierarchy
        (hull (paragraphRanges lines part.startLine part.endLine))] := by
  have bounds := section_bounds listed
  have paragraphs := @paragraphRanges_holding lines part.endLine part.startLine (by omega)
  obtain ⟨range, member, inRange⟩ := paragraphs.held number within filled
  have ranges := List.ne_nil_of_mem member
  have inside := paragraphs.separated.ordered.le_hull member
  have starts : 1 ≤ (hull (paragraphRanges lines part.startLine part.endLine)).1 := by
    obtain ⟨first, head, _, _, same⟩ := hull_ends ranges
    rw [same]
    exact bounds.1.trans (paragraphs.inside first (List.mem_of_head? head)).1
  have content : lineSlice lines (hull (paragraphRanges lines part.startLine part.endLine)).1
      (hull (paragraphRanges lines part.startLine part.endLine)).2 ≠ "" := fun empty =>
    not_filled_of_empty empty ⟨inside.1.trans inRange.1, inRange.2.trans inside.2⟩ starts filled
  rw [sectionChunks_wide, packRanges_whole (fitsChunk_wide count) ranges, Option.map_some,
    List.map_singleton]
  exact congrArg some (List.filter_eq_self.mpr
    (List.forall_mem_singleton.mpr (decide_eq_true content)))

/-- The chunk of a section that holds a line that is not blank. -/
theorem exists_section_chunk (supported : (isMarkdown filePath || isPlainText filePath) = true)
    (listed : part ∈ documentSections filePath (splitlines (normalizeNewlines sourceText)))
    {number : Nat} (within : Spans.Within number (sectionSpan part))
    (filled : Filled (splitlines (normalizeNewlines sourceText)) number)
    (platform : Platform) (scope : ChunkScope) (commitSha : CommitSha) :
    ∃ documented, ∃ chunk ∈ (chunkDocumentation documented platform scope filePath sourceText
        commitSha).chunks,
      chunkSpan chunk = hull (paragraphRanges (splitlines (normalizeNewlines sourceText))
        part.startLine part.endLine) := by
  obtain ⟨ordinal, emitted⟩ := chunkDocumentation_wide supported rfl listed
    (@sectionChunks_filled platform scope filePath commitSha _ part listed number within filled _)
  exact ⟨_, _, emitted, rfl⟩

end Documents

section Statement

variable {platform : Platform} {scope : ChunkScope} {filePath : String}
  {sourceText : List Char} {commitSha : CommitSha}

/-- The chunks of every limits setting hold what they cite. -/
def DocumentCited (platform : Platform) (scope : ChunkScope) (filePath : String)
    (sourceText : List Char) (commitSha : CommitSha) : Prop :=
  ∀ documented, ∀ chunk ∈ (chunkDocumentation documented platform scope filePath sourceText
    commitSha).chunks, chunk.content.toList = citedRows (normalizeNewlines sourceText) chunk

/-- The lines of the paragraphs of a section are rows, if one of them is not blank. -/
theorem DocumentCited.section_kept
    (cited : DocumentCited platform scope filePath sourceText commitSha)
    (supported : (isMarkdown filePath || isPlainText filePath) = true)
    {part : DocumentationSection}
    (listed : part ∈ documentSections filePath (splitlines (normalizeNewlines sourceText)))
    {number : Nat} (within : Spans.Within number (sectionSpan part))
    (filled : Filled (splitlines (normalizeNewlines sourceText)) number) {range : Span}
    (member : range ∈ paragraphRanges (splitlines (normalizeNewlines sourceText)) part.startLine
      part.endLine) :
    RowsKept (normalizeNewlines sourceText) (min number range.1) (max number range.2) := by
  obtain ⟨documented, chunk, emitted, span⟩ :=
    exists_section_chunk supported listed within filled platform scope commitSha
  have kept := (chunkDocumentation_cut emitted).cited_iff.mp (cited documented chunk emitted)
  have bounds := section_bounds listed
  have paragraphs := @paragraphRanges_holding (splitlines (normalizeNewlines sourceText))
    part.endLine part.startLine (by omega)
  obtain ⟨own, ownMember, inOwn⟩ := paragraphs.held number within filled
  have outer := paragraphs.separated.ordered.le_hull ownMember
  have inner := paragraphs.separated.ordered.le_hull member
  rw [← span] at outer inner
  have first : chunk.startLine ≤ min number range.1 :=
    Nat.le_min.mpr ⟨outer.1.trans inOwn.1, inner.1⟩
  have last : max number range.2 ≤ chunk.endLine :=
    Nat.max_le.mpr ⟨inOwn.2.trans outer.2, inner.2⟩
  exact fun place starts ends => kept place (first.trans starts) (ends.trans last)

/-- No other separator stands up to the last line that is not blank: it would put
that line further down than its row. -/
theorem DocumentCited.unseparated
    (cited : DocumentCited platform scope filePath sourceText commitSha)
    (supported : (isMarkdown filePath || isPlainText filePath) = true)
    (filled : Filled (splitlines (normalizeNewlines sourceText))
      (lastFilled (splitlines (normalizeNewlines sourceText)))) :
    Unseparated (normalizeNewlines sourceText)
      (lastFilled (splitlines (normalizeNewlines sourceText))) := by
  have returnless := not_mem_normalizeNewlines sourceText
  have there := filled_le filled
  have positive := lastFilled_pos filled
  obtain ⟨part, listed, within⟩ := exists_section filePath positive there
  have bounds := section_bounds listed
  have paragraphs := @paragraphRanges_holding (splitlines (normalizeNewlines sourceText))
    part.endLine part.startLine (by omega)
  obtain ⟨range, member, -⟩ := paragraphs.held _ within filled
  have kept := cited.section_kept supported listed within filled member _ (Nat.min_le_left _ _)
    (Nat.le_max_left _ _)
  obtain ⟨char, inside, visible⟩ := exists_of_strip filled
  have bound : lastFilled (splitlines (normalizeNewlines sourceText)) - 1 <
      (splitlines (normalizeNewlines sourceText)).length := by omega
  rw [List.getD_eq_getElem _ _ bound] at inside
  have plain := unseparated_of_last returnless (List.getElem?_eq_getElem bound) kept visible inside
    fun place line later found => ?_
  · rwa [Nat.sub_add_cancel positive] at plain
  · refine space_of_strip ?_
    by_contra other
    have further : Filled (splitlines (normalizeNewlines sourceText)) (place + 1) := by
      rw [Filled, Nat.add_sub_cancel, List.getD_eq_getElem?_getD, found]
      exact other
    have last := le_lastFilled further
    omega

/-- Under every limits setting the chunks of a documentation file hold what they cite
exactly when no other separator stands in a row up to the last written line. -/
theorem document_cited_iff : DocumentCited platform scope filePath sourceText commitSha ↔
    ((isMarkdown filePath || isPlainText filePath) = true →
      Unseparated (normalizeNewlines sourceText)
        (lastWritten (splitlines (normalizeNewlines sourceText)))) := by
  constructor
  · intro cited supported
    by_cases filled : Filled (splitlines (normalizeNewlines sourceText))
        (lastFilled (splitlines (normalizeNewlines sourceText)))
    · have plain := cited.unseparated supported filled
      by_cases closed : fenceAfter (splitlines (normalizeNewlines sourceText)) = none
      · rwa [lastWritten, if_pos closed]
      · rw [lastWritten, if_neg closed]
        obtain ⟨part, listed, inside, last⟩ := exists_last_section closed filled
        obtain ⟨range, member, ends⟩ := exists_last_paragraph closed listed last
        have kept := cited.section_kept supported listed inside filled member
        refine plain.extend fun number first final => kept number ?_ ?_
        · omega
        · omega
    · have unwritten := lastFilled_zero filled
      have closed : fenceAfter (splitlines (normalizeNewlines sourceText)) = none := by
        by_contra opened
        exact exists_filled opened unwritten
      rw [lastWritten, if_pos closed, unwritten]
      exact fun row member => nomatch member
  · intro plain documented chunk member
    have supported := (chunkDocumentation_section member).1
    obtain ⟨positive, last⟩ := document_chunk_within member
    exact (chunkDocumentation_cut member).cited_iff.mpr (rowsKept_of_plain
      ((plain supported).mono last) (last.trans (lastWritten_le _)) positive)

end Statement

/-- Under every limits setting the chunks of a Python file hold what they cite
exactly when each statement that can be cut stands in lines that are its rows, and
those of a document when no other separator stands up to its last written line. -/
theorem chunks_cited_iff (parser : PythonStaticParser) (platform : Platform) (scope : ChunkScope)
    (treeSitter : List Char → Node) (filePath documentPath : String)
    (sourceText documentText : List Char) (commitSha : CommitSha)
    (wellFormed : WellFormed (normalizeNewlines sourceText)
      (treeSitter (normalizeNewlines sourceText))) :
    ((∀ chunker, PythonCited chunker platform scope
        (parsePython parser platform treeSitter filePath sourceText commitSha)
        (normalizeNewlines sourceText)) ↔
      ∀ statement, CutStatement
          (parsePython parser platform treeSitter filePath sourceText commitSha)
          (splitlines (parsePython parser platform treeSitter filePath sourceText
            commitSha).sourceText.toList) statement →
        RowsKept (normalizeNewlines sourceText) statement.startLine statement.endLine) ∧
    (DocumentCited platform scope documentPath documentText commitSha ↔
      ((isMarkdown documentPath || isPlainText documentPath) = true →
        Unseparated (normalizeNewlines documentText)
          (lastWritten (splitlines (normalizeNewlines documentText))))) :=
  ⟨python_cited_iff wellFormed, document_cited_iff⟩

/-! ## A form feed -/

namespace CitationSamples

open ReceiverSamples

/-- A class with one statement. -/
def classText : List Char := "class A:\n x = 1\n".toList

def classRoot : Node :=
  node "module" none (0, 16) ⟨0, 0⟩ ⟨2, 0⟩ [
    node "class_definition" none (0, 15) ⟨0, 0⟩ ⟨1, 6⟩ [
      node "identifier" (some "name") (6, 7) ⟨0, 6⟩ ⟨0, 7⟩ [],
      node "block" (some "body") (10, 15) ⟨1, 1⟩ ⟨1, 6⟩ [
        node "expression_statement" none (10, 15) ⟨1, 1⟩ ⟨1, 6⟩ [
          node "assignment" none (10, 15) ⟨1, 1⟩ ⟨1, 6⟩ [
            node "identifier" (some "left") (10, 11) ⟨1, 1⟩ ⟨1, 2⟩ [],
            node "integer" (some "right") (14, 15) ⟨1, 5⟩ ⟨1, 6⟩ []]]]]]

def classFile : ParsedFile :=
  parsePython limits.pythonParser platform (fun _ => classRoot) "m.py" classText "commit"

/-- A page break between two lines. -/
def pageText : List Char := "a\x0cb\nc".toList

def notesText : List Char := "a\nb\n\nc\n".toList

def notesChunks (text : List Char) : FileChunkResult :=
  chunkDocumentation documented platform chunkScope "notes.txt" text "commit"

/-- The statements of the file end in its rows, none with another separator. -/
def plainStatements (text : List Char) (parsed : ParsedFile) : Bool :=
  (parsed.moduleSegments ++ parsed.symbols.flatMap (·.bodySegments)).all fun statement =>
    decide (1 ≤ statement.startLine) && decide (statement.endLine ≤ (splitlines text).length) &&
      decide (Unseparated text statement.endLine)

theorem rowsKept_of_plainStatements {text : List Char} {parsed : ParsedFile}
    (checked : plainStatements text parsed = true) {lines : List (List Char)}
    {statement : SourceSegment} (cut : CutStatement parsed lines statement) :
    RowsKept text statement.startLine statement.endLine := by
  have listed : statement ∈ parsed.moduleSegments ++ parsed.symbols.flatMap (·.bodySegments) := by
    rcases cut.listed with module | ⟨symbol, member, body⟩
    · exact List.mem_append_left _ module
    · exact List.mem_append_right _ (List.mem_flatMap.mpr ⟨symbol, member, body⟩)
  have plain := List.all_eq_true.mp checked statement listed
  simp only [Bool.and_eq_true, decide_eq_true_eq] at plain
  exact rowsKept_of_plain plain.2 plain.1.2 plain.1.1

end CitationSamples

open ReceiverSamples CitationSamples in
/-- A form feed ends a line of `splitlines`, and the chunk has a line break in
its place. -/
theorem page_break_miscited : ¬ ∀ chunk ∈ (notesChunks pageText).chunks,
    chunk.content.toList = citedRows (normalizeNewlines pageText) chunk := by
  decide +kernel

open ReceiverSamples CitationSamples in
theorem plain_chunks_cited :
    (∀ chunker, PythonCited chunker platform chunkScope classFile (normalizeNewlines classText)) ∧
      DocumentCited platform chunkScope "notes.txt" notesText "commit" := by
  have wellFormed : WellFormed (normalizeNewlines classText) classRoot :=
    wellFormed_of_lawful (by decide +kernel)
  have cited := chunks_cited_iff limits.pythonParser platform chunkScope (fun _ => classRoot)
    "m.py" "notes.txt" classText notesText "commit" wellFormed
  constructor
  · have plain : plainStatements (normalizeNewlines classText) classFile = true := by
      decide +kernel
    exact cited.1.mpr fun statement => rowsKept_of_plainStatements plain
  · have plain : Unseparated (normalizeNewlines notesText)
        (lastWritten (splitlines (normalizeNewlines notesText))) := by
      decide +kernel
    exact cited.2.mpr fun _ => plain

end Codenaut.Indexing
