import Codenaut.Indexing.ChunkCitations
import Codenaut.Spans.Packing
import Mathlib.Data.List.GetD

/-!
# Splitting of symbols

The chunks of a symbol that does not stay whole: the greedy groups of the runs of
its statements and comments. What is refused, what each chunk holds and where two
chunks meet.
-/

set_option autoImplicit false

namespace Codenaut.Indexing

open Codenaut.Db Codenaut.Relational Codenaut.Spans Codenaut.Text

/-! ## Runs and groups -/

def segmentSpan (segment : SourceSegment) : Span :=
  (segment.startLine, segment.endLine)

/-- The statements and comments of a body. -/
def elementsOf (symbol : ParsedSymbol) : List SourceSegment :=
  symbol.bodySegments.filter (!isDefinitionSegment ·)

def fitsLines (chunker : PythonChunker) (lines : List (List Char)) (start stop : Nat) : Bool :=
  (lineSlice lines start stop).utf8ByteSize ≤ chunker.maxChunkBytes

/-- The chunk of a group of lines. -/
def groupChunk (chunker : PythonChunker) (platform : Platform) (scope : ChunkScope)
    (parsed : ParsedFile) (lines : List (List Char)) (chunkType : ChunkType)
    (symbol : Option ParsedSymbol) (group : Span) : Option ContentChunk :=
  makeChunk chunker platform scope parsed chunkType symbol (lineSlice lines group.1 group.2)
    group.1 group.2

/-- The groups of the runs of a symbol's elements. -/
def groupsOf (chunker : PythonChunker) (lines : List (List Char)) (symbol : ParsedSymbol) :
    List Span :=
  (contiguousRuns (elementsOf symbol)).flatMap fun run =>
    groups (fitsLines chunker lines) (run.map segmentSpan)

section Groups

variable {chunker : PythonChunker} {platform : Platform} {scope : ChunkScope}
  {parsed : ParsedFile} {lines : List (List Char)} {chunkType : ChunkType}
  {symbol : Option ParsedSymbol}

theorem runsFrom_adjoining {current segments : List SourceSegment} {last : SourceSegment}
    (ends : current.getLast? = some last) (adjoining : Adjoining (current.map segmentSpan)) :
    (runsFrom current last.endLine segments).flatten = current ++ segments ∧
      ∀ run ∈ runsFrom current last.endLine segments, Adjoining (run.map segmentSpan) := by
  induction segments generalizing current last with
  | nil => simpa [runsFrom] using adjoining
  | cons segment rest ih =>
      rw [runsFrom]
      split
      · obtain ⟨joined, others⟩ := @ih [segment] segment rfl (.singleton _)
        rw [List.flatten_cons, joined, List.singleton_append]
        exact ⟨rfl, List.forall_mem_cons.mpr ⟨adjoining, others⟩⟩
      case isFalse near =>
        have more := @ih (current ++ [segment]) segment (by simp) (by
          rw [List.map_append, Adjoining, List.isChain_append]
          refine ⟨adjoining, .singleton _, fun left leftLast right rightFirst => ?_⟩
          rw [List.getLast?_map, ends] at leftLast
          cases leftLast
          cases rightFirst
          exact Nat.not_lt.mp near)
        rwa [List.append_assoc, List.singleton_append] at more

theorem contiguousRuns_adjoining (segments : List SourceSegment) :
    (contiguousRuns segments).flatten = segments ∧
      ∀ run ∈ contiguousRuns segments, Adjoining (run.map segmentSpan) := by
  cases segments with
  | nil => simp [contiguousRuns]
  | cons first rest => exact @runsFrom_adjoining [first] rest first rfl (.singleton _)

/-- The groups pack the elements, each a block of elements that adjoin. -/
theorem groupsOf_packed (owner : ParsedSymbol) :
    ∃ blocks, Packed (fitsLines chunker lines) blocks ((elementsOf owner).map segmentSpan)
      (groupsOf chunker lines owner) ∧ ∀ block ∈ blocks, Adjoining block := by
  obtain ⟨joined, adjoining⟩ := contiguousRuns_adjoining (elementsOf owner)
  have parts := @parts_packed (fitsLines chunker lines)
    ((contiguousRuns (elementsOf owner)).map (·.map segmentSpan))
    (List.forall_mem_map.mpr adjoining)
  rwa [← List.map_flatten, joined, List.flatMap_map] at parts

theorem segmentChunksFrom_groups {start stop : Nat} (segments : List SourceSegment) :
    segmentChunksFrom chunker platform scope parsed lines chunkType symbol start stop segments =
      (groupsFrom (fitsLines chunker lines) start stop (segments.map segmentSpan)).mapM
        (groupChunk chunker platform scope parsed lines chunkType symbol) := by
  induction segments generalizing start stop with
  | nil =>
      rw [segmentChunksFrom, List.map_nil, groupsFrom, List.mapM_cons, List.mapM_nil, groupChunk]
      cases makeChunk chunker platform scope parsed chunkType symbol (lineSlice lines start stop)
        start stop <;> rfl
  | cons segment rest ih =>
      rw [segmentChunksFrom, List.map_cons, groupsFrom]
      have decided : fitsLines chunker lines start (segmentSpan segment).2 = true ↔
          (lineSlice lines start segment.endLine).utf8ByteSize ≤ chunker.maxChunkBytes :=
        decide_eq_true_iff
      by_cases fits : (lineSlice lines start segment.endLine).utf8ByteSize ≤ chunker.maxChunkBytes
      · rw [if_pos fits, if_pos (decided.mpr fits)]
        exact ih
      · rw [if_neg fits, if_neg fun fit => fits (decided.mp fit), List.mapM_cons, groupChunk]
        cases makeChunk chunker platform scope parsed chunkType symbol (lineSlice lines start stop)
            start stop with
        | none => rfl
        | some chunk =>
            dsimp only
            rw [ih, Option.map_eq_bind]
            rfl

theorem segmentChunks_groups (segments : List SourceSegment) :
    segmentChunks chunker platform scope parsed lines chunkType symbol segments =
      (groups (fitsLines chunker lines) (segments.map segmentSpan)).mapM
        (groupChunk chunker platform scope parsed lines chunkType symbol) := by
  cases segments with
  | nil => rfl
  | cons first rest => exact segmentChunksFrom_groups rest

/-- The body of a symbol is chunked group by group. -/
theorem runChunks_groups (owner : ParsedSymbol) :
    runChunks chunker platform scope parsed lines chunkType owner =
      (groupsOf chunker lines owner).mapM
        (groupChunk chunker platform scope parsed lines chunkType (some owner)) := by
  rw [runChunks, groupsOf, ← mapM_parts]
  exact congrArg (fun step => ((contiguousRuns (elementsOf owner)).mapM step).map List.flatten)
    (funext segmentChunks_groups)

end Groups

/-! ## Lines -/

section Slices

variable {lines : List (List Char)} {first last startLine endLine : Nat}

theorem joinLines_append {left right : List (List Char)} (filled : left ≠ [])
    (more : right ≠ []) :
    joinLines (left ++ right) = joinLines left ++ '\n' :: joinLines right := by
  induction left with
  | nil => exact absurd rfl filled
  | cons line rest ih =>
      cases rest with
      | nil => simpa [joinLines, joinRows] using joinRows_cons more line
      | cons next rest =>
          have whole : joinLines (line :: (next :: rest ++ right)) =
              line ++ '\n' :: joinLines (next :: rest ++ right) := joinRows_cons (by simp) line
          have part : joinLines (line :: next :: rest) = line ++ '\n' :: joinLines (next :: rest) :=
            joinRows_cons (List.cons_ne_nil next rest) line
          rw [List.cons_append, whole, part, ih (List.cons_ne_nil next rest), List.append_assoc,
            List.cons_append]

theorem joinLines_inside (before part after : List (List Char)) :
    joinLines part <:+: joinLines (before ++ part ++ after) := by
  by_cases none : part = []
  · rw [none]
    exact List.nil_infix
  · have front : joinLines part <:+ joinLines (before ++ part) := by
      cases before with
      | nil => exact List.suffix_refl _
      | cons first rest =>
          rw [joinLines_append (List.cons_ne_nil first rest) none]
          exact ⟨joinLines (first :: rest) ++ ['\n'], by rw [List.append_assoc]; rfl⟩
    have back : joinLines (before ++ part) <+: joinLines (before ++ part ++ after) := by
      cases after with
      | nil => rw [List.append_nil]
      | cons first rest =>
          rw [joinLines_append (List.append_ne_nil_of_right_ne_nil before none)
            (List.cons_ne_nil first rest)]
          exact List.prefix_append _ _
    exact front.isInfix.trans back.isInfix

theorem byteLength_inside {part whole : List Char} (inside : part <:+: whole) :
    byteLength part ≤ byteLength whole := by
  obtain ⟨before, after, rfl⟩ := inside
  rw [byteLength_append, byteLength_append]
  omega

/-- Fewer lines take no more bytes. -/
theorem lineSlice_le (before : startLine ≤ first) (after : last ≤ endLine) :
    (lineSlice lines first last).utf8ByteSize ≤
      (lineSlice lines startLine endLine).utf8ByteSize := by
  have inside : (lines.take last).drop (first - 1) <:+:
      (lines.take endLine).drop (startLine - 1) := by
    have shift : first - 1 = (startLine - 1) + (first - 1 - (startLine - 1)) := by omega
    rw [← Nat.min_eq_left after, ← List.take_take, shift, ← List.drop_drop, List.drop_take]
    exact (List.drop_suffix _ _).isInfix.trans (List.take_prefix _ _).isInfix
  obtain ⟨front, back, whole⟩ := inside
  rw [lineSlice, lineSlice, utf8ByteSize_ofList, utf8ByteSize_ofList, ← whole]
  exact byteLength_inside (joinLines_inside front _ back)

end Slices

/-! ## Bodies in a tree -/

/-- A definition starts with its keyword, before its body, and no statement or
comment of its body is blank. -/
structure DefinitionText (source : List Char) (definition : Node) : Prop where
  keyword : ∀ body, definition.childByFieldName "body" = some body →
    strip (textRange definition.info.startByte body.info.startByte source) ≠ []
  elements : ∀ body, definition.childByFieldName "body" = some body →
    ∀ element ∈ body.namedChildren,
      strip (textRange element.info.startByte element.info.endByte source) ≠ []

/-- What the parser library promises of the texts of definitions. -/
def DefinitionTexts (source : List Char) (root : Node) : Prop :=
  ∀ node ∈ visited [root], isDefinition node = true → DefinitionText source node

/-- The rows of a text, the last one only if it is not empty. -/
def newlineRows (text : List Char) : List (List Char) :=
  if (rowsOf text).getLast? = some [] then (rowsOf text).dropLast else rowsOf text

/-- The elements of a body are in order, and the lines of each are not empty. -/
structure BodyLines (lines : List (List Char)) (symbol : ParsedSymbol) : Prop where
  ordered : Ordered (symbol.bodySegments.map segmentSpan)
  filled : ∀ segment ∈ symbol.bodySegments,
    lineSlice lines segment.startLine segment.endLine ≠ ""
  headed : symbol.headerText ≠ ""

section Trees

variable {platform : Platform} {file : SourceFile} {source : List Char}

theorem DefinitionTexts.hereditary : Hereditary source fun node =>
    WellFormed source node ∧ DefinitionTexts source node where
  child := by
    rintro node child ⟨wellFormed, texts⟩ member
    refine ⟨wellFormed.child member, fun below within => texts below ?_⟩
    rw [visited_single]
    exact .tail _ (mem_visited_iff.mpr ⟨child, member, within⟩)
  formed := fun laws => laws.1.laws

/-- A row with text is a line, too. -/
theorem newlineRows_getElem {number : Nat} {row : List Char}
    (there : (rowsOf source)[number]? = some row) (filled : row ≠ []) :
    (newlineRows source)[number]? = some row := by
  unfold newlineRows
  split
  case isTrue trailing =>
    have bound := (List.getElem?_eq_some_iff.mp there).1
    rw [List.getElem?_dropLast, if_pos, there]
    rw [List.getLast?_eq_getElem?] at trailing
    by_contra last
    have same : number = (rowsOf source).length - 1 := by omega
    rw [same, trailing] at there
    exact filled (Option.some.inj there).symm
  · exact there

/-- Rows with a character that is no line feed are not empty lines. -/
theorem lineSlice_filled {first last : Nat} {char : Char} (feedless : char ≠ '\n')
    (member : char ∈ joinRows (((rowsOf source).take last).drop (first - 1))) :
    lineSlice (newlineRows source) first last ≠ "" := by
  obtain ⟨row, listed, inside⟩ := mem_of_mem_joinRows feedless member
  have filled : row ≠ [] := List.ne_nil_of_mem inside
  obtain ⟨place, there⟩ := List.mem_iff_getElem?.mp listed
  rw [List.getElem?_drop, List.getElem?_take] at there
  split at there
  case isFalse => cases there
  case isTrue before =>
    have kept := newlineRows_getElem there filled
    have line : row ∈ ((newlineRows source).take last).drop (first - 1) := by
      refine List.mem_iff_getElem?.mpr ⟨place, ?_⟩
      rw [List.getElem?_drop, List.getElem?_take, if_pos before, kept]
    intro empty
    have joined : joinLines (((newlineRows source).take last).drop (first - 1)) = [] := by
      simpa [lineSlice] using empty
    exact filled (eq_nil_of_joinRows joined line)

/-- A text that is not blank has a character that is no space. -/
theorem exists_of_strip {text : List Char} (filled : strip text ≠ []) :
    ∃ char ∈ text, isSpace char = false := by
  by_contra none
  push Not at none
  have spaces : ∀ char ∈ text, isSpace char = true := fun char member => by
    simpa using none char member
  apply filled
  rw [strip, List.dropWhile_eq_nil_iff.mpr spaces]
  rfl

theorem segments_ordered {body : Node} (laws : WellFormed source body) :
    Ordered ((segmentsOf body.namedChildren source).map segmentSpan) where
  proper := by
    intro span member
    obtain ⟨segment, listed, rfl⟩ := List.mem_map.mp member
    obtain ⟨node, inside, rfl⟩ := List.mem_map.mp listed
    have own := (laws.child inside).laws
    exact Nat.add_le_add_right (row_le_of_le own.start own.stop own.ordered) 1
  sorted := by
    rw [segmentsOf, List.map_map, List.pairwise_map]
    refine laws.laws.apart.imp_of_mem fun {left right} inLeft inRight apart => ?_
    have first := (laws.child inLeft).laws.stop
    have second := (laws.child inRight).laws.start
    exact Nat.add_le_add_right (row_le_of_le first second apart) 1

theorem segment_filled {node : Node} (laws : NodeLaws source node)
    (text : strip (textRange node.info.startByte node.info.endByte source) ≠ []) :
    lineSlice (newlineRows source) (node.info.startPoint.row + 1) (node.info.endPoint.row + 1) ≠
      "" := by
  obtain ⟨char, member, visible⟩ := exists_of_strip text
  have feedless : char ≠ '\n' := by
    rintro rfl
    cases visible
  refine lineSlice_filled feedless ?_
  have inside := nodeText_rows laws
  rw [nodeText, String.toList_ofList] at inside
  exact inside.subset member

/-- The header of a definition has its keyword. -/
theorem header_filled {wrapper definition body : Node} (laws : NodeLaws source wrapper)
    (inner : NodeLaws source definition) (last : NodeLaws source body)
    (starts : wrapper.info.startByte ≤ definition.info.startByte)
    (opens : definition.info.startByte ≤ body.info.startByte)
    (keyword : strip (textRange definition.info.startByte body.info.startByte source) ≠ []) :
    String.ofList (rstrip (textRange wrapper.info.startByte body.info.startByte source)) ≠ "" := by
  intro empty
  obtain ⟨char, member, visible⟩ := exists_of_strip keyword
  have none : rstrip (textRange wrapper.info.startByte body.info.startByte source) = [] :=
    String.ofList_eq_empty_iff.mp empty
  have spaces := List.rdropWhile_eq_nil_iff.mp none
  rw [textRange_append laws.start inner.start last.start starts opens] at spaces
  rw [spaces char (List.mem_append_right _ member)] at visible
  cases visible

/-- The elements of a body are in order. -/
theorem MadeFrom.ordered {wrapper definition : Node} {symbol : ParsedSymbol}
    (made : MadeFrom platform file wrapper definition symbol)
    (laws : WellFormed file.source wrapper) :
    Ordered (symbol.bodySegments.map segmentSpan) := by
  obtain ⟨inner, -, -⟩ := childView_wellFormed laws made.view
  obtain ⟨decorators, parents, symbolOf⟩ := made.made
  unfold Indexing.symbolOf at symbolOf
  split at symbolOf
  case h_1 nameNode body _ found =>
    cases symbolOf
    exact segments_ordered (inner.child (inner.laws.field (by simp) found))
  · cases symbolOf

theorem MadeFrom.bodyLines {wrapper definition : Node} {symbol : ParsedSymbol}
    (made : MadeFrom platform file wrapper definition symbol)
    (laws : WellFormed file.source wrapper) (texts : DefinitionTexts file.source wrapper) :
    BodyLines (newlineRows file.source) symbol := by
  have ordered := made.ordered laws
  obtain ⟨inner, starts, -⟩ := childView_wellFormed laws made.view
  have below := (DefinitionTexts.hereditary.definition ⟨laws, texts⟩ made.view).2
  have text := below definition (by rw [visited_single]; exact .head _)
    (childView_cases made.view).1
  obtain ⟨decorators, parents, symbolOf⟩ := made.made
  unfold Indexing.symbolOf at symbolOf
  split at symbolOf
  case h_1 nameNode body _ found =>
    cases symbolOf
    have listed := inner.laws.field (by simp) found
    refine ⟨ordered, fun segment member => ?_, ?_⟩
    · obtain ⟨node, inside, rfl⟩ := List.mem_map.mp member
      exact segment_filled ((inner.child listed).child inside).laws
        (text.elements body found node inside)
    · exact header_filled laws.laws inner.laws (inner.child listed).laws starts
        (inner.laws.inside body listed).1 (text.keyword body found)
  · cases symbolOf

theorem parseTree_bodyLines {parser : PythonStaticParser} {root : Node}
    (laws : WellFormed file.source root) (texts : DefinitionTexts file.source root)
    {symbol : ParsedSymbol} (member : symbol ∈ (parseTree parser platform file root).symbols) :
    BodyLines (newlineRows file.source) symbol := by
  have walked := parseTree_symbols member
  rcases DefinitionTexts.hereditary.walk
    (fun node => DefinitionTexts.hereditary.child ⟨laws, texts⟩) walked with none | made
  · cases none
  · obtain ⟨wrapper, definition, both, made⟩ := made
    exact made.bodyLines both.1 both.2

/-- A file with symbols keeps its text. -/
theorem parseTree_sourceText {parser : PythonStaticParser} {root : Node} {symbol : ParsedSymbol}
    (member : symbol ∈ (parseTree parser platform file root).symbols) :
    (parseTree parser platform file root).sourceText.toList = file.source := by
  unfold parseTree at member ⊢
  dsimp only at member ⊢
  split at member
  · cases member
  case isFalse counted =>
    rw [if_neg counted]
    exact String.toList_ofList

end Trees

/-! ## Chunks of a body -/

/-- The symbol does not stay whole. -/
def MustSplit (chunker : PythonChunker) (symbol : ParsedSymbol) : Prop :=
  symbol.symbolType = .classType ∨ chunker.maxChunkBytes < symbol.sourceText.utf8ByteSize

def OversizedElement (chunker : PythonChunker) (lines : List (List Char))
    (symbol : ParsedSymbol) : Prop :=
  ∃ segment ∈ elementsOf symbol,
    chunker.maxChunkBytes < (lineSlice lines segment.startLine segment.endLine).utf8ByteSize

/-- The symbol, the header of a class or one element is too large. -/
def TooLarge (chunker : PythonChunker) (lines : List (List Char)) (symbol : ParsedSymbol) : Prop :=
  chunker.maxSymbolBytes < symbol.sourceText.utf8ByteSize ∨
    symbol.symbolType = .classType ∧ chunker.maxChunkBytes < symbol.headerText.utf8ByteSize ∨
    OversizedElement chunker lines symbol

/-- No definition of the body shares a line with another element. -/
def DefinitionsApart (symbol : ParsedSymbol) : Prop :=
  symbol.bodySegments.Pairwise fun left right =>
    isDefinitionSegment left = true ∨ isDefinitionSegment right = true →
      left.endLine < right.startLine

instance (symbol : ParsedSymbol) : Decidable (DefinitionsApart symbol) :=
  inferInstanceAs (Decidable (List.Pairwise _ _))

/-- The chunks of a body: in order, each element wholly in one, with no line that
is not an element's, and meeting only in a line of two elements. -/
structure BodyChunks (chunker : PythonChunker) (lines : List (List Char)) (symbol : ParsedSymbol)
    (chunks : List ContentChunk) : Prop where
  bounded : ∀ chunk ∈ chunks, chunk.content.utf8ByteSize ≤ chunker.maxChunkBytes
  cut : ∀ chunk ∈ chunks, CutFrom lines chunk
  ordered : chunks.Pairwise fun left right => left.endLine ≤ right.startLine
  meeting : chunks.Pairwise fun left right => left.endLine = right.startLine →
    ∃ first second, [first, second].Sublist ((elementsOf symbol).map segmentSpan) ∧
      first.2 = left.endLine ∧ second.1 = right.startLine
  whole : ∀ segment ∈ elementsOf symbol, ∃ chunk ∈ chunks,
    chunk.startLine ≤ segment.startLine ∧ segment.endLine ≤ chunk.endLine
  inside : ∀ chunk ∈ chunks, ∀ number, Spans.Within number (chunkSpan chunk) →
    ∃ segment ∈ elementsOf symbol, Spans.Within number (segmentSpan segment)
  excluded : ∀ chunk ∈ chunks, ∀ segment ∈ symbol.bodySegments,
    isDefinitionSegment segment = true → ∀ number, Spans.Within number (chunkSpan chunk) →
      ¬Spans.Within number (segmentSpan segment)

section Bodies

variable {chunker : PythonChunker} {platform : Platform} {scope : ChunkScope}
  {parsed : ParsedFile} {lines : List (List Char)} {chunkType : ChunkType}
  {symbol : ParsedSymbol} {chunks : List ContentChunk}

theorem makeChunk_eq_none_iff {owner : Option ParsedSymbol} {content : String}
    {startLine endLine : Nat} (filled : content ≠ "") :
    makeChunk chunker platform scope parsed chunkType owner content startLine endLine = none ↔
      chunker.maxChunkBytes < content.utf8ByteSize := by
  unfold makeChunk
  split
  case isTrue large => simpa [filled] using large
  case isFalse fits => simpa [filled] using fits

theorem makeChunk_bounded {owner : Option ParsedSymbol} {content : String}
    {startLine endLine : Nat} {chunk : ContentChunk}
    (made : makeChunk chunker platform scope parsed chunkType owner content startLine endLine =
      some chunk) : chunk.content.utf8ByteSize ≤ chunker.maxChunkBytes := by
  unfold makeChunk at made
  split at made
  · cases made
  case isFalse fits =>
    cases made
    exact Nat.not_lt.mp (not_or.mp fits).2

theorem BodyLines.elements (body : BodyLines lines symbol) :
    Ordered ((elementsOf symbol).map segmentSpan) :=
  body.ordered.sublist (List.filter_sublist.map segmentSpan)

/-- Every group spans an element. -/
theorem groupsOf_element (body : BodyLines lines symbol) {group : Span}
    (member : group ∈ groupsOf chunker lines symbol) : ∃ segment ∈ elementsOf symbol,
      group.1 ≤ segment.startLine ∧ segment.endLine ≤ group.2 := by
  obtain ⟨blocks, packed, -⟩ := @groupsOf_packed chunker lines symbol
  rw [packed.hulls] at member
  obtain ⟨block, listed, rfl⟩ := List.mem_map.mp member
  obtain ⟨span, inside⟩ := List.exists_mem_of_ne_nil block (packed.filled block listed)
  have spans : span ∈ (elementsOf symbol).map segmentSpan :=
    packed.joined ▸ List.mem_flatten.mpr ⟨block, listed, inside⟩
  obtain ⟨segment, element, rfl⟩ := List.mem_map.mp spans
  exact ⟨segment, element, (packed.ordered body.elements listed).le_hull inside⟩

/-- A group has text, as each of its elements has. -/
theorem group_filled (body : BodyLines lines symbol) {group : Span}
    (member : group ∈ groupsOf chunker lines symbol) : lineSlice lines group.1 group.2 ≠ "" := by
  obtain ⟨segment, element, first, last⟩ := groupsOf_element body member
  intro empty
  have sizes := @lineSlice_le lines _ _ _ _ first last
  rw [empty, String.utf8ByteSize_empty, Nat.le_zero, String.utf8ByteSize_eq_zero_iff] at sizes
  exact body.filled segment (List.mem_of_mem_filter element) sizes

/-- A group is too large just where an element is. -/
theorem runChunks_eq_none_iff (body : BodyLines lines symbol) :
    runChunks chunker platform scope parsed lines chunkType symbol = none ↔
      OversizedElement chunker lines symbol := by
  rw [runChunks_groups, mapM_eq_none_iff]
  obtain ⟨blocks, packed, -⟩ := @groupsOf_packed chunker lines symbol
  constructor
  · rintro ⟨group, member, refused⟩
    have large := (makeChunk_eq_none_iff (group_filled body member)).mp refused
    rw [packed.hulls] at member
    obtain ⟨block, listed, rfl⟩ := List.mem_map.mp member
    rcases packed.fitting block listed with ⟨span, rfl⟩ | fits
    · have spans : span ∈ (elementsOf symbol).map segmentSpan :=
        packed.joined ▸ List.mem_flatten.mpr ⟨[span], listed, .head _⟩
      obtain ⟨segment, element, rfl⟩ := List.mem_map.mp spans
      exact ⟨segment, element, large⟩
    · exact absurd large (Nat.not_lt.mpr (of_decide_eq_true fits))
  · rintro ⟨segment, element, large⟩
    obtain ⟨group, member, first, last⟩ := packed.covers body.elements (List.mem_map_of_mem element)
    rw [← packed.hulls] at member
    refine ⟨group, member, (makeChunk_eq_none_iff (group_filled body member)).mpr ?_⟩
    exact Nat.lt_of_lt_of_le large (lineSlice_le first last)

/-- The chunks of a body span its groups. -/
theorem runChunks_spans
    (made : runChunks chunker platform scope parsed lines chunkType symbol = some chunks) :
    chunks.map chunkSpan = groupsOf chunker lines symbol := by
  rw [runChunks_groups, mapM_eq_some_iff] at made
  have spans : List.Forall₂ (fun group chunk => group = chunkSpan chunk)
      (groupsOf chunker lines symbol) chunks := made.imp fun group chunk grouped => by
    have kept := makeChunk_some grouped
    exact Prod.ext kept.first.symm kept.last.symm
  rw [← List.forall₂_map_right_iff (R := (· = ·)), List.forall₂_eq_eq_eq] at spans
  exact spans.symm

theorem definition_apart (apart : DefinitionsApart symbol) {element definition : SourceSegment}
    (first : element ∈ elementsOf symbol) (second : definition ∈ symbol.bodySegments)
    (defines : isDefinitionSegment definition = true) :
    element.endLine < definition.startLine ∨ definition.endLine < element.startLine := by
  obtain ⟨listed, plain⟩ := List.mem_filter.mp first
  have either : symbol.bodySegments.Pairwise fun left right =>
      isDefinitionSegment left = true ∨ isDefinitionSegment right = true →
        left.endLine < right.startLine ∨ right.endLine < left.startLine :=
    apart.imp fun separate either => .inl (separate either)
  have symmetric : Std.Symm fun left right : SourceSegment =>
      isDefinitionSegment left = true ∨ isDefinitionSegment right = true →
        left.endLine < right.startLine ∨ right.endLine < left.startLine :=
    ⟨fun left right separate either => (separate either.symm).symm⟩
  refine either.forall listed second ?_ (.inr defines)
  rintro rfl
  simp [defines] at plain

theorem runChunks_body (body : BodyLines lines symbol) (apart : DefinitionsApart symbol)
    (made : runChunks chunker platform scope parsed lines chunkType symbol = some chunks) :
    BodyChunks chunker lines symbol chunks := by
  obtain ⟨blocks, packed, adjoining⟩ := @groupsOf_packed chunker lines symbol
  have spans := runChunks_spans made
  have meets := packed.hulls_meet body.elements
  rw [← packed.hulls, ← spans, List.pairwise_map] at meets
  rw [runChunks_groups] at made
  have inside : ∀ chunk ∈ chunks, ∀ number, Spans.Within number (chunkSpan chunk) →
      ∃ segment ∈ elementsOf symbol, Spans.Within number (segmentSpan segment) := by
    intro chunk member number within
    have listed : chunkSpan chunk ∈ groupsOf chunker lines symbol :=
      spans ▸ List.mem_map_of_mem member
    rw [packed.hulls] at listed
    obtain ⟨block, blockListed, same⟩ := List.mem_map.mp listed
    obtain ⟨span, inBlock, found⟩ := (adjoining block blockListed).within_hull
      (packed.filled block blockListed) (same ▸ within)
    have element : span ∈ (elementsOf symbol).map segmentSpan :=
      packed.joined ▸ List.mem_flatten.mpr ⟨block, blockListed, inBlock⟩
    obtain ⟨segment, segmentListed, rfl⟩ := List.mem_map.mp element
    exact ⟨segment, segmentListed, found⟩
  refine ⟨?_, ?_, meets.imp fun both => both.1, meets.imp fun both same => ?_, ?_, inside, ?_⟩
  · exact mapM_some_forall (fun _ _ grouped => makeChunk_bounded grouped) made
  · exact mapM_some_forall (fun _ _ grouped => makeChunk_cut grouped) made
  · obtain ⟨first, second, pair, ends, starts⟩ := both.2 same
    exact ⟨first, second, pair, ends, starts.trans same⟩
  · intro segment element
    obtain ⟨group, member, first, last⟩ := packed.covers body.elements (List.mem_map_of_mem element)
    rw [← packed.hulls, ← spans] at member
    obtain ⟨chunk, listed, rfl⟩ := List.mem_map.mp member
    exact ⟨chunk, listed, first, last⟩
  · intro chunk member segment listed defines number within
    obtain ⟨element, elementListed, found⟩ := inside chunk member number within
    rintro ⟨starts, ends⟩
    have separate := definition_apart apart elementListed listed defines
    have first := found.1
    have last := found.2
    dsimp only [segmentSpan] at starts ends first last
    omega

end Bodies

/-! ## Refusal and chunks of a symbol -/

/-- The chunk of a class header; other symbols have none. -/
def HeaderChunk (symbol : ParsedSymbol) (header : List ContentChunk) : Prop :=
  if symbol.symbolType = .classType then
    ∃ chunk, header = [chunk] ∧ MadeWith symbol.headerText symbol.headerStartLine
      symbol.headerEndLine chunk
  else header = []

/-- A symbol that must be split is refused just when something of it is too large;
otherwise its body is split without loss. -/
structure SplitOutcome (chunker : PythonChunker) (lines : List (List Char))
    (symbol : ParsedSymbol) (result : List ContentChunk × List String) : Prop where
  refused : result = ([], ["symbol_too_large"]) ↔ TooLarge chunker lines symbol
  split : ¬TooLarge chunker lines symbol → ∃ header body, result = (header ++ body, []) ∧
    HeaderChunk symbol header ∧ BodyChunks chunker lines symbol body

section Results

variable {chunker : PythonChunker} {platform : Platform} {scope : ChunkScope}
  {parsed : ParsedFile} {lines : List (List Char)} {symbol : ParsedSymbol}

theorem symbolChunks_split (body : BodyLines lines symbol) (apart : DefinitionsApart symbol)
    (must : MustSplit chunker symbol) :
    (symbolChunks chunker platform scope parsed lines symbol = none ↔
      symbol.symbolType = .classType ∧ chunker.maxChunkBytes < symbol.headerText.utf8ByteSize ∨
        OversizedElement chunker lines symbol) ∧
    ∀ chunks, symbolChunks chunker platform scope parsed lines symbol = some chunks →
      ∃ header rest, chunks = header ++ rest ∧ HeaderChunk symbol header ∧
        BodyChunks chunker lines symbol rest := by
  unfold symbolChunks HeaderChunk
  by_cases isClass : symbol.symbolType = .classType
  · simp only [isClass, if_true, true_and]
    cases headerMade : makeChunk chunker platform scope parsed .classOverview (some symbol)
        symbol.headerText symbol.headerStartLine symbol.headerEndLine with
    | none =>
        have large := (makeChunk_eq_none_iff body.headed).mp headerMade
        simp [large]
    | some header =>
        have small : ¬chunker.maxChunkBytes < symbol.headerText.utf8ByteSize := fun large => by
          rw [(makeChunk_eq_none_iff body.headed).mpr large] at headerMade
          cases headerMade
        rw [or_iff_right small]
        dsimp only
        rw [Option.map_eq_none_iff]
        refine ⟨runChunks_eq_none_iff body, fun chunks made => ?_⟩
        obtain ⟨rest, restMade, rfl⟩ := Option.map_eq_some_iff.mp made
        exact ⟨[header], rest, rfl, ⟨header, rfl, makeChunk_some headerMade⟩,
          runChunks_body body apart restMade⟩
  · have large := must.resolve_left isClass
    simp only [isClass, if_false, false_and, false_or, if_neg (Nat.not_le.mpr large)]
    refine ⟨runChunks_eq_none_iff body, fun chunks made => ?_⟩
    exact ⟨[], chunks, rfl, rfl, runChunks_body body apart made⟩

theorem symbolResult_split (body : BodyLines lines symbol) (apart : DefinitionsApart symbol)
    (must : MustSplit chunker symbol) : SplitOutcome chunker lines symbol
      (symbolResult chunker platform scope parsed lines symbol) := by
  obtain ⟨refused, split⟩ := @symbolChunks_split chunker platform scope parsed lines symbol body
    apart must
  unfold symbolResult
  by_cases huge : symbol.sourceText.utf8ByteSize > chunker.maxSymbolBytes
  · rw [if_pos huge]
    exact ⟨⟨fun _ => .inl huge, fun _ => rfl⟩, fun fits => absurd (.inl huge) fits⟩
  · rw [if_neg huge]
    have rest : TooLarge chunker lines symbol ↔
        symbolChunks chunker platform scope parsed lines symbol = none := by
      rw [refused, TooLarge, or_iff_right (show ¬chunker.maxSymbolBytes < _ from huge)]
    constructor
    · rw [rest]
      cases symbolChunks chunker platform scope parsed lines symbol <;> simp
    · intro fits
      rw [rest] at fits
      cases made : symbolChunks chunker platform scope parsed lines symbol with
      | none => exact absurd made fits
      | some chunks =>
          obtain ⟨header, chunksOfBody, rfl, headed, bodied⟩ := split chunks made
          exact ⟨header, chunksOfBody, rfl, headed, bodied⟩

end Results

/-- Splitting a symbol of a file whose lines are its rows, in whose body no
definition shares a line, loses nothing and keeps to the limits. -/
theorem symbol_split (parser : PythonStaticParser) (platform : Platform)
    (chunker : PythonChunker) (scope : ChunkScope) (treeSitter : List Char → Node)
    (filePath : String) (sourceText : List Char) (commitSha : CommitSha) (symbol : ParsedSymbol)
    (wellFormed : WellFormed (normalizeNewlines sourceText)
      (treeSitter (normalizeNewlines sourceText)))
    (texts : DefinitionTexts (normalizeNewlines sourceText)
      (treeSitter (normalizeNewlines sourceText)))
    (plain : splitlines (normalizeNewlines sourceText) =
      newlineRows (normalizeNewlines sourceText))
    (member : symbol ∈
      (parsePython parser platform treeSitter filePath sourceText commitSha).symbols)
    (must : MustSplit chunker symbol) (apart : DefinitionsApart symbol) :
    SplitOutcome chunker (splitlines (normalizeNewlines sourceText)) symbol
      (symbolResult chunker platform scope
        (parsePython parser platform treeSitter filePath sourceText commitSha)
        (splitlines (parsePython parser platform treeSitter filePath sourceText
          commitSha).sourceText.toList) symbol) := by
  have body := parseTree_bodyLines wellFormed texts member
  have source : (parsePython parser platform treeSitter filePath sourceText
      commitSha).sourceText.toList = normalizeNewlines sourceText := parseTree_sourceText member
  rw [source, plain]
  exact symbolResult_split body apart must

/-! ## A function of two statements -/

/-- The promises on a definition, checked. -/
def textual (source : List Char) (definition : Node) : Bool :=
  !isDefinition definition || (definition.childByFieldName "body").all fun body =>
    decide (strip (textRange definition.info.startByte body.info.startByte source) ≠ []) &&
      body.namedChildren.all fun element =>
        decide (strip (textRange element.info.startByte element.info.endByte source) ≠ [])

theorem definitionTexts_of_textual {source : List Char} {root : Node}
    (checked : (visited [root]).all (textual source) = true) : DefinitionTexts source root := by
  intro node member defines
  have text := List.all_eq_true.mp checked node member
  rw [textual, defines, Bool.not_true, Bool.false_or] at text
  constructor <;> intro body found <;>
    rw [found, Option.all_some, Bool.and_eq_true, decide_eq_true_eq, List.all_eq_true] at text
  · exact text.1
  · exact fun element inside => of_decide_eq_true (text.2 element inside)

namespace SplitSamples

open ReceiverSamples CitationSamples

def smallChunker : PythonChunker where
  maxSymbolBytes := 100
  maxChunkBytes := 4
  maxChunksPerFile := 10
  maxWarnings := 10

def pairText : List Char := "def f():\n a\n b\n".toList

def pairRoot : Node :=
  node "module" none (0, 15) ⟨0, 0⟩ ⟨3, 0⟩ [
    node "function_definition" none (0, 14) ⟨0, 0⟩ ⟨2, 2⟩ [
      node "identifier" (some "name") (4, 5) ⟨0, 4⟩ ⟨0, 5⟩ [],
      node "parameters" (some "parameters") (5, 7) ⟨0, 5⟩ ⟨0, 7⟩ [],
      node "block" (some "body") (10, 14) ⟨1, 1⟩ ⟨2, 2⟩ [
        node "expression_statement" none (10, 11) ⟨1, 1⟩ ⟨1, 2⟩ [
          node "identifier" none (10, 11) ⟨1, 1⟩ ⟨1, 2⟩ []],
        node "expression_statement" none (13, 14) ⟨2, 1⟩ ⟨2, 2⟩ [
          node "identifier" none (13, 14) ⟨2, 1⟩ ⟨2, 2⟩ []]]]]

def pairFile : ParsedFile :=
  parsePython limits.pythonParser platform (fun _ => pairRoot) "m.py" pairText "commit"

def pairSymbol : ParsedSymbol :=
  pairFile.symbols.head (by decide +kernel)

end SplitSamples

open ReceiverSamples CitationSamples SplitSamples in
theorem pair_split : SplitOutcome smallChunker (splitlines (normalizeNewlines pairText)) pairSymbol
    (symbolResult smallChunker platform chunkScope pairFile
      (splitlines pairFile.sourceText.toList) pairSymbol) :=
  symbol_split limits.pythonParser platform smallChunker chunkScope (fun _ => pairRoot) "m.py"
    pairText "commit" pairSymbol (wellFormed_of_lawful (by decide +kernel))
    (definitionTexts_of_textual (by decide +kernel)) (by decide +kernel) (List.head_mem _)
    (.inr (by decide +kernel)) (by decide +kernel)

end Codenaut.Indexing
