import Codenaut.Indexing.DocumentationSections
import Codenaut.Indexing.ReceiverCalls
import Codenaut.Indexing.TreeDefinitions
import Codenaut.Relational.Collected
import Codenaut.Text.Rows

/-!
# Rows that chunks cite

The lines of a chunk are rows of the syntax tree. The text of a definition lies
in its rows. Statements and paragraphs are cut from the lines of `splitlines`,
which are the rows as long as no other separator is met.
-/

set_option autoImplicit false

namespace Codenaut.Indexing

open Codenaut.Db Codenaut.Relational Codenaut.Text

/-! ## Texts of definitions -/

section Texts

variable {platform : Platform} {file : SourceFile} {source : List Char}

theorem row_eq {byte : Nat} {here : Point}
    (reached : positionAt source byte = some (here.row, here.column)) {front back : List Char}
    (boundary : Boundary source front back byte) : here.row = front.count '\n' := by
  obtain ⟨other, rest, same, position⟩ := positionFrom_some reached
  have fronts : other = front := by
    have left := same.prefix_of_le boundary (le_refl byte)
    exact left.eq_of_length_le ((boundary.prefix_of_le same (le_refl byte)).length_le)
  have counted := foldl_advance_row other (0, 0)
  rw [position, fronts] at counted
  simpa using counted

/-- Two positions in order split the text at both. -/
theorem split_between {first last : Nat} {here there : Point}
    (starts : positionAt source first = some (here.row, here.column))
    (ends : positionAt source last = some (there.row, there.column)) (le : first ≤ last) :
    ∃ front back, source = front ++ textRange first last source ++ back ∧
      here.row = front.count '\n' ∧
      there.row = here.row + (textRange first last source).count '\n' := by
  obtain ⟨front, back, boundary, -⟩ := positionFrom_some starts
  obtain ⟨later, rest, ending, -⟩ := positionFrom_some ends
  obtain ⟨middle, rfl⟩ := boundary.prefix_of_le ending le
  have range : textRange first last source = middle := by
    rw [← boundary.length, ← ending.length, ending.split, textRange_between]
  refine ⟨front, rest, ?_, row_eq starts boundary, ?_⟩
  · rw [range]
    exact ending.split
  · rw [range, row_eq starts boundary, row_eq ends ending, List.count_append]

/-- A text from a position on lies in the rows that its line feeds span. -/
theorem prefix_rows {first last : Nat} {here there : Point}
    (starts : positionAt source first = some (here.row, here.column))
    (ends : positionAt source last = some (there.row, there.column)) (le : first ≤ last)
    {part : List Char} (leading : part <+: textRange first last source) :
    part <:+: joinRows (((rowsOf source).take (here.row + part.count '\n' + 1)).drop here.row) := by
  obtain ⟨front, back, split, row, -⟩ := split_between starts ends le
  obtain ⟨others, range⟩ := leading
  have inside := infix_rows front part (others ++ back)
  rwa [List.count_append, ← row, List.append_assoc front part, ← List.append_assoc part, range,
    ← List.append_assoc front, ← split] at inside

theorem nodeText_rows {node : Node} (laws : NodeLaws source node) :
    (nodeText node source).toList <:+: joinRows (((rowsOf source).take
      (node.info.endPoint.row + 1)).drop node.info.startPoint.row) := by
  have inside := prefix_rows laws.start laws.stop laws.ordered (List.prefix_refl _)
  obtain ⟨-, -, -, -, rows⟩ := split_between laws.start laws.stop laws.ordered
  rw [nodeText, String.toList_ofList]
  rwa [← rows] at inside

/-- Ranges that meet at a position join. -/
theorem textRange_append {first middle last : Nat} {here between there : Point}
    (starts : positionAt source first = some (here.row, here.column))
    (meets : positionAt source middle = some (between.row, between.column))
    (ends : positionAt source last = some (there.row, there.column)) (before : first ≤ middle)
    (after : middle ≤ last) : textRange first last source =
      textRange first middle source ++ textRange middle last source := by
  obtain ⟨front, _, boundary, -⟩ := positionFrom_some starts
  obtain ⟨_, _, meeting, -⟩ := positionFrom_some meets
  obtain ⟨_, back, ending, -⟩ := positionFrom_some ends
  obtain ⟨left, rfl⟩ := boundary.prefix_of_le meeting before
  obtain ⟨right, rfl⟩ := meeting.prefix_of_le ending after
  have whole := textRange_between front (left ++ right) back
  have opening := textRange_between front left (right ++ back)
  have closing := textRange_between (front ++ left) right back
  rw [← List.append_assoc] at whole opening
  rw [← boundary.length, ← meeting.length, ← ending.length, ending.split, whole, opening, closing]

/-- Without trailing blanks a text ends in its second part, or before it. -/
theorem rstrip_append_start (left right : List Char) :
    rstrip (left ++ right) <+: left ++ rstrip right := by
  induction right using List.reverseRecOn with
  | nil =>
      rw [List.append_nil]
      exact (List.rdropWhile_prefix isSpace left).trans (List.prefix_append _ _)
  | append_singleton right char ih =>
      unfold rstrip at *
      rw [← List.append_assoc, List.rdropWhile_concat, List.rdropWhile_concat]
      split
      · exact ih
      · rw [List.append_assoc]

/-- The header of a definition lies in the rows up to its last line. -/
theorem header_rows {wrapper definition body : Node} (laws : NodeLaws source wrapper)
    (inner : NodeLaws source definition) (last : NodeLaws source body)
    (starts : wrapper.info.startByte ≤ definition.info.startByte)
    (opens : definition.info.startByte ≤ body.info.startByte) :
    rstrip (textRange wrapper.info.startByte body.info.startByte source) <:+:
      joinRows (((rowsOf source).take (definition.info.startPoint.row + 1 +
        (rstrip (textRange definition.info.startByte body.info.startByte source)).count '\n')).drop
          wrapper.info.startPoint.row) := by
  have range := textRange_append laws.start inner.start last.start starts opens
  obtain ⟨-, -, -, -, row⟩ := split_between laws.start inner.start starts
  have signature := List.rdropWhile_prefix isSpace
    (textRange definition.info.startByte body.info.startByte source)
  have inside := prefix_rows laws.start last.start (starts.trans opens)
    (range ▸ (List.prefix_append_right_inj _).mpr signature)
  rw [List.count_append, ← Nat.add_assoc, ← row, Nat.add_right_comm] at inside
  rw [range]
  exact (rstrip_append_start _ _).isInfix.trans inside

/-- The texts of a symbol lie in the rows that it names. -/
structure TextsInRows (source : List Char) (symbol : ParsedSymbol) : Prop where
  whole : symbol.sourceText.toList <:+:
    joinRows (((rowsOf source).take symbol.endLine).drop (symbol.startLine - 1))
  header : symbol.headerText.toList <:+:
    joinRows (((rowsOf source).take symbol.headerEndLine).drop (symbol.headerStartLine - 1))

theorem MadeFrom.textsInRows {wrapper definition : Node} {symbol : ParsedSymbol}
    (made : MadeFrom platform file wrapper definition symbol)
    (laws : WellFormed file.source wrapper) : TextsInRows file.source symbol := by
  obtain ⟨inner, starts, -⟩ := childView_wellFormed laws made.view
  obtain ⟨decorators, parents, symbolOf⟩ := made.made
  unfold Indexing.symbolOf at symbolOf
  split at symbolOf
  case h_1 nameNode body _ found =>
    cases symbolOf
    have member := inner.laws.field (by simp) found
    have header := header_rows laws.laws inner.laws (inner.child member).laws starts
      (inner.laws.inside body member).1
    constructor
    · exact nodeText_rows laws.laws
    · rw [String.toList_ofList]
      exact header
  · cases symbolOf

theorem walkedSymbols_textsInRows {parser : PythonStaticParser} {root : Node}
    (laws : WellFormed file.source root) {symbol : ParsedSymbol}
    (member : symbol ∈ walkedSymbols parser platform file root) :
    TextsInRows file.source symbol := by
  rcases walkDefinitions_made (fun node => laws.child) member with none | made
  · cases none
  · obtain ⟨wrapper, definition, wrapperLaws, made⟩ := made
    exact made.textsInRows wrapperLaws

end Texts

/-! ## Kinds of chunks -/

section Kinds

variable (chunker : PythonChunker) (platform : Platform) (scope : ChunkScope)
  (parsed : ParsedFile)

/-- The first chunk of the symbol is its own text: the header of a class, or
the whole of a definition that fits into a chunk. -/
def keepsText (symbol : ParsedSymbol) : Bool :=
  symbol.symbolType = .classType ∨ symbol.sourceText.utf8ByteSize ≤ chunker.maxChunkBytes

def chunksOf (symbol : ParsedSymbol) : List ContentChunk :=
  (symbolResult chunker platform scope parsed (splitlines parsed.sourceText.toList) symbol).1

def textChunks : List ContentChunk :=
  parsed.symbols.flatMap fun symbol =>
    if keepsText chunker symbol then (chunksOf chunker platform scope parsed symbol).take 1 else []

/-- The chunks that are cut from the lines of the file, at statements. -/
def cutChunks : List ContentChunk :=
  (parsed.symbols.flatMap fun symbol =>
    (chunksOf chunker platform scope parsed symbol).drop
      (if keepsText chunker symbol then 1 else 0)) ++
    (moduleResult chunker platform scope parsed (splitlines parsed.sourceText.toList)
      (contiguousRuns parsed.moduleSegments)).1

/-- The chunk is one of these, with its ordinal. -/
def IsAmong (pieces : List ContentChunk) (chunk : ContentChunk) : Prop :=
  ∃ piece ∈ pieces, chunk = { piece with ordinal := chunk.ordinal }

/-- The first and the last line of the chunk. -/
def chunkSpan (chunk : ContentChunk) : Nat × Nat :=
  (chunk.startLine, chunk.endLine)

/-- The rows that the chunk cites. -/
def citedRows (source : List Char) (chunk : ContentChunk) : List Char :=
  joinRows (((rowsOf source).take chunk.endLine).drop (chunk.startLine - 1))

/-- Every chunk is of one of the two kinds. The text of a definition is part of
the cited rows, what is cut is all of them. -/
structure PythonCited (source : List Char) : Prop where
  kinds : ∀ chunk ∈ (chunkPython chunker platform scope parsed).chunks,
    IsAmong (textChunks chunker platform scope parsed) chunk ∨
      IsAmong (cutChunks chunker platform scope parsed) chunk
  texts : ∀ chunk ∈ (chunkPython chunker platform scope parsed).chunks,
    IsAmong (textChunks chunker platform scope parsed) chunk →
      chunk.content.toList <:+: citedRows source chunk
  cuts : ∀ chunk ∈ (chunkPython chunker platform scope parsed).chunks,
    IsAmong (cutChunks chunker platform scope parsed) chunk →
      chunk.content.toList = citedRows source chunk

end Kinds

section Pieces

variable {chunker : PythonChunker} {platform : Platform} {scope : ChunkScope}
  {parsed : ParsedFile} {lines : List (List Char)} {chunkType : ChunkType}
  {owner : Option ParsedSymbol} {symbol : ParsedSymbol}

theorem numbered_among {pieces : List ContentChunk} {chunk : ContentChunk}
    (member : chunk ∈ numbered pieces) : IsAmong pieces chunk := by
  obtain ⟨place, bound, rfl⟩ := List.mem_mapIdx.mp member
  exact ⟨pieces[place], List.getElem_mem bound, rfl⟩

/-- What the chunk holds is a slice of the lines, and not nothing. -/
structure CutFrom (lines : List (List Char)) (chunk : ContentChunk) : Prop where
  content : chunk.content = lineSlice lines chunk.startLine chunk.endLine
  nonempty : chunk.content ≠ ""

/-- What a made chunk holds. -/
structure MadeWith (content : String) (startLine endLine : Nat) (chunk : ContentChunk) : Prop where
  holds : chunk.content = content
  first : chunk.startLine = startLine
  last : chunk.endLine = endLine
  nonempty : content ≠ ""

theorem makeChunk_some {content : String} {startLine endLine : Nat} {chunk : ContentChunk}
    (made : makeChunk chunker platform scope parsed chunkType owner content startLine endLine =
      some chunk) : MadeWith content startLine endLine chunk := by
  unfold makeChunk at made
  split at made
  · cases made
  case isFalse fits =>
    cases made
    exact ⟨rfl, rfl, rfl, fun empty => fits (.inl empty)⟩

theorem makeChunk_cut {startLine endLine : Nat} {chunk : ContentChunk}
    (made : makeChunk chunker platform scope parsed chunkType owner
      (lineSlice lines startLine endLine) startLine endLine = some chunk) :
    CutFrom lines chunk := by
  obtain ⟨content, first, last, something⟩ := makeChunk_some made
  constructor
  · rw [content, first, last]
  · rw [content]
    exact something

theorem segmentChunksFrom_cut {groupStart groupEnd : Nat} {segments : List SourceSegment}
    {chunks : List ContentChunk}
    (made : segmentChunksFrom chunker platform scope parsed lines chunkType owner groupStart
      groupEnd segments = some chunks) : ∀ chunk ∈ chunks, CutFrom lines chunk := by
  induction segments generalizing groupStart groupEnd chunks with
  | nil =>
      obtain ⟨last, lastMade, rfl⟩ := Option.map_eq_some_iff.mp made
      intro chunk member
      rw [List.mem_singleton.mp member]
      exact makeChunk_cut lastMade
  | cons segment rest ih =>
      rw [segmentChunksFrom] at made
      split at made
      · exact ih made
      · split at made
        · cases made
        case h_2 closed closedMade =>
          obtain ⟨others, othersMade, rfl⟩ := Option.map_eq_some_iff.mp made
          intro chunk member
          rcases List.mem_cons.mp member with rfl | later
          · exact makeChunk_cut closedMade
          · exact ih othersMade chunk later

theorem segmentChunks_cut {segments : List SourceSegment} {chunks : List ContentChunk}
    (made : segmentChunks chunker platform scope parsed lines chunkType owner segments =
      some chunks) : ∀ chunk ∈ chunks, CutFrom lines chunk := by
  cases segments with
  | nil =>
      cases made
      exact fun chunk member => nomatch member
  | cons first rest => exact segmentChunksFrom_cut made

theorem runChunks_cut {chunks : List ContentChunk}
    (made : runChunks chunker platform scope parsed lines chunkType symbol = some chunks) :
    ∀ chunk ∈ chunks, CutFrom lines chunk := by
  obtain ⟨runs, runsMade, rfl⟩ := Option.map_eq_some_iff.mp made
  intro chunk member
  obtain ⟨run, inRuns, inside⟩ := List.mem_flatten.mp member
  exact mapM_some_forall (fun _ _ => segmentChunks_cut) runsMade run inRuns chunk inside

theorem moduleResult_cut (runs : List (List SourceSegment)) :
    ∀ chunk ∈ (moduleResult chunker platform scope parsed lines runs).1, CutFrom lines chunk := by
  induction runs with
  | nil => exact fun chunk member => nomatch member
  | cons run runs ih =>
      unfold moduleResult
      split
      · exact fun chunk member => nomatch member
      case h_2 chunks made =>
        intro chunk member
        rcases List.mem_append.mp member with here | later
        · exact segmentChunks_cut made chunk here
        · exact ih chunk later

/-! ## Chunks of a symbol -/

/-- The chunk is the whole text of the symbol or its header. -/
def TextOf (symbol : ParsedSymbol) (chunk : ContentChunk) : Prop :=
  MadeWith symbol.sourceText symbol.startLine symbol.endLine chunk ∨
    MadeWith symbol.headerText symbol.headerStartLine symbol.headerEndLine chunk

/-- The chunks of a symbol: none, its text and what is cut, or what is cut. -/
inductive SymbolPieces (chunker : PythonChunker) (symbol : ParsedSymbol)
    (lines : List (List Char)) : List ContentChunk → Prop where
  | none : SymbolPieces chunker symbol lines []
  | text {text : ContentChunk} {cuts : List ContentChunk} : keepsText chunker symbol = true →
      TextOf symbol text → (∀ chunk ∈ cuts, CutFrom lines chunk) →
      SymbolPieces chunker symbol lines (text :: cuts)
  | cuts {cuts : List ContentChunk} : keepsText chunker symbol = false →
      (∀ chunk ∈ cuts, CutFrom lines chunk) → SymbolPieces chunker symbol lines cuts

theorem symbolChunks_pieces {chunks : List ContentChunk}
    (made : symbolChunks chunker platform scope parsed lines symbol = some chunks) :
    SymbolPieces chunker symbol lines chunks := by
  unfold symbolChunks at made
  split at made
  case isTrue isClass =>
    have keeps : keepsText chunker symbol = true := by simp [keepsText, isClass]
    split at made
    · cases made
    case h_2 header headerMade =>
      obtain ⟨overview, overviewMade, rfl⟩ := Option.map_eq_some_iff.mp made
      exact .text keeps (.inr (makeChunk_some headerMade)) (runChunks_cut overviewMade)
  case isFalse notClass =>
    split at made
    case isTrue fits =>
      obtain ⟨whole, wholeMade, rfl⟩ := Option.map_eq_some_iff.mp made
      have keeps : keepsText chunker symbol = true := by simp [keepsText, fits]
      exact .text keeps (.inl (makeChunk_some wholeMade)) (fun chunk member => nomatch member)
    case isFalse large =>
      have cut : keepsText chunker symbol = false := by simp [keepsText, notClass, large]
      exact .cuts cut (runChunks_cut made)

theorem chunksOf_pieces (symbol : ParsedSymbol) :
    SymbolPieces chunker symbol (splitlines parsed.sourceText.toList)
      (chunksOf chunker platform scope parsed symbol) := by
  unfold chunksOf symbolResult
  split
  · exact .none
  · split
    · exact .none
    case h_2 chunks made => exact symbolChunks_pieces made

theorem SymbolPieces.texts {pieces : List ContentChunk}
    (cases : SymbolPieces chunker symbol lines pieces) :
    ∀ chunk ∈ (if keepsText chunker symbol then pieces.take 1 else []), TextOf symbol chunk := by
  intro chunk member
  cases cases with
  | none => split at member <;> cases member
  | text keeps isText _ =>
      rw [if_pos keeps] at member
      rw [List.mem_singleton.mp member]
      exact isText
  | cuts cut _ =>
      rw [cut] at member
      cases member

theorem SymbolPieces.cut {pieces : List ContentChunk}
    (cases : SymbolPieces chunker symbol lines pieces) :
    ∀ chunk ∈ pieces.drop (if keepsText chunker symbol then 1 else 0), CutFrom lines chunk := by
  intro chunk member
  cases cases with
  | none => split at member <;> cases member
  | text keeps _ cuts =>
      rw [if_pos keeps] at member
      exact cuts chunk member
  | cuts _ cuts => exact cuts chunk (List.mem_of_mem_drop member)

theorem textChunks_text {chunk : ContentChunk}
    (member : chunk ∈ textChunks chunker platform scope parsed) :
    ∃ symbol ∈ parsed.symbols, TextOf symbol chunk := by
  obtain ⟨symbol, listed, taken⟩ := List.mem_flatMap.mp member
  exact ⟨symbol, listed, (chunksOf_pieces symbol).texts chunk taken⟩

theorem cutChunks_cut {chunk : ContentChunk}
    (member : chunk ∈ cutChunks chunker platform scope parsed) :
    CutFrom (splitlines parsed.sourceText.toList) chunk := by
  rcases List.mem_append.mp member with ofSymbol | ofModule
  · obtain ⟨symbol, -, dropped⟩ := List.mem_flatMap.mp ofSymbol
    exact (chunksOf_pieces symbol).cut chunk dropped
  · exact moduleResult_cut _ chunk ofModule

/-- Every collected chunk is of one of the two kinds. -/
theorem collectedChunks_kinds {chunk : ContentChunk}
    (member : chunk ∈ (collectedChunks chunker platform scope parsed).1) :
    chunk ∈ textChunks chunker platform scope parsed ∨
      chunk ∈ cutChunks chunker platform scope parsed := by
  rcases List.mem_append.mp member with ofSymbols | ofModule
  · obtain ⟨_, results, inside⟩ := List.mem_flatMap.mp ofSymbols
    obtain ⟨symbol, listed, rfl⟩ := List.mem_map.mp results
    rw [← List.take_append_drop (if keepsText chunker symbol then 1 else 0) (symbolResult _ _ _ _ _
      symbol).1] at inside
    rcases List.mem_append.mp inside with taken | dropped
    · refine .inl (List.mem_flatMap.mpr ⟨symbol, listed, ?_⟩)
      split at taken
      case isTrue keeps =>
        rw [if_pos keeps]
        exact taken
      case isFalse => cases taken
    · refine .inr (List.mem_append_left _ (List.mem_flatMap.mpr ⟨symbol, listed, dropped⟩))
  · exact .inr (List.mem_append_right _ ofModule)

theorem chunkPython_kinds {chunk : ContentChunk}
    (member : chunk ∈ (chunkPython chunker platform scope parsed).chunks) :
    IsAmong (textChunks chunker platform scope parsed) chunk ∨
      IsAmong (cutChunks chunker platform scope parsed) chunk := by
  unfold chunkPython at member
  dsimp only at member
  split at member
  · cases member
  · obtain ⟨piece, sorted, same⟩ := numbered_among member
    rcases collectedChunks_kinds (mem_sortOn.mp sorted) with text | cut
    · exact .inl ⟨piece, text, same⟩
    · exact .inr ⟨piece, cut, same⟩

end Pieces

/-! ## Citations -/

section Citations

variable {chunker : PythonChunker} {platform : Platform} {scope : ChunkScope}
  {parsed : ParsedFile} {source : List Char} {chunk : ContentChunk}

theorem CutFrom.cited_iff (cut : CutFrom (splitlines source) chunk) :
    chunk.content.toList = citedRows source chunk ↔
      RowsKept source chunk.startLine chunk.endLine := by
  have lines : chunk.content.toList = joinRows
      (((splitlines source).take chunk.endLine).drop (chunk.startLine - 1)) := by
    rw [cut.content, lineSlice, String.toList_ofList]
    rfl
  rw [lines, citedRows]
  apply lineSlice_eq_iff
  rw [← lines]
  exact fun empty => cut.nonempty (String.toList_eq_nil_iff.mp empty)

theorem IsAmong.cut {pieces : List ContentChunk} {lines : List (List Char)}
    (among : IsAmong pieces chunk) (cuts : ∀ piece ∈ pieces, CutFrom lines piece) :
    CutFrom lines chunk := by
  obtain ⟨piece, member, same⟩ := among
  have cut := cuts piece member
  rw [same]
  exact ⟨cut.content, cut.nonempty⟩

theorem sectionChunks_cut {documented : DocumentationChunker} {filePath : String}
    {commitSha : CommitSha} {lines : List (List Char)} {part : DocumentationSection}
    {chunks : List ContentChunk}
    (made : sectionChunks documented platform scope filePath commitSha lines part =
      some chunks) : ∀ chunk ∈ chunks, CutFrom lines chunk := by
  unfold sectionChunks at made
  split at made
  · cases made
  · obtain ⟨packed, -, rfl⟩ := Option.map_eq_some_iff.mp made
    intro chunk member
    obtain ⟨ranged, nonempty⟩ := List.mem_filter.mp member
    obtain ⟨range, -, rfl⟩ := List.mem_map.mp ranged
    exact ⟨rfl, of_decide_eq_true nonempty⟩

/-- Every chunk of a documentation file is one of a section. -/
theorem chunkDocumentation_section {documented : DocumentationChunker} {filePath : String}
    {sourceText : List Char} {commitSha : CommitSha}
    (member : chunk ∈ (chunkDocumentation documented platform scope filePath sourceText
      commitSha).chunks) : (isMarkdown filePath || isPlainText filePath) = true ∧
    ∃ part ∈ documentSections filePath (splitlines (normalizeNewlines sourceText)), ∃ pieces,
      sectionChunks documented platform scope filePath commitSha
          (splitlines (normalizeNewlines sourceText)) part = some pieces ∧
        IsAmong pieces chunk := by
  unfold chunkDocumentation at member
  by_cases unsupported : (!isMarkdown filePath && !isPlainText filePath) = true
  · rw [if_pos unsupported] at member
    cases member
  · rw [if_neg unsupported] at member
    dsimp only at member
    rw [← documentSections] at member
    have supported : (isMarkdown filePath || isPlainText filePath) = true := by
      cases markdown : isMarkdown filePath <;> simp_all
    refine ⟨supported, ?_⟩
    generalize documentSections filePath (splitlines (normalizeNewlines sourceText)) = sections
      at member ⊢
    split at member
    · cases member
    · obtain ⟨piece, sorted, same⟩ := numbered_among member
      obtain ⟨result, results, inside⟩ := List.mem_flatMap.mp (mem_sortOn.mp sorted)
      obtain ⟨part, listed, rfl⟩ := List.mem_map.mp results
      cases made : sectionChunks documented platform scope filePath commitSha
          (splitlines (normalizeNewlines sourceText)) part with
      | none =>
          rw [made] at inside
          cases inside
      | some pieces =>
          rw [made, Option.getD_some] at inside
          exact ⟨part, listed, pieces, made, piece, inside, same⟩

/-- Every chunk of a documentation file is cut from its lines. -/
theorem chunkDocumentation_cut {documented : DocumentationChunker} {filePath : String}
    {sourceText : List Char} {commitSha : CommitSha}
    (member : chunk ∈ (chunkDocumentation documented platform scope filePath sourceText
      commitSha).chunks) : CutFrom (splitlines (normalizeNewlines sourceText)) chunk := by
  obtain ⟨-, part, -, pieces, made, among⟩ := chunkDocumentation_section member
  exact among.cut (sectionChunks_cut made)

/-- The text of a symbol is part of the rows of its chunk. -/
theorem TextOf.cited {symbol : ParsedSymbol} (text : TextOf symbol chunk)
    (rows : TextsInRows source symbol) : chunk.content.toList <:+: citedRows source chunk := by
  unfold citedRows
  cases text with
  | inl whole =>
      rw [whole.holds, whole.first, whole.last]
      exact rows.whole
  | inr header =>
      rw [header.holds, header.first, header.last]
      exact rows.header

end Citations

section Files

variable {parser : PythonStaticParser} {platform : Platform} {file : SourceFile} {root : Node}

theorem parseTree_symbols {symbol : ParsedSymbol}
    (member : symbol ∈ (parseTree parser platform file root).symbols) :
    symbol ∈ walkedSymbols parser platform file root := by
  unfold parseTree at member
  dsimp only at member
  split at member
  · cases member
  · exact mem_sortOn.mp member

/-- A file that is chunked at all is chunked by the lines of its text. -/
theorem parseTree_cut {chunker : PythonChunker} {scope : ChunkScope} {chunk : ContentChunk}
    (member : chunk ∈ cutChunks chunker platform scope (parseTree parser platform file root)) :
    CutFrom (splitlines file.source) chunk := by
  have cut := cutChunks_cut member
  unfold parseTree at cut member
  dsimp only at cut member
  split at cut
  case isTrue full =>
    rw [if_pos full] at member
    cases member
  case isFalse => rwa [String.toList_ofList] at cut

end Files

/-- The chunks of one limits setting hold what they cite exactly when the rows of
each one that is cut are the lines of the same numbers. -/
theorem pythonCited_iff {parser : PythonStaticParser} {platform : Platform}
    {chunker : PythonChunker} {scope : ChunkScope} {file : SourceFile} {root : Node}
    (wellFormed : WellFormed file.source root) :
    PythonCited chunker platform scope (parseTree parser platform file root) file.source ↔
      ∀ chunk ∈ (chunkPython chunker platform scope (parseTree parser platform file root)).chunks,
        IsAmong (cutChunks chunker platform scope (parseTree parser platform file root)) chunk →
          RowsKept file.source chunk.startLine chunk.endLine := by
  have cut : ∀ chunk,
      IsAmong (cutChunks chunker platform scope (parseTree parser platform file root)) chunk →
        (chunk.content.toList = citedRows file.source chunk ↔
          RowsKept file.source chunk.startLine chunk.endLine) :=
    fun chunk among => (among.cut fun piece => parseTree_cut).cited_iff
  constructor
  · exact fun cited chunk member among => (cut chunk among).mp (cited.cuts chunk member among)
  · intro kept
    refine ⟨fun chunk => chunkPython_kinds, ?_, fun chunk member among =>
      (cut chunk among).mpr (kept chunk member among)⟩
    rintro chunk - ⟨piece, text, same⟩
    obtain ⟨symbol, listed, isText⟩ := textChunks_text text
    rw [same]
    exact isText.cited (walkedSymbols_textsInRows wellFormed (parseTree_symbols listed))

/-! ## Limits of the samples -/

namespace CitationSamples

open ReceiverSamples

def documented : DocumentationChunker := limits.documentationChunker

def chunkScope : ChunkScope := ⟨1, 1⟩

end CitationSamples

end Codenaut.Indexing
