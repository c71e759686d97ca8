import Codenaut.Indexing.DefinitionScopes
import Codenaut.Indexing.SyntaxTrees

/-!
# Definitions of a well-formed tree

Every symbol of the parser's walk is made from a node of the tree and a
definition in it. In a well-formed tree its lines are ordered.
-/

set_option autoImplicit false

namespace Codenaut.Indexing

open Codenaut.Db Codenaut.Relational Codenaut.Text

section Definitions

variable {parser : PythonStaticParser} {platform : Platform} {file : SourceFile}

/-- The symbol is made from the wrapper and a definition that it is or holds. -/
structure MadeFrom (platform : Platform) (file : SourceFile) (wrapper definition : Node)
    (symbol : ParsedSymbol) : Prop where
  view : childView wrapper = .definition definition
  made : ∃ decorators parents,
    symbolOf platform file wrapper definition decorators parents = some symbol

theorem madeFrom_of_visit {parents : List ParsedSymbol} {child : Node} {symbol : ParsedSymbol}
    {nodes : List Node} (visited : visit platform file parents child = .emit symbol nodes) :
    ∃ definition, MadeFrom platform file child definition symbol ∧
      nodes = (definition.childByFieldName "body").elim [] (·.namedChildren) := by
  unfold visit at visited
  split at visited
  · cases visited
  · cases visited
  case h_3 definition view =>
    split at visited
    · cases visited
    case h_2 symbol made =>
      cases visited
      exact ⟨definition, ⟨view, _, parents, made⟩, rfl⟩

theorem visit_descend {parents : List ParsedSymbol} {child : Node} {nodes : List Node}
    (visited : visit platform file parents child = .descend nodes) :
    nodes = child.namedChildren := by
  unfold visit at visited
  split at visited
  · cases visited
  · cases visited
    rfl
  · split at visited
    · cases visited
    · cases visited

theorem childView_wellFormed {child definition : Node} (laws : WellFormed file.source child)
    (view : childView child = .definition definition) :
    WellFormed file.source definition ∧ child.info.startByte ≤ definition.info.startByte ∧
      definition.info.endByte ≤ child.info.endByte := by
  obtain ⟨-, rfl | ⟨-, found⟩⟩ := childView_cases view
  · exact ⟨laws, le_refl _, le_refl _⟩
  · have member := laws.laws.field (by simp) found
    exact ⟨laws.child member, laws.laws.inside definition member⟩

/-- Laws that named children take over, those of a node among them. -/
structure Hereditary (source : List Char) (Law : Node → Prop) : Prop where
  child : ∀ {node child}, Law node → child ∈ node.namedChildren → Law child
  formed : ∀ {node}, Law node → NodeLaws source node

theorem wellFormed_hereditary {source : List Char} : Hereditary source (WellFormed source) :=
  ⟨fun wellFormed member => wellFormed.child member, fun wellFormed => wellFormed.laws⟩

section Lawful

variable {Law : Node → Prop}

theorem Hereditary.definition (hereditary : Hereditary file.source Law)
    {child definition : Node} (law : Law child) (view : childView child = .definition definition) :
    Law definition := by
  obtain ⟨-, rfl | ⟨-, found⟩⟩ := childView_cases view
  · exact law
  · exact hereditary.child law ((hereditary.formed law).field (by simp) found)

/-- The laws hold of the nodes walked below a node. -/
theorem Hereditary.visit (hereditary : Hereditary file.source Law) {parents : List ParsedSymbol}
    {child : Node} (law : Law child) :
    ∀ node ∈ (visit platform file parents child).nodes, Law node := by
  intro node member
  cases visited : Indexing.visit platform file parents child with
  | skip =>
      rw [visited] at member
      cases member
  | descend nodes =>
      rw [visited, Visit.nodes, visit_descend visited] at member
      exact hereditary.child law member
  | emit symbol nodes =>
      obtain ⟨definition, made, rfl⟩ := madeFrom_of_visit visited
      have inner := hereditary.definition law made.view
      rw [visited, Visit.nodes] at member
      cases found : definition.childByFieldName "body" with
      | none =>
          rw [found] at member
          cases member
      | some body =>
          rw [found] at member
          have listed := (hereditary.formed inner).field (by simp) found
          exact hereditary.child (hereditary.child inner listed) member

/-- A symbol of the walk was there before or is made from a lawful node. -/
theorem Hereditary.walk (hereditary : Hereditary file.source Law)
    {parents output : List ParsedSymbol} {nodes : List Node} (laws : ∀ node ∈ nodes, Law node)
    {symbol : ParsedSymbol}
    (member : symbol ∈ walkDefinitions parser platform file parents output nodes) :
    symbol ∈ output ∨ ∃ wrapper definition, Law wrapper ∧
      MadeFrom platform file wrapper definition symbol := by
  induction parents, output, nodes using walkDefinitions.induct parser platform file with
  | case1 parents output =>
      rw [walkDefinitions] at member
      exact .inl member
  | case2 parents output child rest full =>
      rw [walkDefinitions, if_pos full] at member
      exact .inl member
  | case3 parents output child rest room walked searched nested remaining =>
      rw [walkDefinitions, if_neg room] at member
      have childLaws := laws child (.head _)
      have below := @Hereditary.visit platform file Law hereditary parents child childLaws
      have later := remaining (fun node inRest => laws node (.tail _ inRest)) member
      refine later.elim (fun early => ?_) .inr
      unfold walked at early
      split at early
      · exact .inl early
      case h_2 nodes visited =>
        rw [visited] at below
        exact searched nodes visited below early
      case h_3 emitted nodes visited =>
        rw [visited] at below
        obtain ⟨definition, made, -⟩ := madeFrom_of_visit visited
        rcases nested emitted nodes visited below early with before | deeper
        · rcases List.mem_append.mp before with old | new
          · exact .inl old
          · rw [List.mem_singleton.mp new]
            exact .inr ⟨child, definition, childLaws, made⟩
        · exact .inr deeper

end Lawful

/-- A symbol of the walk was there before or is made from a well-formed node. -/
theorem walkDefinitions_made {parents output : List ParsedSymbol} {nodes : List Node}
    (laws : ∀ node ∈ nodes, WellFormed file.source node) {symbol : ParsedSymbol}
    (member : symbol ∈ walkDefinitions parser platform file parents output nodes) :
    symbol ∈ output ∨ ∃ wrapper definition, WellFormed file.source wrapper ∧
      MadeFrom platform file wrapper definition symbol :=
  wellFormed_hereditary.walk laws member

/-- The place of a symbol: its file, and lines that its header and its end do
not precede. -/
structure Placed (file : SourceFile) (symbol : ParsedSymbol) : Prop where
  filePath : symbol.filePath = file.filePath
  positive : 1 ≤ symbol.startLine
  header : symbol.startLine ≤ symbol.headerEndLine
  ordered : symbol.startLine ≤ symbol.endLine

theorem MadeFrom.placed {wrapper definition : Node} {symbol : ParsedSymbol}
    (made : MadeFrom platform file wrapper definition symbol)
    (laws : WellFormed file.source wrapper) : Placed file symbol := by
  obtain ⟨inner, starts, -⟩ := childView_wellFormed laws made.view
  have header := row_le_of_le laws.laws.start inner.laws.start starts
  have lines := row_le_of_le laws.laws.start laws.laws.stop laws.laws.ordered
  obtain ⟨decorators, parents, symbolOf⟩ := made.made
  unfold Indexing.symbolOf at symbolOf
  split at symbolOf
  · cases symbolOf
    constructor
    · rfl
    · exact Nat.le_add_left 1 _
    · dsimp only
      omega
    · dsimp only
      omega
  · cases symbolOf

/-- What a symbol takes from its file and its text. -/
structure Stamped (platform : Platform) (file : SourceFile) (symbol : ParsedSymbol) : Prop where
  language : symbol.language = "python"
  commitSha : symbol.commitSha = file.commitSha
  contentHash : symbol.contentHash = platform.sha256Hex symbol.sourceText

theorem MadeFrom.stamped {wrapper definition : Node} {symbol : ParsedSymbol}
    (made : MadeFrom platform file wrapper definition symbol) : Stamped platform file symbol := by
  obtain ⟨decorators, parents, symbolOf⟩ := made.made
  unfold Indexing.symbolOf at symbolOf
  split at symbolOf
  · cases symbolOf
    exact ⟨rfl, rfl, rfl⟩
  · cases symbolOf

theorem walkedSymbols_stamped {root : Node} (laws : WellFormed file.source root)
    {symbol : ParsedSymbol} (member : symbol ∈ walkedSymbols parser platform file root) :
    Stamped platform file symbol := by
  rcases walkDefinitions_made (fun node => laws.child) member with none | made
  · cases none
  · obtain ⟨wrapper, definition, -, made⟩ := made
    exact made.stamped

theorem walkedSymbols_placed {root : Node} (laws : WellFormed file.source root)
    {symbol : ParsedSymbol} (member : symbol ∈ walkedSymbols parser platform file root) :
    Placed file symbol := by
  rcases walkDefinitions_made (fun node => laws.child) member with none | made
  · cases none
  · obtain ⟨wrapper, definition, wrapperLaws, made⟩ := made
    exact made.placed wrapperLaws

end Definitions

end Codenaut.Indexing
