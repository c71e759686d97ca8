import Codenaut.Indexing.DefinitionTrees
import Codenaut.Indexing.ReceiverCalls

/-!
# Completeness of definition extraction

The parser extracts every definition of a tree once, in preorder, named after those
around it, as long as they are no more than its maximum; otherwise it skips the file.
-/

set_option autoImplicit false

namespace Codenaut.Indexing

open Codenaut.Db Codenaut.Relational Codenaut.Text

def definitionName (source : List Char) (definition : Node) : String :=
  ((definition.childByFieldName "name").map (nodeText · source)).getD ""

/-- The names that a definition is qualified by, the module first. -/
def Occurrence.qualifiedName (file : SourceFile) (found : Occurrence) : String :=
  joinText '.'
    (file.moduleName :: (found.enclosing ++ [found.definition]).map (definitionName file.source))

/-- A function whose immediately enclosing definition is a class. -/
def Occurrence.IsMethod (found : Occurrence) : Prop :=
  found.definition.type = "function_definition" ∧
    ∃ parent, found.enclosing.getLast? = some parent ∧ parent.type = "class_definition"

/-- The symbol of a definition. -/
structure Extracted (platform : Platform) (file : SourceFile) (found : Occurrence)
    (symbol : ParsedSymbol) : Prop where
  made : ∃ wrapper, MadeFrom platform file wrapper found.definition symbol
  name : symbol.name = definitionName file.source found.definition
  qualifiedName : symbol.qualifiedName = found.qualifiedName file
  method : symbol.symbolType = .method ↔ found.IsMethod

/-- What a symbol tells the definitions inside of the one it was made from. -/
structure Stands (file : SourceFile) (definition : Node) (symbol : ParsedSymbol) : Prop where
  name : symbol.name = definitionName file.source definition
  isClass : symbol.symbolType = .classType ↔ definition.type = "class_definition"

section Trees

variable {node below : Node} {enclosing : List Node}

theorem GrammaticalTree.own (tree : GrammaticalTree node) : Grammatical node :=
  tree node node.mem_nodes_self

theorem GrammaticalTree.within (tree : GrammaticalTree node) (inside : below ∈ node.nodes) :
    GrammaticalTree below :=
  fun _ within => tree _ (Node.mem_nodes_trans inside within)

theorem GrammaticalTree.child (tree : GrammaticalTree node) (member : below ∈ node.children) :
    GrammaticalTree below :=
  tree.within (Node.mem_nodes_child member)

theorem GrammaticalTree.namedChildren (tree : GrammaticalTree node) :
    definitionsIn enclosing node.namedChildren = definitionsIn enclosing node.children :=
  definitionsIn_named fun _ member => (tree.child member).own.anonymous

theorem GrammaticalTree.named_child (tree : GrammaticalTree node)
    (member : below ∈ node.namedChildren) : GrammaticalTree below :=
  tree.child (List.mem_of_mem_filter member)

end Trees

/-! ## One node -/

section Visits

variable {platform : Platform} {file : SourceFile} {parents : List ParsedSymbol}
  {enclosing : List Node} {child definition : Node} {symbol : ParsedSymbol}

theorem not_isDefinition_of_decorated (decorated : child.type = "decorated_definition") :
    isDefinition child = false := by
  simp [isDefinition, decorated]

/-- What lies below a child that is viewed as a definition is that definition. -/
theorem definitions_of_view (tree : GrammaticalTree child)
    (view : childView child = .definition definition) :
    isDefinition definition = true ∧ GrammaticalTree definition ∧
      child.definitions enclosing = definition.definitions enclosing := by
  obtain ⟨isDefinition, rfl | ⟨decorated, found⟩⟩ := childView_cases view
  · exact ⟨isDefinition, tree, rfl⟩
  · have member := List.mem_of_find?_eq_some found
    refine ⟨isDefinition, tree.child member, ?_⟩
    rw [Node.definitions_of_other (not_isDefinition_of_decorated decorated)]
    exact definitionsIn_field found (tree.own.decorated decorated)

theorem definitions_of_passedOver (tree : GrammaticalTree child)
    (view : childView child = .passedOver) : child.definitions enclosing = [] := by
  unfold childView at view
  split at view
  · next decorated =>
      split at view
      · next absent =>
          have beside : child.beside "definition" = child.children :=
            List.eraseP_of_forall_not fun other member => by
              simpa [inField] using List.find?_eq_none.mp absent other member
          have free := tree.own.decorated decorated
          rw [beside] at free
          rw [Node.definitions_of_other (not_isDefinition_of_decorated decorated)]
          exact definitionsIn_free free
      · split at view
        · cases view
        · cases view
  · split at view
    · cases view
    · cases view

theorem definitions_of_searched (tree : GrammaticalTree child)
    (view : childView child = .searched) :
    child.definitions enclosing = definitionsIn enclosing child.namedChildren := by
  have other : isDefinition child = false := by
    unfold childView at view
    split at view
    · next decorated => exact not_isDefinition_of_decorated decorated
    · split at view
      · cases view
      · next other => exact Bool.eq_false_iff.mpr other
  rw [Node.definitions_of_other other, tree.namedChildren]

/-- Below a definition lie the definitions of its body. -/
theorem definitions_of_body (tree : GrammaticalTree definition)
    (isDefinition : isDefinition definition = true) :
    ∃ body, definition.childByFieldName "body" = some body ∧ GrammaticalTree body ∧
      definition.definitions enclosing = ⟨definition, enclosing⟩ ::
        definitionsIn (enclosing ++ [definition]) body.namedChildren := by
  obtain ⟨body, found, block⟩ := (Option.any_eq_true _ _).mp (tree.own.bodied isDefinition)
  have bodyTree := tree.child (List.mem_of_find?_eq_some found)
  refine ⟨body, found, bodyTree, ?_⟩
  rw [Node.definitions_of_definition isDefinition,
    definitionsIn_field found (tree.own.nested isDefinition),
    Node.definitions_of_other (by simpa using block), bodyTree.namedChildren]

theorem symbolTypeOf_class (parent : Option ParsedSymbol) :
    symbolTypeOf definition parent = .classType ↔ definition.type = "class_definition" := by
  unfold symbolTypeOf
  split
  · next isClass => simp [isClass]
  · next other =>
      split
      · simp [other]
      · split <;> simp [other]

theorem symbolTypeOf_method (parent : Option ParsedSymbol) :
    symbolTypeOf definition parent = .method ↔
      definition.type ≠ "class_definition" ∧ parent.any (·.symbolType = .classType) = true := by
  unfold symbolTypeOf
  split
  · next isClass => simp [isClass]
  · next other =>
      split
      · next inClass => simp [other, inClass]
      · next outside => split <;> simp [other, outside]

/-- The innermost parent is a class exactly if the innermost enclosing definition is. -/
theorem getLast?_class (standing : List.Forall₂ (Stands file) enclosing parents) :
    parents.getLast?.any (·.symbolType = .classType) = true ↔
      ∃ parent, enclosing.getLast? = some parent ∧ parent.type = "class_definition" := by
  induction standing with
  | nil => simp
  | cons stands rest ih =>
      cases rest with
      | nil => simpa using stands.isClass
      | cons next later => simpa using ih

theorem names_eq (standing : List.Forall₂ (Stands file) enclosing parents) :
    parents.map (·.name) = enclosing.map (definitionName file.source) := by
  induction standing with
  | nil => rfl
  | cons stands rest ih => rw [List.map_cons, List.map_cons, stands.name, ih]

/-- The symbol that is made of a definition below its parents. -/
theorem symbolOf_extracted {wrapper : Node} {decorators : List String}
    (standing : List.Forall₂ (Stands file) enclosing parents)
    (isDefinition : isDefinition definition = true)
    (view : childView wrapper = .definition definition)
    (made : symbolOf platform file wrapper definition decorators parents = some symbol) :
    Extracted platform file ⟨definition, enclosing⟩ symbol ∧ Stands file definition symbol := by
  have origin : MadeFrom platform file wrapper definition symbol := ⟨view, _, _, made⟩
  unfold symbolOf at made
  split at made
  swap
  · cases made
  next nameNode body named bodied =>
  have name : nodeText nameNode file.source = definitionName file.source definition := by
    rw [definitionName, named]
    rfl
  have function : definition.type ≠ "class_definition" ↔
      definition.type = "function_definition" := by
    simp only [Indexing.isDefinition, decide_eq_true_eq] at isDefinition
    rcases isDefinition with same | same <;> simp [same]
  cases made
  refine ⟨⟨⟨wrapper, origin⟩, name, ?_, ?_⟩, ⟨name, symbolTypeOf_class _⟩⟩
  · rw [Occurrence.qualifiedName, qualifiedNameOf, names_eq standing, List.map_append]
    simp [name]
  · exact (symbolTypeOf_method _).trans (and_congr function (getLast?_class standing))

/-- A child that is passed over holds no definition: those have names and bodies. -/
theorem definitions_of_skip (tree : GrammaticalTree child)
    (visited : visit platform file parents child = .skip) :
    child.definitions enclosing = [] := by
  unfold visit at visited
  split at visited
  · next view => exact definitions_of_passedOver tree view
  · cases visited
  · next definition view =>
      obtain ⟨isDefinition, definitionTree, -⟩ := @definitions_of_view enclosing _ _ tree view
      obtain ⟨nameNode, named⟩ := Option.isSome_iff_exists.mp (definitionTree.own.named isDefinition)
      obtain ⟨body, bodied, -⟩ := @definitions_of_body enclosing _ definitionTree isDefinition
      simp [symbolOf, named, bodied] at visited

theorem definitions_of_descend {nodes : List Node} (tree : GrammaticalTree child)
    (visited : visit platform file parents child = .descend nodes) :
    child.definitions enclosing = definitionsIn enclosing nodes := by
  unfold visit at visited
  split at visited
  · cases visited
  · next view =>
      cases visited
      exact definitions_of_searched tree view
  · split at visited
    · cases visited
    · cases visited

theorem definitions_of_emit {nodes : List Node} (tree : GrammaticalTree child)
    (standing : List.Forall₂ (Stands file) enclosing parents)
    (visited : visit platform file parents child = .emit symbol nodes) :
    ∃ definition, (∀ node ∈ nodes, GrammaticalTree node) ∧
      child.definitions enclosing =
        ⟨definition, enclosing⟩ :: definitionsIn (enclosing ++ [definition]) nodes ∧
      Extracted platform file ⟨definition, enclosing⟩ symbol ∧ Stands file definition symbol := by
  unfold visit at visited
  split at visited
  · cases visited
  · cases visited
  · next definition view =>
      split at visited
      · cases visited
      · next symbol made =>
          cases visited
          obtain ⟨isDefinition, definitionTree, viewed⟩ :=
            @definitions_of_view enclosing _ _ tree view
          obtain ⟨body, found, bodyTree, below⟩ :=
            @definitions_of_body enclosing _ definitionTree isDefinition
          rw [found, Option.elim_some]
          exact ⟨definition, fun node member => bodyTree.named_child member, viewed.trans below,
            symbolOf_extracted standing isDefinition view made⟩

end Visits

/-! ## The walk -/

/-- The walk has put the symbols of the first of the definitions after its output,
all of them unless the maximum is exceeded. -/
def Walked (parser : PythonStaticParser) (platform : Platform) (file : SourceFile)
    (found : List Occurrence) (output result : List ParsedSymbol) : Prop :=
  ∃ front symbols, front <+: found ∧ result = output ++ symbols ∧
    List.Forall₂ (Extracted platform file) front symbols ∧
    (front = found ∨ parser.maxSymbols < result.length)

section Walks

variable {parser : PythonStaticParser} {platform : Platform} {file : SourceFile}
  {parents output middle result : List ParsedSymbol} {enclosing nodes : List Node}
  {first second : List Occurrence} {found : Occurrence} {symbol : ParsedSymbol}

theorem Walked.nil (output : List ParsedSymbol) : Walked parser platform file [] output output :=
  ⟨[], [], List.nil_prefix, (List.append_nil _).symm, .nil, .inl rfl⟩

theorem Walked.full (full : parser.maxSymbols < output.length) :
    Walked parser platform file first output output :=
  ⟨[], [], List.nil_prefix, (List.append_nil _).symm, .nil, .inr full⟩

theorem Walked.emit (extracted : Extracted platform file found symbol)
    (walked : Walked parser platform file first (output ++ [symbol]) result) :
    Walked parser platform file (found :: first) output result := by
  obtain ⟨front, symbols, initial, rfl, each, ended⟩ := walked
  refine ⟨found :: front, symbol :: symbols, (List.prefix_cons_inj found).mpr initial, ?_,
    .cons extracted each, ended.imp_left (congrArg _)⟩
  rw [List.append_assoc]
  rfl

/-- The rest is walked unless the maximum was exceeded before. -/
theorem Walked.append (walked : Walked parser platform file first output middle)
    (later : Walked parser platform file second middle result)
    (stopped : parser.maxSymbols < middle.length → result = middle) :
    Walked parser platform file (first ++ second) output result := by
  obtain ⟨front, symbols, initial, rfl, each, ended⟩ := walked
  by_cases full : parser.maxSymbols < (output ++ symbols).length
  · obtain rfl := stopped full
    exact ⟨front, symbols, initial.trans (List.prefix_append _ _), rfl, each, .inr full⟩
  · obtain rfl := ended.resolve_right full
    obtain ⟨back, others, initial, rfl, rest, ended⟩ := later
    refine ⟨front ++ back, symbols ++ others, (List.prefix_append_right_inj front).mpr initial,
      List.append_assoc .., List.rel_append each rest, ended.imp_left (congrArg _)⟩

theorem walkDefinitions_full (full : parser.maxSymbols < output.length) :
    walkDefinitions parser platform file parents output nodes = output := by
  cases nodes with
  | nil => rw [walkDefinitions]
  | cons child rest => rw [walkDefinitions, if_pos full]

/-- The walk over nodes of a tree. -/
theorem walkDefinitions_walked (trees : ∀ node ∈ nodes, GrammaticalTree node) :
    ∀ enclosing, List.Forall₂ (Stands file) enclosing parents →
      Walked parser platform file (definitionsIn enclosing nodes) output
        (walkDefinitions parser platform file parents output nodes) := by
  induction parents, output, nodes using walkDefinitions.induct parser platform file with
  | case1 parents output =>
      intro enclosing standing
      rw [walkDefinitions]
      exact .nil output
  | case2 parents output child rest full =>
      intro enclosing standing
      rw [walkDefinitions, if_pos full]
      exact .full full
  | case3 parents output child rest room walked searched nested remaining =>
      intro enclosing standing
      have tree := trees child List.mem_cons_self
      have later := remaining (fun node member => trees node (List.mem_cons_of_mem _ member))
        enclosing standing
      rw [walkDefinitions, if_neg room, definitionsIn]
      refine Walked.append ?_ later fun full => walkDefinitions_full full
      show Walked parser platform file (child.definitions enclosing) output walked
      unfold walked
      split
      · next visited =>
          rw [definitions_of_skip tree visited]
          exact .nil output
      · next nodes visited =>
          rw [definitions_of_descend tree visited]
          refine searched nodes visited (fun node member => ?_) enclosing standing
          rw [visit_descend visited] at member
          exact tree.named_child member
      · next symbol nodes visited =>
          obtain ⟨definition, bodyTrees, found, extracted, stands⟩ :=
            definitions_of_emit tree standing visited
          rw [found]
          exact .emit extracted (nested symbol nodes visited bodyTrees _
            (List.rel_append standing (.cons stands .nil)))

end Walks

/-! ## Files -/

section Files

variable {parser : PythonStaticParser} {platform : Platform} {file : SourceFile} {root : Node}

theorem moduleDefinitions_walked (tree : GrammaticalTree root) :
    Walked parser platform file (moduleDefinitions root) []
      (walkedSymbols parser platform file root) := by
  rw [moduleDefinitions, ← tree.namedChildren]
  exact walkDefinitions_walked (fun node member => tree.named_child member) [] .nil

/-- Within the maximum the walk reaches every definition. -/
theorem walkedSymbols_extracted (tree : GrammaticalTree root)
    (fits : (moduleDefinitions root).length ≤ parser.maxSymbols) :
    List.Forall₂ (Extracted platform file) (moduleDefinitions root)
      (walkedSymbols parser platform file root) := by
  obtain ⟨front, symbols, initial, output, each, ended⟩ :=
    @moduleDefinitions_walked parser platform file root tree
  rw [List.nil_append] at output
  rw [output] at ended ⊢
  have length := each.length_eq
  have bounded := initial.length_le
  rcases ended with all | more
  · rw [← all]
    exact each
  · omega

/-- Beyond the maximum the walk exceeds it too. -/
theorem walkedSymbols_exceeded (tree : GrammaticalTree root)
    (exceeded : parser.maxSymbols < (moduleDefinitions root).length) :
    parser.maxSymbols < (walkedSymbols parser platform file root).length := by
  obtain ⟨front, symbols, -, output, each, ended⟩ :=
    @moduleDefinitions_walked parser platform file root tree
  rw [List.nil_append] at output
  rw [output] at ended ⊢
  rcases ended with all | more
  · rw [← each.length_eq, all]
    exact exceeded
  · exact more

theorem parseTree_skipped
    (more : parser.maxSymbols < (walkedSymbols parser platform file root).length) :
    parseTree parser platform file root = skippedFile file :=
  if_pos more

/-- A file that is not skipped keeps the symbols of the walk. -/
theorem parseTree_perm
    (bounded : (walkedSymbols parser platform file root).length ≤ parser.maxSymbols) :
    (walkedSymbols parser platform file root).Perm
      (parseTree parser platform file root).symbols := by
  unfold walkedSymbols at bounded ⊢
  unfold parseTree
  dsimp only
  rw [if_neg (Nat.not_lt.mpr bounded)]
  exact (sortOn_perm _ _).symm

theorem definitions_extracted_completely (tree : GrammaticalTree root) :
    ((moduleDefinitions root).length ≤ parser.maxSymbols →
        ∃ walked, walked.Perm (parseTree parser platform file root).symbols ∧
          List.Forall₂ (Extracted platform file) (moduleDefinitions root) walked) ∧
      (parser.maxSymbols < (moduleDefinitions root).length →
        (parseTree parser platform file root).parseStatus = .skipped ∧
          (parseTree parser platform file root).symbols = [] ∧
          (parseTree parser platform file root).callSites = []) := by
  constructor
  · intro fits
    have each := @walkedSymbols_extracted parser platform file root tree fits
    exact ⟨_, parseTree_perm (each.length_eq ▸ fits), each⟩
  · intro exceeded
    rw [parseTree_skipped (walkedSymbols_exceeded tree exceeded)]
    exact ⟨rfl, rfl, rfl⟩

end Files

/-! ## A decorated class with a conditional method -/

namespace DefinitionSamples

open ReceiverSamples

def conditional : ParsedSource where
  file := sourceFile "m.py"
    "@d\nclass C:\n if a:\n  def f(self):\n   def g(): pass\n".toList "commit"
  root := node "module" none (0, 51) ⟨0, 0⟩ ⟨5, 0⟩ [
    node "decorated_definition" none (0, 50) ⟨0, 0⟩ ⟨4, 16⟩ [
      node "decorator" none (0, 2) ⟨0, 0⟩ ⟨0, 2⟩ [],
      node "class_definition" (some "definition") (3, 50) ⟨1, 0⟩ ⟨4, 16⟩ [
        node "identifier" (some "name") (9, 10) ⟨1, 6⟩ ⟨1, 7⟩ [],
        node "block" (some "body") (13, 50) ⟨2, 1⟩ ⟨4, 16⟩ [
          node "if_statement" none (13, 50) ⟨2, 1⟩ ⟨4, 16⟩ [
            node "identifier" (some "condition") (16, 17) ⟨2, 4⟩ ⟨2, 5⟩ [],
            node "block" (some "consequence") (21, 50) ⟨3, 2⟩ ⟨4, 16⟩ [
              node "function_definition" none (21, 50) ⟨3, 2⟩ ⟨4, 16⟩ [
                node "identifier" (some "name") (25, 26) ⟨3, 6⟩ ⟨3, 7⟩ [],
                node "parameters" (some "parameters") (26, 32) ⟨3, 7⟩ ⟨3, 13⟩ [],
                node "block" (some "body") (37, 50) ⟨4, 3⟩ ⟨4, 16⟩ [
                  node "function_definition" none (37, 50) ⟨4, 3⟩ ⟨4, 16⟩ [
                    node "identifier" (some "name") (41, 42) ⟨4, 7⟩ ⟨4, 8⟩ [],
                    node "parameters" (some "parameters") (42, 44) ⟨4, 8⟩ ⟨4, 10⟩ [],
                    node "block" (some "body") (46, 50) ⟨4, 12⟩ ⟨4, 16⟩ []]]]]]]]]]

end DefinitionSamples

open ReceiverSamples DefinitionSamples in
theorem conditional_definitions_extracted : ∃ walked,
    walked.Perm
        (parseTree limits.pythonParser platform conditional.file conditional.root).symbols ∧
      List.Forall₂ (Extracted platform conditional.file) (moduleDefinitions conditional.root)
        walked := by
  have tree : ∀ node ∈ conditional.root.nodes, Grammatical node := by decide +kernel
  exact (definitions_extracted_completely tree).1 (by decide +kernel)

open ReceiverSamples DefinitionSamples in
example :
    (parseTree limits.pythonParser platform conditional.file conditional.root).symbols.map
        (fun symbol => (symbol.qualifiedName, symbol.symbolType)) =
      [("m.C", .classType), ("m.C.f", .method), ("m.C.f.g", .function)] := by
  decide +kernel

end Codenaut.Indexing
