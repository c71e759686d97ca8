import Codenaut.Indexing.PythonParser
import Mathlib.Data.List.Infix

/-!
# Enclosing definitions

The walk over the definitions of a file, keeping for each definition which one
encloses it. The parser's walk is this one without that record.
-/

set_option autoImplicit false

namespace Codenaut.Indexing

open Codenaut.Db Codenaut.Relational Codenaut.Text

/-- A definition and, when it is nested, the position of the innermost
definition around it. -/
structure ScopedDefinition where
  symbol : ParsedSymbol
  enclosing : Option Nat
  deriving DecidableEq, Repr

def enclosingSymbols (parents : List (Nat × ParsedSymbol)) : List ParsedSymbol :=
  parents.map (·.2)

/-- `walkDefinitions`, each parent with its position in the output. -/
def walkScopes (parser : PythonStaticParser) (platform : Platform) (file : SourceFile)
    (parents : List (Nat × ParsedSymbol)) (output : List ScopedDefinition) :
    List Node → List ScopedDefinition
  | [] => output
  | child :: rest =>
      if output.length > parser.maxSymbols then output
      else
        let walked :=
          match _visited : visit platform file (enclosingSymbols parents) child with
          | .skip => output
          | .descend nodes => walkScopes parser platform file parents output nodes
          | .emit symbol nodes =>
              walkScopes parser platform file (parents ++ [(output.length, symbol)])
                (output ++ [⟨symbol, parents.getLast?.map (·.1)⟩]) nodes
        walkScopes parser platform file parents walked rest
termination_by nodes => sizeOf nodes
decreasing_by
  all_goals
    have below := sizeOf_visit platform file (enclosingSymbols parents) child
    simp only [*, Visit.nodes, List.cons.sizeOf_spec] at *
    omega

section Walk

variable {parser : PythonStaticParser} {platform : Platform} {file : SourceFile}

/-- A relation of parents and output that holds after every emission, with the
new definition among the parents, and that survives leaving the innermost
parent, holds of the whole walk. -/
theorem walkScopes_induction {Holds : List (Nat × ParsedSymbol) → List ScopedDefinition → Prop}
    (emitted : ∀ parents output child symbol nodes, Holds parents output →
      visit platform file (enclosingSymbols parents) child = .emit symbol nodes →
      Holds (parents ++ [(output.length, symbol)])
        (output ++ [⟨symbol, parents.getLast?.map (·.1)⟩]))
    (left : ∀ parents innermost output, Holds (parents ++ [innermost]) output →
      Holds parents output)
    (parents : List (Nat × ParsedSymbol)) (output : List ScopedDefinition) (nodes : List Node)
    (start : Holds parents output) :
    Holds parents (walkScopes parser platform file parents output nodes) := by
  induction parents, output, nodes using walkScopes.induct parser platform file with
  | case1 parents output => rwa [walkScopes]
  | case2 parents output child rest full =>
      rw [walkScopes, if_pos full]
      exact start
  | case3 parents output child rest room walked searched nested remaining =>
      rw [walkScopes, if_neg room]
      apply remaining
      show Holds parents walked
      unfold walked
      split
      · exact start
      case h_2 nodes visited => exact searched nodes visited start
      case h_3 symbol nodes visited =>
        exact left _ _ _ (nested symbol nodes visited (emitted _ _ _ _ _ start visited))

/-- The step of the parser's walk at one child. -/
def walkChild (parser : PythonStaticParser) (platform : Platform) (file : SourceFile)
    (parents output : List ParsedSymbol) : Visit → List ParsedSymbol
  | .skip => output
  | .descend nodes => walkDefinitions parser platform file parents output nodes
  | .emit symbol nodes =>
      walkDefinitions parser platform file (parents ++ [symbol]) (output ++ [symbol]) nodes

theorem walkDefinitions_cons {parents output : List ParsedSymbol} {child : Node}
    {rest : List Node} (room : ¬ output.length > parser.maxSymbols) :
    walkDefinitions parser platform file parents output (child :: rest) =
      walkDefinitions parser platform file parents
        (walkChild parser platform file parents output (visit platform file parents child))
        rest := by
  rw [walkDefinitions, if_neg room]
  dsimp only
  split
  case h_1 visited => rw [visited, walkChild]
  case h_2 nodes visited => rw [visited, walkChild]
  case h_3 symbol nodes visited => rw [visited, walkChild]

/-- Without their records the scopes are the symbols of the parser's walk. -/
theorem walkScopes_symbols (parents : List (Nat × ParsedSymbol))
    (output : List ScopedDefinition) (nodes : List Node) :
    (walkScopes parser platform file parents output nodes).map (·.symbol) =
      walkDefinitions parser platform file (enclosingSymbols parents) (output.map (·.symbol))
        nodes := by
  induction parents, output, nodes using walkScopes.induct parser platform file with
  | case1 parents output => rw [walkScopes, walkDefinitions]
  | case2 parents output child rest full =>
      rw [walkScopes, walkDefinitions, if_pos full, if_pos (by simpa using full)]
  | case3 parents output child rest room walked searched nested remaining =>
      rw [walkScopes, if_neg room, walkDefinitions_cons (by simpa using room)]
      refine remaining.trans ?_
      congr 1
      unfold walked
      split
      case h_1 visited => rw [visited, walkChild]
      case h_2 nodes visited => rw [searched nodes visited, visited, walkChild]
      case h_3 symbol nodes visited =>
        rw [nested symbol nodes visited, visited, walkChild]
        simp [enclosingSymbols]

/-! ## Names -/

theorem joinText_concat {pieces : List String} (some : pieces ≠ []) (separator : Char)
    (last : String) : joinText separator (pieces ++ [last]) =
      joinText separator pieces ++ String.singleton separator ++ last := by
  rw [joinText, String.intercalate_append_of_ne_nil some (by simp), String.intercalate_singleton]
  rfl

theorem visit_emit {parents : List ParsedSymbol} {child : Node} {symbol : ParsedSymbol}
    {nodes : List Node} (visited : visit platform file parents child = .emit symbol nodes) :
    symbol.qualifiedName = qualifiedNameOf file parents symbol.name ∧
      (symbol.symbolType = .method → parents.getLast?.any (·.symbolType = .classType) = true) := by
  unfold visit at visited
  split at visited
  · cases visited
  · cases visited
  case h_3 definition view =>
    split at visited
    · cases visited
    case h_2 made emitted =>
      cases visited
      unfold symbolOf at emitted
      split at emitted
      · cases emitted
        refine ⟨rfl, ?_⟩
        dsimp only
        unfold symbolTypeOf
        split
        · intro impossible
          cases impossible
        · split
          case isTrue inside => exact fun _ => inside
          case isFalse =>
            split
            · intro impossible
              cases impossible
            · intro impossible
              cases impossible
      · cases emitted

/-- The qualified name of a definition extends that of the one around it, which
for a method is a class. -/
def NamedWithin (file : SourceFile) (output : List ScopedDefinition)
    (definition : ScopedDefinition) : Prop :=
  match definition.enclosing with
  | none =>
      definition.symbol.qualifiedName = file.moduleName ++ "." ++ definition.symbol.name ∧
        definition.symbol.symbolType ≠ .method
  | some index => ∃ owner, output[index]? = some owner ∧
      definition.symbol.qualifiedName =
        owner.symbol.qualifiedName ++ "." ++ definition.symbol.name ∧
      (definition.symbol.symbolType = .method → owner.symbol.symbolType = .classType)

/-- The output is named within itself, and the parents are in it, each with the
name that the parents before it give. -/
structure ScopesNamed (file : SourceFile) (parents : List (Nat × ParsedSymbol))
    (output : List ScopedDefinition) : Prop where
  named : ∀ definition ∈ output, NamedWithin file output definition
  located : ∀ entry ∈ parents, ∃ definition, output[entry.1]? = some definition ∧
    definition.symbol = entry.2
  chained : ∀ front entry, front ++ [entry] <+: parents →
    entry.2.qualifiedName = qualifiedNameOf file (enclosingSymbols front) entry.2.name

theorem NamedWithin.append {output : List ScopedDefinition} {definition : ScopedDefinition}
    (named : NamedWithin file output definition) (later : List ScopedDefinition) :
    NamedWithin file (output ++ later) definition := by
  unfold NamedWithin at *
  split at named
  · exact named
  case h_2 index nested =>
    obtain ⟨owner, found, facts⟩ := named
    have inside := (List.getElem?_eq_some_iff.mp found).1
    exact ⟨owner, (List.getElem?_append_left inside).trans found, facts⟩

theorem qualifiedNameOf_nested (front : List ParsedSymbol) (owner : ParsedSymbol) (name : String) :
    qualifiedNameOf file (front ++ [owner]) name =
      qualifiedNameOf file front owner.name ++ "." ++ name := by
  unfold qualifiedNameOf
  rw [joinText_concat (by simp)]
  simp only [List.map_append, List.map_cons, List.map_nil, ← List.cons_append]
  rfl

theorem ScopesNamed.emit {parents : List (Nat × ParsedSymbol)} {output : List ScopedDefinition}
    {child : Node} {symbol : ParsedSymbol} {nodes : List Node}
    (located : ScopesNamed file parents output)
    (visited : visit platform file (enclosingSymbols parents) child = .emit symbol nodes) :
    ScopesNamed file (parents ++ [(output.length, symbol)])
      (output ++ [⟨symbol, parents.getLast?.map (·.1)⟩]) := by
  obtain ⟨qualified, method⟩ := visit_emit visited
  constructor
  · intro definition member
    rcases List.mem_append.mp member with earlier | added
    · exact (located.named definition earlier).append _
    · rw [List.mem_singleton.mp added]
      rcases List.eq_nil_or_concat parents with none | ⟨front, entry, last⟩
      · subst none
        refine ⟨?_, fun nested => by simpa [enclosingSymbols] using method nested⟩
        rw [qualified]
        exact @joinText_concat [file.moduleName] (by simp) '.' symbol.name
      · rw [List.concat_eq_append] at last
        subst last
        obtain ⟨owner, found, same⟩ := located.located entry (by simp)
        have inside := (List.getElem?_eq_some_iff.mp found).1
        have name := located.chained front entry (List.prefix_refl _)
        have split : enclosingSymbols (front ++ [entry]) = enclosingSymbols front ++ [entry.2] := by
          simp [enclosingSymbols]
        unfold NamedWithin
        simp only [List.getLast?_append, List.getLast?_singleton, Option.some_or, Option.map_some]
        refine ⟨owner, (List.getElem?_append_left inside).trans found, ?_, ?_⟩
        · rw [qualified, split, qualifiedNameOf_nested, same, name]
        · intro nested
          have owned := method nested
          rw [split] at owned
          simpa [same] using owned
  · intro entry member
    rcases List.mem_append.mp member with earlier | added
    · obtain ⟨definition, found, same⟩ := located.located entry earlier
      have inside := (List.getElem?_eq_some_iff.mp found).1
      exact ⟨definition, (List.getElem?_append_left inside).trans found, same⟩
    · rw [List.mem_singleton.mp added]
      exact ⟨⟨symbol, parents.getLast?.map (·.1)⟩, by simp, rfl⟩
  · intro front entry leading
    rcases List.prefix_concat_iff.mp leading with whole | shorter
    · obtain ⟨sameFront, sameEntry⟩ := List.append_inj' whole rfl
      rw [sameFront, (List.cons.inj sameEntry).1]
      exact qualified
    · exact located.chained front entry shorter

end Walk

/-- The definitions of a file, in the order of the walk. -/
def definitionScopes (parser : PythonStaticParser) (platform : Platform) (file : SourceFile)
    (root : Node) : List ScopedDefinition :=
  walkScopes parser platform file [] [] root.namedChildren

theorem definitionScopes_named (parser : PythonStaticParser) (platform : Platform)
    (file : SourceFile) (root : Node) :
    ∀ definition ∈ definitionScopes parser platform file root,
      NamedWithin file (definitionScopes parser platform file root) definition := by
  have located : ScopesNamed file [] (definitionScopes parser platform file root) := by
    apply walkScopes_induction
    · intro parents output child symbol nodes located visited
      exact located.emit visited
    · intro parents innermost output located
      refine ⟨located.named, fun entry member => located.located entry (by simp [member]), ?_⟩
      intro front entry leading
      exact located.chained front entry (leading.trans (List.prefix_append _ _))
    · exact ⟨by simp, by simp, by simp⟩
  exact located.named

end Codenaut.Indexing
