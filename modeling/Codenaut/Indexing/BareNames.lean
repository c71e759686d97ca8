import Codenaut.Indexing.CallerFiles
import Codenaut.Indexing.NameLookup

/-!
# Scopes of bare names

A bare name means the innermost definition that its caller sees: in the caller
itself, in a function around it or in the module, past the classes. The resolver
looks below every prefix of the caller's qualified name, classes among them.
-/

set_option autoImplicit false

namespace Codenaut.Indexing

open Codenaut.Db Codenaut.Relational Codenaut.Text

/-! ## Scopes of a file -/

/-- The definition at the second position is around the one at the first. -/
inductive Around (scopes : List ScopedDefinition) : Nat → Nat → Prop where
  | here {inner : Nat} {definition : ScopedDefinition} {outer : Nat} :
      scopes[inner]? = some definition → definition.enclosing = some outer →
      Around scopes inner outer
  | further {inner : Nat} {definition : ScopedDefinition} {between outer : Nat} :
      scopes[inner]? = some definition → definition.enclosing = some between →
      Around scopes between outer → Around scopes inner outer

/-- A scope is the body of the definition at a position, or the module. What a
caller sees by a bare name: its own, those of functions around it, the module. -/
def Visible (scopes : List ScopedDefinition) (caller : Nat) : Option Nat → Prop
  | none => True
  | some position => position = caller ∨ Around scopes caller position ∧
      ∃ owner, scopes[position]? = some owner ∧ isCallable owner.symbol = true

/-- The first scope lies within the second. -/
def Within (scopes : List ScopedDefinition) : Option Nat → Option Nat → Prop
  | none, _ => False
  | some _, none => True
  | some inner, some outer => Around scopes inner outer

def Defines (scopes : List ScopedDefinition) (scope : Option Nat) (name : String) : Prop :=
  ∃ definition ∈ scopes, definition.enclosing = scope ∧ definition.symbol.name = name

/-- The scope is visible, and no visible one within it defines the name. -/
def InnermostVisible (scopes : List ScopedDefinition) (caller : Nat) (name : String)
    (scope : Option Nat) : Prop :=
  Visible scopes caller scope ∧
    ∀ inner, Visible scopes caller inner → Within scopes inner scope → ¬ Defines scopes inner name

/-- Why the caller does not mean the definition in a scope by its name: the scope
is not around it, it is a class, or a visible scope within it defines the name. -/
inductive Unmeant (scopes : List ScopedDefinition) (caller : Nat) (name : String) :
    Option Nat → Prop where
  | apart {position : Nat} : position ≠ caller → ¬ Around scopes caller position →
      Unmeant scopes caller name (some position)
  | inClass {position : Nat} : position ≠ caller →
      (∀ owner, scopes[position]? = some owner → isCallable owner.symbol = false) →
      Unmeant scopes caller name (some position)
  | hidden {scope inner : Option Nat} : Visible scopes caller inner → Within scopes inner scope →
      Defines scopes inner name → Unmeant scopes caller name scope

theorem unmeant_iff {scopes : List ScopedDefinition} {caller : Nat} {name : String}
    {scope : Option Nat} :
    Unmeant scopes caller name scope ↔ ¬ InnermostVisible scopes caller name scope := by
  constructor
  · rintro unmeant ⟨visible, innermost⟩
    cases unmeant with
    | apart other away =>
        rcases visible with same | ⟨around, -⟩
        · exact other same
        · exact away around
    | inClass other classes =>
        rcases visible with same | ⟨-, owner, found, callable⟩
        · exact other same
        · rw [classes owner found] at callable
          cases callable
    | hidden seen within defines => exact innermost _ seen within defines
  · intro outside
    by_contra meant
    apply outside
    constructor
    · cases scope with
      | none => trivial
      | some position =>
          by_cases same : position = caller
          · exact .inl same
          · refine .inr ⟨?_, ?_⟩
            · by_contra away
              exact meant (.apart same away)
            · by_contra classes
              refine meant (.inClass same fun owner found => ?_)
              rw [← Bool.not_eq_true]
              exact fun callable => classes ⟨owner, found, callable⟩
    · exact fun inner seen within defines => meant (.hidden seen within defines)

section Soundness

variable (limits : ParserLimits) (platform : Platform) (unicode : UnicodeTables)
  (sources : List ParsedSource)

/-- The callee is a definition of the caller's file, by that name, in the
innermost scope that the caller sees. -/
def ScopedCallee (caller callee : SymbolRecord) (name : String) : Prop :=
  ∃ source ∈ sources, ∃ position calling,
    (source.scopes limits.pythonParser platform)[position]? = some calling ∧
    symbolRecord calling.symbol = caller ∧
    ∃ scope, InnermostVisible (source.scopes limits.pythonParser platform) position name scope ∧
      ∃ called ∈ source.recorded limits platform, called.enclosing = scope ∧
        called.symbol.name = name ∧ symbolRecord called.symbol = callee

/-- Every bare call that is drawn to its own file leads to the definition that
its caller sees. -/
def BareNamesScoped (scope : GraphScope) (graph : CallGraph) : Prop :=
  ∀ site ∈ callSitesOf limits platform sources, isIdentifier unicode site.expression = true →
    ∀ caller callee resolution,
      Draws unicode (parsedFilesOf limits platform sources) (recordsOf limits platform sources)
        site caller resolution →
      edgeRecord platform scope site caller resolution ∈ graph.edges →
      Reaches resolution .exactSameFile callee →
      ScopedCallee limits platform sources caller callee site.expression

/-- The caller does not mean the symbol: no file defines both, or where one does,
the caller does not mean that definition. -/
def Misplaced (caller symbol : SymbolRecord) (name : String) : Prop :=
  ∀ source ∈ sources, ∀ position calling,
    (source.scopes limits.pythonParser platform)[position]? = some calling →
    symbolRecord calling.symbol = caller →
    ∀ called ∈ source.recorded limits platform, called.symbol.name = name →
      symbolRecord called.symbol = symbol →
      Unmeant (source.scopes limits.pythonParser platform) position name called.enclosing

/-- No bare call has a misplaced symbol alone of its name in the nearest scope
around the caller that has the name. -/
def NoneMisplaced : Prop :=
  ∀ site ∈ callSitesOf limits platform sources, isIdentifier unicode site.expression = true →
    ∀ caller parsed,
      OnlyOf (recordsOf limits platform sources) site.callerQualifiedName caller →
      fileAt (parsedFilesOf limits platform sources) site.filePath = some parsed →
      ∀ scope symbol, NearestScope (recordsOf limits platform sources) parsed.moduleName
          caller.qualifiedName site.expression scope →
        OnlyOf (recordsOf limits platform sources) (scope ++ "." ++ site.expression) symbol →
        ¬ Misplaced limits platform sources caller symbol site.expression

end Soundness

section Proofs

variable {limits : ParserLimits} {platform : Platform} {unicode : UnicodeTables}
  {sources : List ParsedSource}

/-- A symbol is the scoped callee exactly when it is not misplaced. -/
theorem scopedCallee_iff {caller callee : SymbolRecord} {name : String} :
    ScopedCallee limits platform sources caller callee name ↔
      ¬ Misplaced limits platform sources caller callee name := by
  constructor
  · rintro ⟨source, within, position, calling, located, isCaller, scope, innermost, called,
      member, rfl, isName, isCallee⟩ misplaced
    exact unmeant_iff.mp (misplaced source within position calling located isCaller called member
      isName isCallee) innermost
  · intro placed
    by_contra unscoped
    apply placed
    intro source within position calling located isCaller called member isName isCallee
    refine unmeant_iff.mpr fun innermost => unscoped ?_
    exact ⟨source, within, position, calling, located, isCaller, called.enclosing, innermost, called,
      member, rfl, isName, isCallee⟩

/-- Bare names follow the scopes exactly when no call has a misplaced symbol. -/
theorem bareNames_scoped_iff {maxTotalCallSites : Nat} {scope : GraphScope} {graph : CallGraph}
    (built : buildCallGraph platform unicode maxTotalCallSites scope
      (parsedFilesOf limits platform sources) (recordsOf limits platform sources) = .ok graph) :
    BareNamesScoped limits platform unicode sources scope graph ↔
      NoneMisplaced limits platform unicode sources := by
  have bare : ∀ {expression : String}, isIdentifier unicode expression = true →
      ∀ (caller callee : SymbolRecord) (parsed : ParsedFile),
        Reaches (resolve unicode (recordsOf limits platform sources) expression caller parsed)
            .exactSameFile callee ↔
          ∃ scope, NearestScope (recordsOf limits platform sources) parsed.moduleName
              caller.qualifiedName expression scope ∧
            OnlyOf (recordsOf limits platform sources) (scope ++ "." ++ expression) callee := by
    intro expression identifier caller callee parsed
    rw [resolve, if_pos identifier, reaches_identifier]
  constructor
  · intro inScope site within identifier caller parsed found located near callee nearest only
    have draws : Draws unicode (parsedFilesOf limits platform sources)
        (recordsOf limits platform sources) site caller
        (resolve unicode (recordsOf limits platform sources) site.expression caller parsed) :=
      ⟨onlyOf_iff_one.mp found, parsed, located, rfl⟩
    apply scopedCallee_iff.mp
    exact inScope site within identifier caller callee _ draws (draws.mem built within)
      ((bare identifier caller callee parsed).mpr ⟨near, nearest, only⟩)
  · rintro placed site within identifier caller callee _ ⟨found, parsed, located, rfl⟩ - reached
    obtain ⟨near, nearest, only⟩ := (bare identifier caller callee parsed).mp reached
    exact scopedCallee_iff.mpr (placed site within identifier caller parsed
      (onlyOf_iff_one.mpr found) located near callee nearest only)

end Proofs

/-! ## A method and a function of one name -/

namespace ScopeSamples

open ReceiverSamples

/-- A method that calls the bare name of another. -/
def memberName : ParsedSource where
  file := sourceFile "m.py"
    "class A:\n def g(self):\n  pass\n def f(self):\n  g()\n".toList "commit"
  root := node "module" none (0, 50) ⟨0, 0⟩ ⟨5, 0⟩ [
    node "class_definition" none (0, 49) ⟨0, 0⟩ ⟨4, 5⟩ [
      node "identifier" (some "name") (6, 7) ⟨0, 6⟩ ⟨0, 7⟩ [],
      node "block" (some "body") (10, 49) ⟨1, 1⟩ ⟨4, 5⟩ [
        node "function_definition" none (10, 29) ⟨1, 1⟩ ⟨2, 6⟩ [
          node "identifier" (some "name") (14, 15) ⟨1, 5⟩ ⟨1, 6⟩ [],
          node "block" (some "body") (25, 29) ⟨2, 2⟩ ⟨2, 6⟩ []],
        node "function_definition" none (31, 49) ⟨3, 1⟩ ⟨4, 5⟩ [
          node "identifier" (some "name") (35, 36) ⟨3, 5⟩ ⟨3, 6⟩ [],
          node "block" (some "body") (46, 49) ⟨4, 2⟩ ⟨4, 5⟩ [
            node "call" none (46, 49) ⟨4, 2⟩ ⟨4, 5⟩ [
              node "identifier" (some "function") (46, 47) ⟨4, 2⟩ ⟨4, 3⟩ [],
              node "argument_list" (some "arguments") (47, 49) ⟨4, 3⟩ ⟨4, 5⟩ []]]]]]]

/-- A function that calls the one after it. -/
def moduleName : ParsedSource where
  file := sourceFile "m.py" "def f():\n g()\ndef g():\n pass\n".toList "commit"
  root := node "module" none (0, 29) ⟨0, 0⟩ ⟨4, 0⟩ [
    node "function_definition" none (0, 13) ⟨0, 0⟩ ⟨1, 4⟩ [
      node "identifier" (some "name") (4, 5) ⟨0, 4⟩ ⟨0, 5⟩ [],
      node "block" (some "body") (10, 13) ⟨1, 1⟩ ⟨1, 4⟩ [
        node "call" none (10, 13) ⟨1, 1⟩ ⟨1, 4⟩ [
          node "identifier" (some "function") (10, 11) ⟨1, 1⟩ ⟨1, 2⟩ [],
          node "argument_list" (some "arguments") (11, 13) ⟨1, 2⟩ ⟨1, 4⟩ []]]],
    node "function_definition" none (14, 28) ⟨2, 0⟩ ⟨3, 5⟩ [
      node "identifier" (some "name") (18, 19) ⟨2, 4⟩ ⟨2, 5⟩ [],
      node "block" (some "body") (24, 28) ⟨3, 1⟩ ⟨3, 5⟩ []]]

def scopesOf (source : ParsedSource) : List ScopedDefinition :=
  source.scopes limits.pythonParser platform

/-- Some bare call is drawn to the file, and every definition with its callee's
record stands in the first definition, which is no function. -/
def strayMember (source : ParsedSource) : Bool :=
  (callSitesOf limits platform [source]).any fun site =>
    (one (withQualifiedName (recordsOf limits platform [source]) site.callerQualifiedName)).any
      fun caller =>
        (fileAt (parsedFilesOf limits platform [source]) site.filePath).any fun parsed =>
          let resolution := resolve unicode (recordsOf limits platform [source]) site.expression
            caller parsed
          isIdentifier unicode site.expression && resolution.kind == .exactSameFile &&
            resolution.callee.any fun callee =>
              (scopesOf source).all (fun definition =>
                symbolRecord definition.symbol != callee || definition.enclosing == some 0) &&
              (scopesOf source)[0]?.all fun owner =>
                !isCallable owner.symbol && symbolRecord owner.symbol != caller

/-- Every call is of `g` in the first definition, and `m.g` is found. -/
def moduleCalls : Bool :=
  (callSitesOf limits platform [moduleName]).all fun site =>
    (one (withQualifiedName (recordsOf limits platform [moduleName])
      site.callerQualifiedName)).all fun caller =>
        (fileAt (parsedFilesOf limits platform [moduleName]) site.filePath).all fun parsed =>
          site.expression == "g" &&
            (scopesOf moduleName)[0]?.any (fun calling => symbolRecord calling.symbol == caller) &&
            localName (recordsOf limits platform [moduleName]) caller parsed "g" == some "m.g"

end ScopeSamples

open ReceiverSamples ScopeSamples in
/-- The bare `g()` of a method is drawn to the method `g`. -/
theorem member_reached_bare : ∃ graph, graphOf [memberName] = .ok graph ∧
    ¬ BareNamesScoped limits platform unicode [memberName] scope graph := by
  obtain ⟨graph, built⟩ := graphOf_built
    (show (graphOf [memberName]).isOk = true by decide +kernel)
  have stray : strayMember memberName = true := by decide +kernel
  refine ⟨graph, built, fun named => ?_⟩
  obtain ⟨site, within, checked⟩ := List.any_eq_true.mp stray
  obtain ⟨caller, found, called⟩ := (Option.any_eq_true _ _).mp checked
  obtain ⟨parsed, located, read⟩ := (Option.any_eq_true _ _).mp called
  simp only [Bool.and_eq_true, beq_iff_eq] at read
  obtain ⟨⟨identifier, kind⟩, reached⟩ := read
  obtain ⟨callee, isCallee, facts⟩ := (Option.any_eq_true _ _).mp reached
  simp only [Bool.and_eq_true, List.all_eq_true, Bool.or_eq_true, bne_iff_ne, beq_iff_eq]
    at facts
  obtain ⟨enclosed, owned⟩ := facts
  have draws : Draws unicode (parsedFilesOf limits platform [memberName])
      (recordsOf limits platform [memberName]) site caller
      (resolve unicode (recordsOf limits platform [memberName]) site.expression caller parsed) :=
    ⟨found, parsed, located, rfl⟩
  obtain ⟨source, only, position, calling, here, isCaller, scope, innermost, definition, member,
    enclosing, -, same⟩ := named site within identifier caller callee _ draws
      (draws.mem built within) ⟨kind, isCallee⟩
  rw [List.mem_singleton.mp only] at here innermost member
  have first := (enclosed definition (recorded_mem member)).resolve_left (· same)
  rw [enclosing] at first
  rw [first] at innermost
  rcases innermost.1 with rfl | ⟨-, owner, atFirst, callable⟩
  · have checkedOwner : (scopesOf memberName)[0]? = some calling := here
    rw [checkedOwner, Option.all_some] at owned
    simp [isCaller] at owned
  · have checkedOwner : (scopesOf memberName)[0]? = some owner := atFirst
    rw [checkedOwner, Option.all_some] at owned
    simp [callable] at owned

open ReceiverSamples ScopeSamples in
/-- The bare `g()` of a function is drawn to the function `g` of its module. -/
theorem module_function_scoped : ∃ graph, graphOf [moduleName] = .ok graph ∧
    BareNamesScoped limits platform unicode [moduleName] scope graph := by
  obtain ⟨graph, built⟩ := graphOf_built
    (show (graphOf [moduleName]).isOk = true by decide +kernel)
  have calls : moduleCalls = true := by decide +kernel
  have outermost : (scopesOf moduleName).all (·.enclosing.isNone) = true := by decide +kernel
  have defined : (moduleName.recorded limits platform).any (fun definition =>
      definition.enclosing == none && definition.symbol.name == "g") = true := by
    decide +kernel
  have single : (moduleName.recorded limits platform).all (fun definition =>
      definition.symbol.name != "g" ||
        withQualifiedName (recordsOf limits platform [moduleName]) "m.g" ==
          [symbolRecord definition.symbol]) = true := by
    decide +kernel
  refine ⟨graph, built, (bareNames_scoped_iff built).mpr ?_⟩
  intro site within _ caller parsed found located near symbol nearest only misplaced
  have checked := List.all_eq_true.mp calls site within
  simp only [onlyOf_iff_one.mp found, located, Option.all_some, Bool.and_eq_true, beq_iff_eq]
    at checked
  obtain ⟨⟨expression, atFirst⟩, name⟩ := checked
  obtain ⟨calling, here, isCaller⟩ := (Option.any_eq_true _ _).mp atFirst
  obtain ⟨definition, member, facts⟩ := List.any_eq_true.mp defined
  simp only [Bool.and_eq_true, beq_iff_eq] at facts
  rw [expression] at nearest only misplaced
  have looked := localName_some.mpr ⟨near, nearest, rfl⟩
  rw [name] at looked
  rw [← Option.some.inj looked] at only
  have recorded := List.all_eq_true.mp single definition member
  simp only [facts.2, bne_self_eq_false, Bool.false_or, beq_iff_eq] at recorded
  rw [OnlyOf, recorded] at only
  have unmeant := misplaced moduleName (List.mem_singleton_self _) 0 calling here
    (beq_iff_eq.mp isCaller) definition member facts.2 (List.cons.inj only).1
  rw [facts.1] at unmeant
  cases unmeant with
  | @hidden scope inner seen within defines =>
      cases inner with
      | none => exact within
      | some position =>
          obtain ⟨nested, nestedMember, around, -⟩ := defines
          have alone := List.all_eq_true.mp outermost nested nestedMember
          simp [around] at alone

end Codenaut.Indexing
