import Codenaut.Indexing.NameLookup
import Codenaut.Indexing.ReceiverCalls

/-!
# Calls within one file

Three stages of the resolver label a callee as one of the calling file: they
look a name up below the file's module. A symbol of another file may bear that
name, and nothing compares the paths.
-/

set_option autoImplicit false

namespace Codenaut.Indexing

open Codenaut.Db Codenaut.Relational Codenaut.Text

section Soundness

variable (platform : Platform) (unicode : UnicodeTables) (scope : GraphScope)
  (parsedFiles : List ParsedFile) (symbols : List SymbolRecord)

/-- Every edge of the graph labelled as within one file leads to a symbol of the
file of its call. -/
def SameFileSound (graph : CallGraph) : Prop :=
  ∀ site ∈ parsedFiles.flatMap (·.callSites), ∀ caller callee resolution,
    Draws unicode parsedFiles symbols site caller resolution →
    edgeRecord platform scope site caller resolution ∈ graph.edges →
    Reaches resolution .exactSameFile callee → callee.filePath = site.filePath

/-- What the call means in its own file is not the name of one symbol of another
file alone: a bare name in the nearest scope around the caller that has it, a
member of `self` or `cls` beside the caller, a dotted name below the module when
no import leads to a symbol. -/
structure NoForeignHomonym (path : String) (caller : SymbolRecord) (parsed : ParsedFile)
    (form : CallForm) : Prop where
  near : ∀ name scope symbol, form = .bare name →
    NearestScope symbols parsed.moduleName caller.qualifiedName name scope →
    OnlyOf symbols (scope ++ "." ++ name) symbol → symbol.filePath = path
  beside : ∀ member symbol, form = .receiver member →
    OnlyOf symbols (receiverTarget caller member) symbol → symbol.filePath = path
  below : ∀ head tail symbol, form = .dotted head tail →
    LedNowhere symbols (namesThrough (importBindings parsed) head tail) →
    OnlyOf symbols (moduleTarget parsed head tail) symbol → symbol.filePath = path

/-- No call has a homonym of another file. -/
def NoForeignHomonyms : Prop :=
  ∀ site ∈ parsedFiles.flatMap (·.callSites), ∀ caller parsed,
    OnlyOf symbols site.callerQualifiedName caller →
    fileAt parsedFiles site.filePath = some parsed →
    NoForeignHomonym symbols site.filePath caller parsed (callForm unicode site.expression)

end Soundness

section Proofs

variable {platform : Platform} {unicode : UnicodeTables} {scope : GraphScope}
  {parsedFiles : List ParsedFile} {symbols : List SymbolRecord}

/-- The label leads within the file exactly when the call has no foreign homonym. -/
theorem sameFile_iff_homonym {path : String} {caller : SymbolRecord} {parsed : ParsedFile}
    (expression : String) :
    (∀ callee, Reaches (resolve unicode symbols expression caller parsed) .exactSameFile callee →
        callee.filePath = path) ↔
      NoForeignHomonym symbols path caller parsed (callForm unicode expression) := by
  rw [resolve_form]
  cases form : callForm unicode expression with
  | bare name =>
      simp only [reaches_identifier]
      constructor
      · intro within
        constructor
        case near =>
          rintro _ scope symbol ⟨⟩ nearest only
          exact within symbol ⟨scope, nearest, only⟩
        all_goals
          intros
          contradiction
      · intro homonym callee ⟨scope, nearest, only⟩
        exact homonym.near name scope callee rfl nearest only
  | receiver member =>
      simp only [reaches_exactOrAmbiguous, true_and]
      constructor
      · intro within
        constructor
        case beside =>
          rintro _ symbol ⟨⟩ only
          exact within symbol only
        all_goals
          intros
          contradiction
      · exact fun homonym callee => homonym.beside member callee rfl
  | dotted head tail =>
      simp only [reaches_attribute (callForm_dotted form).2.2.2 (callForm_filled form)]
      constructor
      · intro within
        constructor
        case below =>
          rintro _ _ symbol ⟨⟩ nowhere only
          exact within symbol ⟨nowhere, only⟩
        all_goals
          intros
          contradiction
      · exact fun homonym callee below => homonym.below head tail callee rfl below.1 below.2
  | other =>
      refine iff_of_true (fun callee reached => absurd reached not_reaches_unresolved) ?_
      constructor
      all_goals
        intros
        contradiction

/-- Edges within one file are sound exactly when no call has a homonym of another
file. -/
theorem sameFile_sound_iff {maxTotalCallSites : Nat} {graph : CallGraph}
    (built : buildCallGraph platform unicode maxTotalCallSites scope parsedFiles symbols =
      .ok graph) :
    SameFileSound platform unicode scope parsedFiles symbols graph ↔
      NoForeignHomonyms unicode parsedFiles symbols := by
  constructor
  · intro sound site within caller parsed found located
    apply (sameFile_iff_homonym site.expression).mp
    intro callee reached
    have draws : Draws unicode parsedFiles symbols site caller
        (resolve unicode symbols site.expression caller parsed) :=
      ⟨onlyOf_iff_one.mp found, parsed, located, rfl⟩
    exact sound site within caller callee _ draws (draws.mem built within) reached
  · rintro homonyms site within caller callee _ ⟨found, parsed, located, rfl⟩ - reached
    exact (sameFile_iff_homonym site.expression).mpr
      (homonyms site within caller parsed (onlyOf_iff_one.mpr found) located) callee reached

end Proofs

/-! ## A source and its stub -/

namespace StubSamples

open ReceiverSamples

/-- A function that calls a name the file does not define. -/
def source : ParsedSource where
  file := sourceFile "m.py" "def f():\n g()\n".toList "commit"
  root := node "module" none (0, 14) ⟨0, 0⟩ ⟨2, 0⟩ [
    node "function_definition" none (0, 13) ⟨0, 0⟩ ⟨1, 4⟩ [
      node "identifier" (some "name") (4, 5) ⟨0, 4⟩ ⟨0, 5⟩ [],
      node "block" (some "body") (10, 13) ⟨1, 1⟩ ⟨1, 4⟩ [
        node "call" none (10, 13) ⟨1, 1⟩ ⟨1, 4⟩ [
          node "identifier" (some "function") (10, 11) ⟨1, 1⟩ ⟨1, 2⟩ [],
          node "argument_list" (some "arguments") (11, 13) ⟨1, 2⟩ ⟨1, 4⟩ []]]]]

/-- The stub of its module, which defines the name. -/
def stub : ParsedSource where
  file := sourceFile "m.pyi" "def g(): ...\n".toList "commit"
  root := node "module" none (0, 13) ⟨0, 0⟩ ⟨1, 0⟩ [
    node "function_definition" none (0, 12) ⟨0, 0⟩ ⟨0, 12⟩ [
      node "identifier" (some "name") (4, 5) ⟨0, 4⟩ ⟨0, 5⟩ [],
      node "block" (some "body") (9, 12) ⟨0, 9⟩ ⟨0, 12⟩ []]]

/-- Some call reaches a callee of another file under the label of one file. -/
def strayLabel (sources : List ParsedSource) : Bool :=
  (callSitesOf limits platform sources).any fun site =>
    (one (withQualifiedName (recordsOf limits platform sources) site.callerQualifiedName)).any
      fun caller =>
        (fileAt (parsedFilesOf limits platform sources) site.filePath).any fun parsed =>
          let resolution := resolve unicode (recordsOf limits platform sources) site.expression
            caller parsed
          resolution.kind == .exactSameFile &&
            resolution.callee.any fun callee => callee.filePath != site.filePath

end StubSamples

open ReceiverSamples StubSamples in
/-- `g()` in `m.py` is drawn to the function of `m.pyi`. -/
theorem stub_borrowed : ∃ graph, graphOf [source, stub] = .ok graph ∧
    ¬ SameFileSound platform unicode scope (parsedFilesOf limits platform [source, stub])
      (recordsOf limits platform [source, stub]) graph := by
  have counted : (graphOf [source, stub]).isOk = true := by decide +kernel
  have stray : strayLabel [source, stub] = true := by decide +kernel
  obtain ⟨graph, built⟩ := graphOf_built counted
  refine ⟨graph, built, fun sound => ?_⟩
  obtain ⟨site, within, checked⟩ := List.any_eq_true.mp stray
  obtain ⟨caller, found, called⟩ := (Option.any_eq_true _ _).mp checked
  obtain ⟨parsed, located, read⟩ := (Option.any_eq_true _ _).mp called
  simp only [Bool.and_eq_true, beq_iff_eq] at read
  obtain ⟨callee, reached, other⟩ := (Option.any_eq_true _ _).mp read.2
  have draws : Draws unicode (parsedFilesOf limits platform [source, stub])
      (recordsOf limits platform [source, stub]) site caller
      (resolve unicode (recordsOf limits platform [source, stub]) site.expression caller
        parsed) := ⟨found, parsed, located, rfl⟩
  exact bne_iff_ne.mp other
    (sound site within caller callee _ draws (draws.mem built within) ⟨read.1, reached⟩)

open ReceiverSamples in
/-- The call between two methods of a lone file. -/
theorem method_call_sameFile : ∃ graph, graphOf [methods] = .ok graph ∧
    SameFileSound platform unicode scope (parsedFilesOf limits platform [methods])
      (recordsOf limits platform [methods]) graph := by
  obtain ⟨graph, built⟩ := graphOf_built (show (graphOf [methods]).isOk = true by decide +kernel)
  have paths : (recordsOf limits platform [methods]).all (·.filePath == "m.py") = true := by
    decide +kernel
  have sites : (callSitesOf limits platform [methods]).all (·.filePath == "m.py") = true := by
    decide +kernel
  refine ⟨graph, built, (sameFile_sound_iff built).mpr ?_⟩
  have own : ∀ site ∈ callSitesOf limits platform [methods], ∀ name symbol,
      OnlyOf (recordsOf limits platform [methods]) name symbol → symbol.filePath = site.filePath := by
    intro site within name symbol only
    have member : symbol ∈ recordsOf limits platform [methods] :=
      withQualifiedName_subset name (only ▸ List.mem_singleton_self symbol)
    have path := beq_iff_eq.mp (List.all_eq_true.mp paths symbol member)
    exact path.trans (beq_iff_eq.mp (List.all_eq_true.mp sites site within)).symm
  intro site within caller parsed _ _
  exact ⟨fun name scope symbol _ _ => own site within _ symbol,
    fun member symbol _ => own site within _ symbol,
    fun head tail symbol _ _ => own site within _ symbol⟩

end Codenaut.Indexing
