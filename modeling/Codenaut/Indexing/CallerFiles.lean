import Codenaut.Indexing.ReceiverCalls
import Codenaut.Indexing.EdgeIdentity
import Codenaut.Indexing.TreeDefinitions

/-!
# Files of callers

The parser attributes a call to a definition of its own file, the builder finds
the caller again by its qualified name. A definition that is too large has no
record, and its name may then be that of another symbol.
-/

set_option autoImplicit false

namespace Codenaut.Indexing

open Codenaut.Db Codenaut.Relational Codenaut.Text

section Attribution

variable (limits : ParserLimits) (platform : Platform)

/-- The definition of the source that the parser attributes the call to. -/
def AttributedTo (source : ParsedSource) (site : ParsedCallSite) (definition : ParsedSymbol) :
    Prop :=
  callerAt (walkedSymbols limits.pythonParser platform source.file source.root) site.startLine =
    some definition

end Attribution

section Sites

variable {limits : ParserLimits} {platform : Platform} {sources : List ParsedSource}

theorem mem_callSitesOf {site : ParsedCallSite} :
    site ∈ callSitesOf limits platform sources ↔ ∃ source ∈ sources,
      site ∈ (source.parsed limits.pythonParser platform).callSites := by
  simp only [callSitesOf, parsedFilesOf, List.mem_flatMap, List.mem_map]
  constructor
  · rintro ⟨_, ⟨source, within, rfl⟩, recorded⟩
    exact ⟨source, within, recorded⟩
  · rintro ⟨source, within, recorded⟩
    exact ⟨_, ⟨source, within, rfl⟩, recorded⟩

theorem callerAt_spec {symbols : List ParsedSymbol} {line : Nat} {caller : ParsedSymbol}
    (found : callerAt symbols line = some caller) :
    caller ∈ symbols ∧ isCallable caller = true ∧ caller.headerEndLine ≤ line ∧
      line ≤ caller.endLine := by
  have member := mem_sortOn.mp (List.mem_of_head? found)
  simp only [List.mem_filter, Bool.decide_and, Bool.and_eq_true, decide_eq_true_eq] at member
  exact ⟨member.1.1, member.1.2, member.2.1, member.2.2⟩

/-- A recorded call is attributed to a definition of its file. -/
theorem attributed_of_site {source : ParsedSource} {site : ParsedCallSite}
    (recorded : site ∈ (source.parsed limits.pythonParser platform).callSites) :
    ∃ definition, AttributedTo limits platform source site definition ∧
      site.callerQualifiedName = definition.qualifiedName ∧
      site.filePath = source.file.filePath := by
  obtain ⟨node, -, view⟩ := mem_callSites recorded
  have facts := siteOf_site view
  obtain ⟨definition, attributed, named⟩ := facts.caller
  refine ⟨definition, ?_, named, facts.filePath⟩
  rw [AttributedTo, facts.startLine]
  exact attributed

/-- A file with call sites has the symbols of its walk. -/
theorem symbols_of_site {source : ParsedSource} {site : ParsedCallSite}
    (recorded : site ∈ (source.parsed limits.pythonParser platform).callSites)
    {symbol : ParsedSymbol} :
    symbol ∈ (source.parsed limits.pythonParser platform).symbols ↔
      symbol ∈ walkedSymbols limits.pythonParser platform source.file source.root := by
  unfold ParsedSource.parsed parseTree at *
  dsimp only at *
  split at recorded
  · cases recorded
  case isFalse fits =>
    rw [if_neg fits]
    exact mem_sortOn

/-- A definition that is not too large has its record. -/
theorem record_of_small {source : ParsedSource} (within : source ∈ sources)
    {site : ParsedCallSite}
    (recorded : site ∈ (source.parsed limits.pythonParser platform).callSites)
    {definition : ParsedSymbol}
    (walked : definition ∈ walkedSymbols limits.pythonParser platform source.file source.root)
    (small : definition.sourceText.utf8ByteSize ≤ limits.maxSymbolBytes) :
    symbolRecord definition ∈ recordsOf limits platform sources := by
  simp only [recordsOf, symbolRecords, mem_sortOn, List.mem_flatMap, parsedFilesOf, List.mem_map]
  refine ⟨_, ⟨source, within, rfl⟩, List.mem_map.mpr ⟨definition, List.mem_filter.mpr ⟨?_, ?_⟩, rfl⟩⟩
  · exact (symbols_of_site recorded).mpr walked
  · exact decide_eq_true small

theorem fileAt_of_source {source : ParsedSource} (within : source ∈ sources) :
    ∃ parsed, fileAt (parsedFilesOf limits platform sources) source.file.filePath =
      some parsed := by
  rw [← Option.isSome_iff_exists, fileAt, List.find?_isSome]
  refine ⟨source.parsed limits.pythonParser platform, ?_, ?_⟩
  · exact List.mem_reverse.mpr (List.mem_map.mpr ⟨source, within, rfl⟩)
  · exact decide_eq_true (parseTree_filePath source.root)

end Sites

section Soundness

variable (limits : ParserLimits) (platform : Platform) (unicode : UnicodeTables)
  (sources : List ParsedSource)

/-- The symbol is of the call's file, and its lines hold the call's line. -/
def Spans (symbol : SymbolRecord) (site : ParsedCallSite) : Prop :=
  symbol.filePath = site.filePath ∧ symbol.startLine ≤ site.startLine ∧
    site.startLine ≤ symbol.endLine

def CallersSound (scope : GraphScope) (graph : CallGraph) : Prop :=
  ∀ site ∈ callSitesOf limits platform sources, ∀ caller resolution,
    Draws unicode (parsedFilesOf limits platform sources) (recordsOf limits platform sources)
      site caller resolution →
    edgeRecord platform scope site caller resolution ∈ graph.edges → Spans caller site

/-- When the definition of a call is too large to be stored, its name is not
left to exactly one other symbol, unless that one spans the call. -/
def LargeCallersUnclaimed : Prop :=
  ∀ source ∈ sources, ∀ site ∈ (source.parsed limits.pythonParser platform).callSites,
    ∀ definition, AttributedTo limits platform source site definition →
      limits.maxSymbolBytes < definition.sourceText.utf8ByteSize →
      ∀ other, withQualifiedName (recordsOf limits platform sources) definition.qualifiedName =
        [other] → Spans other site

end Soundness

section Proofs

variable {limits : ParserLimits} {platform : Platform} {unicode : UnicodeTables}
  {sources : List ParsedSource}

/-- Callers are of the files of their calls exactly when no name of a large
definition is left to a symbol elsewhere. -/
theorem callers_sound_iff {scope : GraphScope} {maxTotalCallSites : Nat} {graph : CallGraph}
    (wellFormed : ∀ source ∈ sources, WellFormed source.file.source source.root)
    (built : buildCallGraph platform unicode maxTotalCallSites scope
      (parsedFilesOf limits platform sources) (recordsOf limits platform sources) = .ok graph) :
    CallersSound limits platform unicode sources scope graph ↔
      LargeCallersUnclaimed limits platform sources := by
  constructor
  · intro sound source within site recorded definition attributed _ other single
    obtain ⟨same, sameAttributed, named, path⟩ := attributed_of_site recorded
    rw [AttributedTo, attributed] at sameAttributed
    cases sameAttributed
    obtain ⟨parsed, located⟩ := @fileAt_of_source limits platform sources source within
    have member : site ∈ callSitesOf limits platform sources :=
      mem_callSitesOf.mpr ⟨source, within, recorded⟩
    have draws : Draws unicode (parsedFilesOf limits platform sources)
        (recordsOf limits platform sources) site other
        (resolve unicode (recordsOf limits platform sources) site.expression other parsed) := by
      refine ⟨?_, parsed, ?_, rfl⟩
      · rw [named, single]
        rfl
      · rw [path]
        exact located
    exact sound site member other _ draws (draws.mem built member)
  · rintro unclaimed site member caller resolution ⟨found, -⟩ -
    obtain ⟨source, within, recorded⟩ := mem_callSitesOf.mp member
    obtain ⟨definition, attributed, named, path⟩ := attributed_of_site recorded
    rw [named] at found
    have single := one_mem found
    by_cases large : limits.maxSymbolBytes < definition.sourceText.utf8ByteSize
    · exact unclaimed source within site recorded definition attributed large caller single
    · obtain ⟨walked, -, header, ends⟩ := callerAt_spec attributed
      have listed : symbolRecord definition ∈ withQualifiedName
          (recordsOf limits platform sources) definition.qualifiedName := by
        refine List.mem_filter.mpr ⟨?_, decide_eq_true rfl⟩
        exact record_of_small within recorded walked (Nat.le_of_not_lt large)
      rw [single, List.mem_singleton] at listed
      have placed := walkedSymbols_placed (wellFormed source within) walked
      rw [← listed]
      exact ⟨placed.filePath.trans path.symm, placed.header.trans header, ends⟩

end Proofs

/-! ## A large function and its stub -/

namespace LargeSamples

open ReceiverSamples

/-- The smallest size limit that the settings admit. -/
def smallLimits : ParserLimits :=
  { limits with maxSymbolBytes := 1024 }

/-- Digests of the empty text. -/
def blankDigests : Platform :=
  { platform with sha256Hex := fun _ => "" }

/-- A function over the limit, with one call. -/
def large : ParsedSource where
  file := sourceFile "m.py"
    ("def f():\n g(\"".toList ++ List.replicate 1024 'x' ++ "\")\n".toList) "commit"
  root := node "module" none (0, 1040) ⟨0, 0⟩ ⟨2, 0⟩ [
    node "function_definition" none (0, 1039) ⟨0, 0⟩ ⟨1, 1030⟩ [
      node "identifier" (some "name") (4, 5) ⟨0, 4⟩ ⟨0, 5⟩ [],
      node "block" (some "body") (10, 1039) ⟨1, 1⟩ ⟨1, 1030⟩ [
        node "call" none (10, 1039) ⟨1, 1⟩ ⟨1, 1030⟩ [
          node "identifier" (some "function") (10, 11) ⟨1, 1⟩ ⟨1, 2⟩ [],
          node "argument_list" (some "arguments") (11, 1039) ⟨1, 2⟩ ⟨1, 1030⟩ []]]]]

/-- The stub of its module declares the function. -/
def stub : ParsedSource where
  file := sourceFile "m.pyi" "def f(): ...\n".toList "commit"
  root := node "module" none (0, 13) ⟨0, 0⟩ ⟨1, 0⟩ [
    node "function_definition" none (0, 12) ⟨0, 0⟩ ⟨0, 12⟩ [
      node "identifier" (some "name") (4, 5) ⟨0, 4⟩ ⟨0, 5⟩ [],
      node "block" (some "body") (9, 12) ⟨0, 9⟩ ⟨0, 12⟩ []]]

def largeGraph : Except Failure CallGraph :=
  buildCallGraph blankDigests unicode smallLimits.maxTotalCallSites scope
    (parsedFilesOf smallLimits blankDigests [large, stub])
    (recordsOf smallLimits blankDigests [large, stub])

/-- Some call has a caller of another file. -/
def strayCaller : Bool :=
  (callSitesOf smallLimits blankDigests [large, stub]).any fun site =>
    (one (withQualifiedName (recordsOf smallLimits blankDigests [large, stub])
      site.callerQualifiedName)).any fun caller =>
        (fileAt (parsedFilesOf smallLimits blankDigests [large, stub]) site.filePath).isSome &&
          caller.filePath != site.filePath

end LargeSamples

open ReceiverSamples LargeSamples in
/-- The call of the large function becomes one of the function in the stub. -/
theorem large_caller_displaced : ∃ graph, largeGraph = .ok graph ∧
    ¬ CallersSound smallLimits blankDigests unicode [large, stub] scope graph := by
  have counted : largeGraph.isOk = true := by decide +kernel
  have stray : strayCaller = true := by decide +kernel
  cases built : largeGraph with
  | error failure =>
      rw [built] at counted
      cases counted
  | ok graph =>
      refine ⟨graph, rfl, fun sound => ?_⟩
      obtain ⟨site, within, checked⟩ := List.any_eq_true.mp stray
      obtain ⟨caller, found, facts⟩ := (Option.any_eq_true _ _).mp checked
      rw [Bool.and_eq_true] at facts
      obtain ⟨parsed, located⟩ := Option.isSome_iff_exists.mp facts.1
      have draws : Draws unicode (parsedFilesOf smallLimits blankDigests [large, stub])
          (recordsOf smallLimits blankDigests [large, stub]) site caller
          (resolve unicode (recordsOf smallLimits blankDigests [large, stub]) site.expression
            caller parsed) := ⟨found, parsed, located, rfl⟩
      exact bne_iff_ne.mp facts.2 (sound site within caller _ draws (draws.mem built within)).1

open ReceiverSamples ChainSamples in
/-- Both calls of a small function. -/
theorem small_callers_sound : ∃ graph, graphOf [chained] = .ok graph ∧
    CallersSound limits platform unicode [chained] scope graph := by
  obtain ⟨graph, built⟩ := graphOf_built (show (graphOf [chained]).isOk = true by decide +kernel)
  have wellFormed : ∀ source ∈ [chained], WellFormed source.file.source source.root := by
    intro source member
    rw [List.mem_singleton.mp member]
    exact wellFormed_of_lawful (by decide +kernel)
  have small : (walkedSymbols limits.pythonParser platform chained.file chained.root).all
      (fun symbol => decide (symbol.sourceText.utf8ByteSize ≤ limits.maxSymbolBytes)) = true := by
    decide +kernel
  refine ⟨graph, built, (callers_sound_iff wellFormed built).mpr ?_⟩
  intro source within site _ definition attributed larger
  rw [List.mem_singleton.mp within] at attributed
  have fits := List.all_eq_true.mp small definition (callerAt_spec attributed).1
  exact absurd (of_decide_eq_true fits) (Nat.not_le_of_lt larger)

end Codenaut.Indexing
