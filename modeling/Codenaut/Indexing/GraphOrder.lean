import Codenaut.Indexing.CallSites
import Codenaut.Indexing.GraphEdges
import Codenaut.Indexing.GraphValidation
import Codenaut.Indexing.ReceiverCalls
import Codenaut.Relational.StableSort

/-!
# Order of files and symbols

The builder groups symbols by name and asks only whether a group has one
member, so neither the order of the symbols nor that of the files is seen.
-/

set_option autoImplicit false

namespace Codenaut.Indexing

open Codenaut.Db Codenaut.Relational Codenaut.Text

/-! ## Groups of symbols -/

section Groups

variable {unicode : UnicodeTables} {symbols permuted : List SymbolRecord} {caller : SymbolRecord}
  {parsed : ParsedFile}

theorem one_perm {left right : List SymbolRecord} (perm : left.Perm right) :
    one left = one right := by
  match left, right, perm.length_eq with
  | [], [], _ => rfl
  | [first], [second], _ => rw [List.perm_singleton.mp perm]
  | _ :: _ :: _, _ :: _ :: _, _ => rfl

theorem exactOrAmbiguous_perm {left right : List SymbolRecord} (perm : left.Perm right)
    (kind : ResolutionType) : exactOrAmbiguous left kind = exactOrAmbiguous right kind := by
  match left, right, perm.length_eq with
  | [], [], _ => rfl
  | [first], [second], _ => rw [List.perm_singleton.mp perm]
  | _ :: _ :: _, _ :: _ :: _, _ => rfl

theorem withQualifiedName_perm (perm : symbols.Perm permuted) (name : String) :
    (withQualifiedName symbols name).Perm (withQualifiedName permuted name) :=
  perm.filter _

/-- The first candidate that is found is the same one. -/
theorem firstUnique_perm (perm : symbols.Perm permuted) (candidates : List String) :
    firstUnique symbols candidates = none ∧ firstUnique permuted candidates = none ∨
      ∃ found others, firstUnique symbols candidates = some found ∧
        firstUnique permuted candidates = some others ∧ found.Perm others := by
  induction candidates with
  | nil => exact .inl ⟨rfl, rfl⟩
  | cons candidate rest ih =>
      have grouped := withQualifiedName_perm perm candidate
      unfold firstUnique
      cases found : withQualifiedName symbols candidate with
      | nil =>
          rw [found] at grouped
          rw [List.nil_perm.mp grouped]
          exact ih
      | cons first others =>
          rw [found] at grouped
          obtain ⟨second, rest, same⟩ := List.exists_cons_of_ne_nil
            (fun empty => by simpa [empty] using grouped.length_eq :
              withQualifiedName permuted candidate ≠ [])
          rw [same] at grouped ⊢
          exact .inr ⟨_, _, rfl, rfl, grouped⟩

theorem resolveIdentifier_perm (perm : symbols.Perm permuted) (name : String) :
    resolveIdentifier symbols caller parsed name =
      resolveIdentifier permuted caller parsed name := by
  unfold resolveIdentifier
  rcases firstUnique_perm perm (localCandidates caller parsed.moduleName name) with
    ⟨missing, absent⟩ | ⟨found, others, here, there, grouped⟩
  · rw [missing, absent]
    rcases firstUnique_perm perm (directImportCandidates parsed name) with
      ⟨missing, absent⟩ | ⟨found, others, here, there, grouped⟩
    · rw [missing, absent]
    · rw [here, there]
      exact exactOrAmbiguous_perm grouped _
  · rw [here, there]
    exact exactOrAmbiguous_perm grouped _

theorem methodsNamed_perm (perm : symbols.Perm permuted) (name : String) :
    (methodsNamed symbols name).Perm (methodsNamed permuted name) :=
  (perm.filter _).filter _

theorem resolveAttribute_perm (perm : symbols.Perm permuted) (head : String)
    (tail : List String) :
    resolveAttribute symbols caller parsed head tail =
      resolveAttribute permuted caller parsed head tail := by
  simp only [resolveAttribute]
  split
  · exact exactOrAmbiguous_perm (withQualifiedName_perm perm _) _
  · rcases firstUnique_perm perm (qualifiedImportCandidates parsed head tail) with
      ⟨missing, absent⟩ | ⟨found, others, here, there, grouped⟩
    · rw [missing, absent]
      have grouped := withQualifiedName_perm perm
        (parsed.moduleName ++ "." ++ joinText '.' (head :: tail))
      have named := methodsNamed_perm perm (tail.getLastD head)
      generalize withQualifiedName symbols (parsed.moduleName ++ "." ++ joinText '.' (head :: tail))
        = left at grouped ⊢
      generalize withQualifiedName permuted (parsed.moduleName ++ "." ++ joinText '.' (head :: tail))
        = right at grouped ⊢
      generalize methodsNamed symbols (tail.getLastD head) = methods at named ⊢
      generalize methodsNamed permuted (tail.getLastD head) = others at named ⊢
      have sizes := grouped.length_eq
      cases left with
      | cons first rest =>
          cases right with
          | nil => cases sizes
          | cons other later => exact exactOrAmbiguous_perm grouped _
      | nil =>
          obtain rfl := List.nil_perm.mp grouped
          have counts := named.length_eq
          rcases methods with _ | ⟨method, _ | ⟨next, rest⟩⟩
          · obtain rfl := List.nil_perm.mp named
            rfl
          · obtain rfl := List.singleton_perm.mp named
            rfl
          · rcases others with _ | ⟨other, _ | ⟨later, more⟩⟩
            · cases counts
            · cases counts
            · rfl
    · rw [here, there]
      exact exactOrAmbiguous_perm grouped _

theorem resolve_perm (perm : symbols.Perm permuted) (expression : String) :
    resolve unicode symbols expression caller parsed =
      resolve unicode permuted expression caller parsed := by
  unfold resolve
  split
  · exact resolveIdentifier_perm perm expression
  · split
    · split
      · exact resolveAttribute_perm perm _ _
      · rfl
    · rfl

end Groups

/-! ## Files -/

theorem fileAt_some_iff {parsedFiles : List ParsedFile} {path : String} {parsed : ParsedFile}
    (distinct : (parsedFiles.map (·.filePath)).Nodup) :
    fileAt parsedFiles path = some parsed ↔ parsed ∈ parsedFiles ∧ parsed.filePath = path := by
  constructor
  · intro found
    unfold fileAt at found
    exact ⟨List.mem_reverse.mp (List.mem_of_find?_eq_some found),
      by simpa using List.find?_some found⟩
  · rintro ⟨member, named⟩
    cases found : fileAt parsedFiles path with
    | none =>
        have missing := List.find?_eq_none.mp found parsed (List.mem_reverse.mpr member)
        exact absurd (decide_eq_true named) missing
    | some other =>
        unfold fileAt at found
        have inside := List.mem_reverse.mp (List.mem_of_find?_eq_some found)
        have same : other.filePath = path := by simpa using List.find?_some found
        rw [List.inj_on_of_nodup_map distinct inside member (same.trans named.symm)]

theorem fileAt_perm {parsedFiles permuted : List ParsedFile}
    (distinct : (parsedFiles.map (·.filePath)).Nodup) (perm : parsedFiles.Perm permuted)
    (path : String) : fileAt parsedFiles path = fileAt permuted path := by
  have kept : (permuted.map (·.filePath)).Nodup := (perm.map _).nodup_iff.mp distinct
  ext parsed
  rw [fileAt_some_iff distinct, fileAt_some_iff kept, perm.mem_iff]

/-- The call sites of a parsed file are its own. -/
def OwnSites (parsedFiles : List ParsedFile) : Prop :=
  ∀ parsed ∈ parsedFiles, ∀ site ∈ parsed.callSites, site.filePath = parsed.filePath

/-- The parser's files have their own sites. -/
theorem ownSites_parsed (limits : ParserLimits) (platform : Platform)
    (sources : List ParsedSource) : OwnSites (parsedFilesOf limits platform sources) := by
  intro parsed member site inside
  obtain ⟨source, -, rfl⟩ := List.mem_map.mp member
  rw [callSites_filePath inside]
  exact (parseTree_filePath source.root).symm

section Graphs

variable {platform : Platform} {unicode : UnicodeTables} {scope : GraphScope}
  {parsedFiles permutedFiles : List ParsedFile} {symbols permuted : List SymbolRecord}

theorem siteEdge_perm (distinct : (parsedFiles.map (·.filePath)).Nodup)
    (files : parsedFiles.Perm permutedFiles) (perm : symbols.Perm permuted)
    (site : ParsedCallSite) :
    siteEdge platform unicode scope parsedFiles symbols site =
      siteEdge platform unicode scope permutedFiles permuted site := by
  unfold siteEdge
  rw [one_perm (withQualifiedName_perm perm _), fileAt_perm distinct files]
  split
  · rw [resolve_perm perm]
  · rfl

/-- The accumulators are what the edges and the sites say. -/
theorem buildTally_eq :
    buildTally platform unicode scope parsedFiles symbols =
      { edges := (parsedFiles.flatMap (·.callSites)).filterMap
          (siteEdge platform unicode scope parsedFiles symbols)
        ambiguous := ((parsedFiles.flatMap (·.callSites)).filterMap
          (siteEdge platform unicode scope parsedFiles symbols)).countP
            (·.resolutionType = .ambiguous)
        unresolved := ((parsedFiles.flatMap (·.callSites)).filterMap
          (siteEdge platform unicode scope parsedFiles symbols)).countP
            (·.resolutionType = .unresolved)
        exact := ((parsedFiles.flatMap (·.callSites)).filterMap
          (siteEdge platform unicode scope parsedFiles symbols)).countP isExactRecord
        skipped := (parsedFiles.flatMap (·.callSites)).countP fun site =>
          (siteEdge platform unicode scope parsedFiles symbols site).isNone } := by
  obtain ⟨edges, skipped⟩ := @foldl_tallySite_edges platform unicode scope parsedFiles symbols
    (parsedFiles.flatMap (·.callSites)) {}
  obtain ⟨tallied, -⟩ := @foldl_tallySite platform unicode scope parsedFiles symbols
    (parsedFiles.flatMap (·.callSites)) {} ⟨rfl, rfl, rfl⟩ (by simp)
  rw [List.nil_append] at edges
  rw [Nat.zero_add] at skipped
  have built : ∀ tally : GraphTally, tally = ⟨tally.edges, tally.ambiguous, tally.unresolved,
      tally.exact, tally.skipped⟩ := fun _ => rfl
  rw [built (buildTally platform unicode scope parsedFiles symbols)]
  unfold buildTally
  rw [tallied.ambiguous, tallied.unresolved, tallied.exact, edges, skipped]

/-- Permuted files and permuted symbols give the same graph. -/
theorem graph_order_independent (maxTotalCallSites : Nat)
    (distinct : (parsedFiles.map (·.filePath)).Nodup) (own : OwnSites parsedFiles)
    (files : parsedFiles.Perm permutedFiles) (perm : symbols.Perm permuted) :
    buildCallGraph platform unicode maxTotalCallSites scope parsedFiles symbols =
      buildCallGraph platform unicode maxTotalCallSites scope permutedFiles permuted := by
  have sites := files.flatMap_right (·.callSites)
  have drawn : siteEdge platform unicode scope permutedFiles permuted =
      siteEdge platform unicode scope parsedFiles symbols :=
    funext fun site => (siteEdge_perm distinct files perm site).symm
  have edges := sites.filterMap (siteEdge platform unicode scope parsedFiles symbols)
  have ordered : sortRecords ((parsedFiles.flatMap (·.callSites)).filterMap
        (siteEdge platform unicode scope parsedFiles symbols)) =
      sortRecords ((permutedFiles.flatMap (·.callSites)).filterMap
        (siteEdge platform unicode scope parsedFiles symbols)) := by
    rw [List.filterMap_flatMap, List.filterMap_flatMap]
    apply @sortOn_blocks_perm _ _ _ _ _ _ codePointKey CallEdgeRecord.filePath _ _ _ _ ?_ ?_
      distinct files
    · intro left right same
      exact congrArg (fun key => (ofLex key).1) same
    · intro parsed member edge gathered
      obtain ⟨site, inside, given⟩ := List.mem_filterMap.mp gathered
      obtain ⟨caller, located, -, -, rfl⟩ := siteEdge_some.mp given
      exact own parsed member site inside
  unfold buildCallGraph
  rw [sites.length_eq]
  split
  · rfl
  · simp only [buildTally_eq, drawn, ordered, edges.countP_eq, sites.countP_eq]

end Graphs

namespace ReceiverSamples

/-- The plain functions in a file of their own. -/
def elsewhere : ParsedSource :=
  { functions with file := { functions.file with filePath := "n.py", moduleName := "n" } }

end ReceiverSamples

open ReceiverSamples in
theorem two_files_reordered :
    buildCallGraph platform unicode limits.maxTotalCallSites scope
        (parsedFilesOf limits platform [methods, elsewhere])
        (recordsOf limits platform [methods, elsewhere]) =
      buildCallGraph platform unicode limits.maxTotalCallSites scope
        (parsedFilesOf limits platform [elsewhere, methods])
        (recordsOf limits platform [methods, elsewhere]).reverse :=
  graph_order_independent limits.maxTotalCallSites (by decide +kernel)
    (ownSites_parsed limits platform [methods, elsewhere]) (.swap _ _ [])
    (List.reverse_perm _).symm

end Codenaut.Indexing
