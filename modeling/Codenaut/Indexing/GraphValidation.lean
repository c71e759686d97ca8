import Codenaut.Indexing.Analyzer
import Codenaut.Indexing.IdentifierText
import Codenaut.Services.IndexingJobs.BuildsProperties

/-!
# Validation of the stored call graph

The analyzer fingerprints the edges in code-point order; `validate_graph` reads
the stored rows in the order of the database's collation. The two agree exactly
when the collation orders the edges as their code points do.
-/

set_option autoImplicit false

namespace Codenaut.Indexing

open Codenaut.Core Codenaut.Db Codenaut.Relational Codenaut.Services Codenaut.Text

/-! ## The database's order -/

/-- The text order of the database is total. -/
structure Collation (textLe : String → String → Bool) : Prop where
  total : ∀ left right, textLe left right = true ∨ textLe right left = true
  trans : ∀ first second third, textLe first second = true → textLe second third = true →
    textLe first third = true
  antisymm : ∀ left right, textLe left right = true → textLe right left = true → left = right

def textBefore (platform : Platform) (left right : String) : Prop :=
  platform.textLe left right = true ∧ platform.textLe right left = false

section Order

variable {platform : Platform}

theorem textStep_iff (collation : Collation platform.textLe) (left right : String) (rest : Bool) :
    (if platform.textLe left right && !platform.textLe right left then true
      else if platform.textLe right left && !platform.textLe left right then false
      else rest) = true ↔ textBefore platform left right ∨ left = right ∧ rest = true := by
  have total := collation.total left right
  have antisymm := collation.antisymm left right
  unfold textBefore
  grind

theorem numberStep_iff (left right : Nat) (rest : Bool) :
    (if left ≠ right then decide (left ≤ right) else rest) = true ↔
      left < right ∨ left = right ∧ rest = true := by
  split
  · rw [decide_eq_true_iff]
    omega
  · simp_all

theorem edgeLe_iff (collation : Collation platform.textLe) (left right : CallEdge) :
    edgeLe platform left right = true ↔
      textBefore platform left.filePath right.filePath ∨ left.filePath = right.filePath ∧
      (left.callLine < right.callLine ∨ left.callLine = right.callLine ∧
      (left.callEndLine < right.callEndLine ∨ left.callEndLine = right.callEndLine ∧
      (left.callerSymbolId < right.callerSymbolId ∨
        left.callerSymbolId = right.callerSymbolId ∧
      (textBefore platform left.callExpression right.callExpression ∨
        left.callExpression = right.callExpression ∧
      platform.textLe left.callSiteFingerprint right.callSiteFingerprint = true)))) := by
  unfold edgeLe
  simp only [textStep_iff collation, numberStep_iff]

theorem edgeLe_refl (collation : Collation platform.textLe) (edge : CallEdge) :
    edgeLe platform edge edge = true := by
  have reflexive : ∀ text, platform.textLe text text = true := by
    intro text
    exact (collation.total text text).elim id id
  simp [edgeLe, reflexive]

theorem edgeLe_antisymm (collation : Collation platform.textLe) {left right : CallEdge}
    (forward : edgeLe platform left right = true) (backward : edgeLe platform right left = true) :
    left.callSiteFingerprint = right.callSiteFingerprint := by
  have antisymm := collation.antisymm
  unfold edgeLe at forward backward
  grind

theorem edgeLe_total (collation : Collation platform.textLe) (left right : CallEdge) :
    edgeLe platform left right = true ∨ edgeLe platform right left = true := by
  have total := collation.total
  unfold edgeLe
  grind

theorem textBefore_trans (collation : Collation platform.textLe) (first second third : String)
    (forward : textBefore platform first second) (onward : textBefore platform second third) :
    textBefore platform first third := by
  have total := collation.total
  have trans := collation.trans
  unfold textBefore at *
  grind

theorem edgeLe_trans (collation : Collation platform.textLe) {first second third : CallEdge}
    (forward : edgeLe platform first second = true) (onward : edgeLe platform second third = true) :
    edgeLe platform first third = true := by
  have texts := textBefore_trans collation
  have numbers : ∀ first second third : Nat, first < second → second < third → first < third :=
    fun _ _ _ => Nat.lt_trans
  rw [edgeLe_iff collation] at *
  exact lexicographic_trans texts (lexicographic_trans numbers (lexicographic_trans numbers
    (lexicographic_trans numbers (lexicographic_trans texts (collation.trans _ _ _))))) forward
      onward

/-- An answer of the database to the query of `validate_graph`: the stored rows
in the order asked for, those that tie in any order. -/
structure ReadInOrder (platform : Platform) (stored rows : List CallEdge) : Prop where
  perm : rows.Perm stored
  sorted : rows.Pairwise fun left right => edgeLe platform left right = true

theorem orderEdges_readInOrder (collation : Collation platform.textLe) (stored : List CallEdge) :
    ReadInOrder platform stored (orderEdges platform stored) where
  perm := List.perm_insertionSort _ stored
  sorted := by
    have total : Std.Total fun left right => edgeLe platform left right = true :=
      ⟨edgeLe_total collation⟩
    have trans : IsTrans CallEdge fun left right => edgeLe platform left right = true :=
      ⟨fun _ _ _ => edgeLe_trans collation⟩
    exact List.pairwise_insertionSort _ _

end Order

/-! ## The built graph -/

/-- The edge counts as an exact one. -/
def isExactRecord (edge : CallEdgeRecord) : Bool :=
  edge.calleeSymbolId.isSome && edge.resolutionType ≠ .probableMethod

/-- The counters say what the edges gathered so far say. -/
structure Tallied (tally : GraphTally) : Prop where
  exact : tally.exact = tally.edges.countP isExactRecord
  ambiguous : tally.ambiguous = tally.edges.countP (·.resolutionType = .ambiguous)
  unresolved : tally.unresolved = tally.edges.countP (·.resolutionType = .unresolved)

/-- The identifiers of an edge are digests. -/
structure Digested (platform : Platform) (edge : CallEdgeRecord) : Prop where
  id : ∃ text, edge.id = platform.uuid5 edgeNamespace text
  site : ∃ text, edge.callSiteFingerprint = platform.sha256Hex text

section Tally

variable {platform : Platform} {unicode : UnicodeTables} {scope : GraphScope}
  {parsedFiles : List ParsedFile} {symbols : List SymbolRecord}

/-- A turn gathers one edge, whose resolution the counters take in, or none. -/
theorem tallySite_cases (tally : GraphTally) (site : ParsedCallSite) :
    (∃ caller resolution,
      tallySite platform unicode scope parsedFiles symbols tally site =
        { tally with
          ambiguous := tally.ambiguous + (decide (resolution.kind = .ambiguous)).toNat
          unresolved := tally.unresolved + (decide (resolution.kind = .unresolved)).toNat
          exact := tally.exact +
            (resolution.callee.isSome && resolution.kind ≠ .probableMethod).toNat
          edges := tally.edges ++ [edgeRecord platform scope site caller resolution] }) ∨
    tallySite platform unicode scope parsedFiles symbols tally site =
      { tally with skipped := tally.skipped + 1 } := by
  unfold tallySite
  split
  case h_1 caller parsed _ _ => exact .inl ⟨caller, _, rfl⟩
  case h_2 => exact .inr rfl

theorem tallySite_tallied {tally : GraphTally} (site : ParsedCallSite) (tallied : Tallied tally) :
    Tallied (tallySite platform unicode scope parsedFiles symbols tally site) := by
  rcases @tallySite_cases platform unicode scope parsedFiles symbols tally site with
    ⟨caller, resolution, stepped⟩ | stepped
  · rw [stepped]
    constructor
    · simp [tallied.exact, isExactRecord, edgeRecord, List.countP_cons, Bool.toNat]
    · simp [tallied.ambiguous, edgeRecord, List.countP_cons, Bool.toNat]
    · simp [tallied.unresolved, edgeRecord, List.countP_cons, Bool.toNat]
  · rw [stepped]
    exact ⟨tallied.exact, tallied.ambiguous, tallied.unresolved⟩

theorem tallySite_digested {tally : GraphTally} (site : ParsedCallSite)
    (digested : ∀ edge ∈ tally.edges, Digested platform edge) :
    ∀ edge ∈ (tallySite platform unicode scope parsedFiles symbols tally site).edges,
      Digested platform edge := by
  rcases @tallySite_cases platform unicode scope parsedFiles symbols tally site with
    ⟨caller, resolution, stepped⟩ | stepped
  · rw [stepped]
    intro edge member
    rcases List.mem_append.mp member with earlier | added
    · exact digested edge earlier
    · rw [List.mem_singleton.mp added]
      exact ⟨⟨_, rfl⟩, ⟨_, rfl⟩⟩
  · rw [stepped]
    exact digested

theorem foldl_tallySite (sites : List ParsedCallSite) {tally : GraphTally}
    (tallied : Tallied tally) (digested : ∀ edge ∈ tally.edges, Digested platform edge) :
    Tallied (sites.foldl (tallySite platform unicode scope parsedFiles symbols) tally) ∧
      ∀ edge ∈ (sites.foldl (tallySite platform unicode scope parsedFiles symbols) tally).edges,
        Digested platform edge := by
  induction sites generalizing tally with
  | nil => exact ⟨tallied, digested⟩
  | cons site sites ih => exact ih (tallySite_tallied site tallied) (tallySite_digested site digested)

/-- What the graph says of its own edges. -/
structure GraphCounted (platform : Platform) (graph : CallGraph) : Prop where
  sites : graph.callSiteCount = graph.edges.length
  exact : graph.exactEdgeCount = graph.edges.countP isExactRecord
  ambiguous : graph.ambiguousEdgeCount = graph.edges.countP (·.resolutionType = .ambiguous)
  unresolved : graph.unresolvedCallCount = graph.edges.countP (·.resolutionType = .unresolved)
  fingerprint : graph.fingerprint = recordsFingerprint platform graph.edges
  sorted : graph.edges.Pairwise fun left right => codePointKey left ≤ codePointKey right
  digested : ∀ edge ∈ graph.edges, Digested platform edge

theorem buildCallGraph_counted {maxTotalCallSites : Nat} {graph : CallGraph}
    (built : buildCallGraph platform unicode maxTotalCallSites scope parsedFiles symbols =
      .ok graph) : GraphCounted platform graph := by
  unfold buildCallGraph at built
  split at built
  · cases built
  · cases built
    obtain ⟨tallied, digested⟩ := @foldl_tallySite platform unicode scope parsedFiles symbols
      (parsedFiles.flatMap (·.callSites)) {} ⟨rfl, rfl, rfl⟩ (by simp)
    have perm := sortOn_perm codePointKey
      (buildTally platform unicode scope parsedFiles symbols).edges
    constructor
    · rfl
    · exact tallied.exact.trans (perm.countP_eq _).symm
    · exact tallied.ambiguous.trans (perm.countP_eq _).symm
    · exact tallied.unresolved.trans (perm.countP_eq _).symm
    · rfl
    · exact sortOn_pairwise _ _
    · exact fun edge member => digested edge (mem_sortOn.mp member)

end Tally

/-- The analysis result carries the counts, the fingerprint and the edges of a
graph that the builder made. -/
theorem analyze_graph {limits : ParserLimits} {tools : AnalysisTools} {discovery : DiscoveryResult}
    {scope : GraphScope} {processing : ProcessingResult}
    (analyzed : RepositoryAnalyzer.analyze limits tools discovery scope = .ok processing) :
    GraphCounted tools.platform
      { edges := processing.callEdges
        callSiteCount := processing.callSiteCount
        exactEdgeCount := processing.exactEdgeCount
        ambiguousEdgeCount := processing.ambiguousEdgeCount
        unresolvedCallCount := processing.unresolvedCallCount
        warningCount := processing.graphWarningCount
        fingerprint := processing.graphFingerprint } := by
  unfold RepositoryAnalyzer.analyze at analyzed
  split at analyzed
  · cases analyzed
  · unfold analyzeScan at analyzed
    split at analyzed
    · cases analyzed
    · dsimp only at analyzed
      split at analyzed
      · cases analyzed
      · split at analyzed
        · cases analyzed
        case h_2 graph built =>
          cases analyzed
          exact buildCallGraph_counted built

/-! ## Fingerprints -/

/-- What the digests of the standard library promise of their results. -/
structure DigestLaws (platform : Platform) : Prop where
  uuid : ∀ uuidNamespace text, IsUuid (platform.uuid5 uuidNamespace text)
  hexadecimal : ∀ text, ∀ char ∈ (platform.sha256Hex text).toList,
    char ∈ "0123456789abcdef".toList

/-- SHA-256 does not collide on two orders of the edges. -/
def SeparatesOrders (platform : Platform) (edges : List CallEdgeRecord) : Prop :=
  ∀ order, order.Perm edges →
    recordsFingerprint platform order = recordsFingerprint platform edges →
    joinText '\n' (order.map recordLine) = joinText '\n' (edges.map recordLine)

section Lines

variable {platform : Platform}

theorem not_mem_joinText {char separator : Char} {pieces : List String}
    (apart : char ≠ separator) (free : ∀ piece ∈ pieces, char ∉ piece.toList) :
    char ∉ (joinText separator pieces).toList := by
  intro member
  rw [joinText, String.toList_intercalate, String.toList_singleton] at member
  induction pieces with
  | nil => cases member
  | cons piece rest ih =>
      have head := free piece List.mem_cons_self
      cases rest with
      | nil =>
          simp only [List.map_cons, List.map_nil, List.intercalate_singleton] at member
          exact head member
      | cons next tail =>
          rw [List.map_cons, List.map_cons, List.intercalate_cons_cons, ← List.map_cons] at member
          simp only [List.append_assoc, List.mem_append, List.mem_singleton] at member
          rcases member with first | same | later
          · exact head first
          · exact apart same
          · exact ih (fun piece member => free piece (.tail _ member)) later

/-- The lines of a fingerprint contain no line break. -/
theorem not_mem_recordLine (laws : DigestLaws platform) {edge : CallEdgeRecord}
    (digested : Digested platform edge) : '\n' ∉ (recordLine edge).toList := by
  obtain ⟨text, site⟩ := digested.site
  have uuids : ∀ uuid, '\n' ∉ (uuidText uuid).toList :=
    fun uuid => not_mem_uuidText (by decide) uuid
  have fingerprint : '\n' ∉ edge.callSiteFingerprint.toList := by
    intro member
    have listed := laws.hexadecimal text _ (site ▸ member)
    exact absurd listed (by decide)
  apply not_mem_joinText (by decide)
  intro piece member
  simp only [List.mem_cons, List.not_mem_nil, or_false] at member
  rcases member with rfl | rfl | rfl | rfl | rfl | rfl
  · exact uuids _
  · exact uuids _
  · cases edge.calleeSymbolId with
    | none => decide
    | some callee => exact uuids callee
  · exact fingerprint
  · cases edge.resolutionType <;> decide
  · cases edge.confidence <;> decide

/-- A line starts with the identifier of its edge. -/
theorem recordLine_id (laws : DigestLaws platform) {left right : CallEdgeRecord}
    (leftDigested : Digested platform left) (rightDigested : Digested platform right)
    (same : recordLine left = recordLine right) : left.id = right.id := by
  obtain ⟨leftText, leftId⟩ := leftDigested.id
  obtain ⟨rightText, rightId⟩ := rightDigested.id
  have free : ∀ uuid, '\x1f' ∉ (uuidText uuid).toList :=
    fun uuid => not_mem_uuidText (by decide) uuid
  have lists := congrArg String.toList same
  simp only [recordLine, joinText, String.toList_intercalate, String.toList_singleton,
    List.map_cons, List.map_nil, List.intercalate_cons_cons, List.append_assoc,
    List.singleton_append] at lists
  have heads := (cut_first (free left.id) (free right.id) lists).1
  exact (uuidText_inj (leftId ▸ laws.uuid _ _) (rightId ▸ laws.uuid _ _)).mp
    (String.toList_inj.mp heads)

theorem records_eq_of_fingerprint (laws : DigestLaws platform)
    {edges order : List CallEdgeRecord} (separates : SeparatesOrders platform edges)
    (digested : ∀ edge ∈ edges, Digested platform edge) (distinct : (edges.map (·.id)).Nodup)
    (perm : order.Perm edges)
    (same : recordsFingerprint platform order = recordsFingerprint platform edges) :
    order = edges := by
  have texts := separates order perm same
  by_cases empty : edges = []
  · rw [empty] at perm ⊢
    exact perm.eq_nil
  · have orderSome : order ≠ [] := by
      intro none
      rw [none] at perm
      exact empty perm.symm.eq_nil
    have member : ∀ edge ∈ order, edge ∈ edges := fun edge => perm.mem_iff.mp
    have lines : ∀ rows : List CallEdgeRecord, (∀ edge ∈ rows, edge ∈ edges) →
        ∀ line ∈ rows.map recordLine, '\n' ∉ line.toList := by
      intro rows inside line lineMember
      obtain ⟨edge, edgeMember, rfl⟩ := List.mem_map.mp lineMember
      exact not_mem_recordLine laws (digested edge (inside edge edgeMember))
    have sameLines := intercalate_injective (lines order member) (lines edges fun _ => id)
      (by simpa using orderSome) (by simpa using empty) texts
    apply eq_of_map_eq _ sameLines
    intro left leftMember right rightMember equal
    exact List.inj_on_of_nodup_map distinct (member left leftMember) rightMember
      (recordLine_id laws (digested left (member left leftMember)) (digested right rightMember)
        equal)

end Lines

/-! ## Rows read back -/

/-- The stored columns of an edge, as the analyzer's record. -/
def storedRecord (row : CallEdge) : CallEdgeRecord where
  id := row.id
  callerSymbolId := row.callerSymbolId
  calleeSymbolId := row.calleeSymbolId
  unresolvedCalleeName := row.unresolvedCalleeName
  filePath := row.filePath
  callLine := row.callLine
  callEndLine := row.callEndLine
  callExpression := row.callExpression
  callSiteFingerprint := row.callSiteFingerprint
  resolutionType := row.resolutionType
  confidence := row.confidence
  commitSha := row.commitSha

/-- The collation orders the edges as their code points do. -/
def CollationAgrees (platform : Platform) (repositoryId : RepositoryId)
    (processing : ProcessingResult) : Prop :=
  ∀ left ∈ processing.callEdges, ∀ right ∈ processing.callEdges,
    edgeLe platform (edgeRow repositoryId processing.indexVersion left)
        (edgeRow repositoryId processing.indexVersion right) = true ↔
      codePointKey left ≤ codePointKey right

section Stored

variable {platform : Platform} {repositoryId : RepositoryId} {version : Nat}

theorem storedRecord_edgeRow (edge : CallEdgeRecord) :
    storedRecord (edgeRow repositoryId version edge) = edge := rfl

/-- The rows read are the rows of some order of the records. -/
theorem rows_of_perm {edges : List CallEdgeRecord} {rows : List CallEdge}
    (perm : rows.Perm (edges.map (edgeRow repositoryId version))) :
    ∃ order : List CallEdgeRecord,
      order.Perm edges ∧ rows = order.map (edgeRow repositoryId version) := by
  have records := perm.map storedRecord
  have restored : (edges.map (edgeRow repositoryId version)).map storedRecord = edges := by
    rw [List.map_map]
    exact List.map_id'' storedRecord_edgeRow edges
  rw [restored] at records
  refine ⟨rows.map storedRecord, records, ?_⟩
  rw [List.map_map]
  have same : rows.map (edgeRow repositoryId version ∘ storedRecord) = rows.map id := by
    apply List.map_congr_left
    intro row member
    obtain ⟨edge, _, rfl⟩ := List.mem_map.mp (perm.mem_iff.mp member)
    rfl
  rw [same, List.map_id]

theorem graphMatches_rows {build : RepositoryIndexBuild} {graph : CallGraph}
    {order : List CallEdgeRecord} (counted : GraphCounted platform graph)
    (perm : order.Perm graph.edges) (sites : build.callSiteCount = graph.callSiteCount)
    (exact : build.exactEdgeCount = graph.exactEdgeCount)
    (ambiguous : build.ambiguousEdgeCount = graph.ambiguousEdgeCount)
    (unresolved : build.unresolvedCallCount = graph.unresolvedCallCount)
    (fingerprint : build.graphFingerprint = some graph.fingerprint) :
    graphMatches platform build (order.map (edgeRow repositoryId version)) = true ↔
      recordsFingerprint platform order = recordsFingerprint platform graph.edges := by
  have exactRows : exactCount (order.map (edgeRow repositoryId version)) =
      build.exactEdgeCount := by
    rw [exact, counted.exact, ← perm.countP_eq, exactCount, List.countP_map]
    rfl
  have ambiguousRows : ambiguousCount (order.map (edgeRow repositoryId version)) =
      build.ambiguousEdgeCount := by
    rw [ambiguous, counted.ambiguous, ← perm.countP_eq, ambiguousCount, List.countP_map]
    rfl
  have unresolvedRows : unresolvedCount (order.map (edgeRow repositoryId version)) =
      build.unresolvedCallCount := by
    rw [unresolved, counted.unresolved, ← perm.countP_eq, unresolvedCount, List.countP_map]
    rfl
  have siteRows : (order.map (edgeRow repositoryId version)).length = build.callSiteCount := by
    rw [sites, counted.sites, List.length_map, perm.length_eq]
  have fingerprintRows : graphFingerprint platform (order.map (edgeRow repositoryId version)) =
      recordsFingerprint platform order := by
    rw [graphFingerprint, List.map_map]
    rfl
  simp [graphMatches, exactRows, ambiguousRows, unresolvedRows, siteRows, fingerprintRows,
    fingerprint, counted.fingerprint]

/-- The schema admits no two edges of one version with one identifier, or with
one call site. -/
theorem distinct_of_accepted {db : Database} {symbols : List SymbolDefinition}
    {edges : List CallEdgeRecord}
    (accepted : graphInsertAccepted db symbols (edges.map (edgeRow repositoryId version)) = true) :
    (edges.map (·.id)).Nodup ∧ (edges.map (·.callSiteFingerprint)).Nodup := by
  simp only [graphInsertAccepted, Bool.and_eq_true, decide_eq_true_eq, List.map_append,
    List.map_map] at accepted
  obtain ⟨⟨⟨_, ids⟩, sites⟩, _⟩ := accepted
  constructor
  · exact (List.nodup_append.mp ids).2.1
  · have own := (List.nodup_append.mp sites).2.1
    have factored : edges.map (fun edge => (repositoryId, version, edge.callSiteFingerprint)) =
        (edges.map (·.callSiteFingerprint)).map fun site => (repositoryId, version, site) := by
      rw [List.map_map]
      rfl
    exact List.Nodup.of_map _ (factored ▸ own)

theorem edgeLe_orders (collation : Collation platform.textLe) {edges : List CallEdgeRecord}
    (distinct : (edges.map (·.callSiteFingerprint)).Nodup) :
    OrdersRows (fun left right => edgeLe platform (edgeRow repositoryId version left)
      (edgeRow repositoryId version right) = true) edges where
  refl := fun edge _ => edgeLe_refl collation (edgeRow repositoryId version edge)
  antisymm := by
    intro left leftMember right rightMember forward backward
    exact List.inj_on_of_nodup_map distinct leftMember rightMember
      (edgeLe_antisymm collation forward backward)

theorem codePoint_orders {edges : List CallEdgeRecord}
    (distinct : (edges.map (·.callSiteFingerprint)).Nodup) :
    OrdersRows (fun left right : CallEdgeRecord => codePointKey left ≤ codePointKey right)
      edges where
  refl := fun edge _ => le_refl (codePointKey edge)
  antisymm := by
    intro left leftMember right rightMember forward backward
    have same := le_antisymm forward backward
    simp only [codePointKey, toLex_inj, Prod.mk.injEq] at same
    exact List.inj_on_of_nodup_map distinct leftMember rightMember same.2.2.2.2.2

end Stored

/-- The rows and the build that `validate_graph` finds after `prepare_build`. -/
theorem prepared_rows {settings : Settings} {platform : Platform} {db stored : Database}
    {claimed : ClaimedJob} {workerId : WorkerId} {commitSha : CommitSha}
    {discovery : DiscoveryResult} {processing : ProcessingResult} {fingerprint : String}
    {build : RepositoryIndexBuild} (owned : db.EdgesOwned)
    (claims : ∀ job, db.indexingJobs.find? (heldBy claimed workerId) = some job →
      job.repositoryId = claimed.repositoryId)
    (prepared : prepareBuild settings platform db claimed workerId commitSha discovery processing
      fingerprint = .ok stored)
    (found : stored.build? claimed.repositoryId processing.indexVersion = some build) :
    PreparedFor settings claimed claimed.repositoryId commitSha processing fingerprint build ∧
      (stored.edgesAt claimed.repositoryId processing.indexVersion).filter
          (·.commitSha == build.commitSha) =
        processing.callEdges.map (edgeRow claimed.repositoryId processing.indexVersion) ∧
      (processing.callEdges.map (·.id)).Nodup ∧
      (processing.callEdges.map (·.callSiteFingerprint)).Nodup := by
  obtain ⟨job, repository, guards, rfl⟩ := prepareBuild_ok prepared
  have here : repository.id = claimed.repositoryId :=
    guards.repository_id.trans (claims job guards.found)
  have accepted := guards.accepted
  rw [here] at accepted found
  have row : build = preparedBuild settings db claimed claimed.repositoryId commitSha processing
      fingerprint := by
    have read := storeBuild_build? settings db claimed claimed.repositoryId commitSha processing
      fingerprint claimed.repositoryId processing.indexVersion
    rw [if_pos ⟨rfl, rfl⟩] at read
    exact Option.some.inj (found.symm.trans read)
  have spec : PreparedFor settings claimed claimed.repositoryId commitSha processing fingerprint
      build := row ▸ preparedBuild_spec settings db claimed claimed.repositoryId commitSha
        processing fingerprint
  refine ⟨spec, ?_, distinct_of_accepted accepted⟩
  rw [here, preparedDatabase_edgesAt owned, if_pos ⟨rfl, rfl⟩]
  apply List.filter_eq_self.mpr
  intro edge member
  obtain ⟨record, recordMember, rfl⟩ := List.mem_map.mp member
  have stamped := processing.edgesStamped record recordMember
  simp [edgeRow, stamped, spec.commitSha, guards.commitMatches]

/-- The graph read back is the graph that was built, for any total order of the
database's texts and any order of its ties, exactly when the collation orders
the edges by code points. -/
theorem validation_iff_collationAgrees {limits : ParserLimits} {tools : AnalysisTools}
    {discovery : DiscoveryResult} {scope : GraphScope} {settings : Settings}
    {db stored : Database} {claimed : ClaimedJob} {workerId : WorkerId}
    {processing : ProcessingResult} {fingerprint : String} {build : RepositoryIndexBuild}
    {rows : List CallEdge}
    (collation : Collation tools.platform.textLe) (laws : DigestLaws tools.platform)
    (separates : SeparatesOrders tools.platform processing.callEdges)
    (owned : db.EdgesOwned)
    (claims : ∀ job, db.indexingJobs.find? (heldBy claimed workerId) = some job →
      job.repositoryId = claimed.repositoryId)
    (analyzed : RepositoryAnalyzer.analyze limits tools discovery scope = .ok processing)
    (prepared : prepareBuild settings tools.platform db claimed workerId scope.commitSha discovery
      processing fingerprint = .ok stored)
    (found : stored.build? claimed.repositoryId processing.indexVersion = some build)
    (read : ReadInOrder tools.platform
      ((stored.edgesAt claimed.repositoryId processing.indexVersion).filter
        (·.commitSha == build.commitSha)) rows) :
    graphMatches tools.platform build rows = true ↔
      CollationAgrees tools.platform claimed.repositoryId processing := by
  have counted := analyze_graph analyzed
  obtain ⟨spec, storedRows, ids, sites⟩ := prepared_rows owned claims prepared found
  rw [storedRows] at read
  obtain ⟨order, perm, rfl⟩ := rows_of_perm read.perm
  obtain ⟨siteCount, exact, ambiguous, unresolved, digest⟩ := spec.graph
  have matching := @graphMatches_rows _ claimed.repositoryId processing.indexVersion _ _ _ counted
    perm siteCount exact ambiguous unresolved digest
  have fingerprints : recordsFingerprint tools.platform order =
      recordsFingerprint tools.platform processing.callEdges ↔ order = processing.callEdges := by
    constructor
    · exact records_eq_of_fingerprint laws separates counted.digested ids perm
    · exact fun same => same ▸ rfl
  have sorted := List.pairwise_map.mp read.sorted
  exact matching.trans <| fingerprints.trans <|
    sorted_eq_sorted_iff (edgeLe_orders collation sites) (codePoint_orders sites) perm sorted
      counted.sorted

/-! ## Two modules -/

namespace TwoModules

/-- A short digest that tells the texts of this sample apart. -/
def rolling (seed modulus : Nat) : List UInt8 → Nat
  | [] => seed % modulus
  | byte :: rest => (rolling seed modulus rest * 31 + byte.toNat + 1) % modulus

def platform (textLe : String → String → Bool) : Platform where
  sha256Hex := fun text =>
    String.ofList (hexDigits 8 (rolling 0 (16 ^ 8) text.toByteArray.data.toList))
  uuid5 := fun uuidNamespace text =>
    rolling uuidNamespace (16 ^ 32) text.toByteArray.data.toList
  textLe := textLe

/-- The order of a collation that compares letters before their case. -/
def caseInsensitive (left right : String) : Bool :=
  toLex (lower left, left) ≤ toLex (lower right, right)

def codePoints (left right : String) : Bool :=
  left ≤ right

def text : List Char :=
  "def f():\n    f()\n".toList

def leaf (type : String) (fieldName : Option String) (start stop row column : Nat) : NodeInfo where
  type := type
  fieldName := fieldName
  startByte := start
  endByte := stop
  startPoint := ⟨row, column⟩
  endPoint := ⟨row, column + (stop - start)⟩

/-- The tree of a function that calls itself. -/
def tree : Node :=
  let call := Node.node (leaf "call" none 13 16 1 4)
    [.node (leaf "identifier" (some "function") 13 14 1 4) [],
      .node (leaf "argument_list" (some "arguments") 14 16 1 5) []]
  let body := Node.node (leaf "block" (some "body") 13 16 1 4)
    [.node (leaf "expression_statement" none 13 16 1 4) [call]]
  let function := Node.node
    { leaf "function_definition" none 0 16 0 0 with endPoint := ⟨1, 7⟩ }
    [.node (leaf "identifier" (some "name") 4 5 0 4) [],
      .node (leaf "parameters" (some "parameters") 5 7 0 5) [], body]
  .node { leaf "module" none 0 17 0 0 with endPoint := ⟨2, 0⟩ } [function]

def tools (textLe : String → String → Bool) : AnalysisTools where
  platform := platform textLe
  unicode := ⟨fun _ => false, fun _ => false⟩
  treeSitter := fun _ => tree
  readSource := fun _ => .text text

def limits : ParserLimits where
  maxSymbolsPerFile := 10
  maxSymbolBytes := 100
  maxChunkBytes := 100
  maxChunksPerFile := 10
  maxTotalChunks := 10
  maxTotalChunkBytes := 1000
  maxDocumentSectionBytes := 100
  maxWarningsPerFile := 10
  maxCallSitesPerFile := 10
  maxTotalCallSites := 10
  maxCallExpressionBytes := 100

def discovery : DiscoveryResult where
  files := [⟨"a.py", 17⟩, ⟨"B.py", 17⟩]
  totalBytes := 34

def scope : GraphScope := ⟨1, 1, "commit"⟩

def settings : Settings where
  embeddingModelIdentifier := "model"
  embeddingModelRevision := "revision"
  embeddingDimension := 1

def claimed : ClaimedJob := ⟨7, 1, 1⟩

def database : Database where
  indexingJobs := [{
    id := 7
    repositoryId := 1
    jobType := .initialIndex
    status := .running
    lockedBy := some "worker"
    targetIndexVersion := some 1 }]
  repositories := [{
    id := 1
    installationId := some 1
    githubRepositoryId := 11
    githubOwner := "acme"
    githubName := "app"
    githubFullName := "acme/app"
    githubUrl := "https://github.com/acme/app"
    isPrivate := true
    defaultBranch := "main" }]

/-- The analysis, the stored database and the build that is validated. -/
structure Outcome where
  processing : ProcessingResult
  stored : Database
  build : RepositoryIndexBuild

def outcome (textLe : String → String → Bool) : Option Outcome :=
  match RepositoryAnalyzer.analyze limits (tools textLe) discovery scope with
  | .error _ => none
  | .ok processing =>
      match prepareBuild settings (platform textLe) database claimed "worker" "commit" discovery
          processing "policy" with
      | .error _ => none
      | .ok stored => (stored.build? 1 processing.indexVersion).map (⟨processing, stored, ·⟩)

/-- The rows of the version as the model reads them. -/
def Outcome.rows (textLe : String → String → Bool) (outcome : Outcome) : List CallEdge :=
  validatedEdges (platform textLe) outcome.stored 1 outcome.processing.indexVersion
    outcome.build.commitSha

/-- There are two edges, and swapping them changes the fingerprint. -/
def Outcome.separated (textLe : String → String → Bool) (outcome : Outcome) : Bool :=
  match outcome.processing.callEdges with
  | [first, second] => recordsFingerprint (platform textLe) [second, first] !=
      recordsFingerprint (platform textLe) [first, second]
  | _ => false

def Outcome.agrees (textLe : String → String → Bool) (outcome : Outcome) : Bool :=
  outcome.processing.callEdges.all fun left => outcome.processing.callEdges.all fun right =>
    edgeLe (platform textLe) (edgeRow 1 outcome.processing.indexVersion left)
      (edgeRow 1 outcome.processing.indexVersion right) ==
        decide (codePointKey left ≤ codePointKey right)

theorem outcome_some {textLe : String → String → Bool} {result : Outcome}
    (computed : outcome textLe = some result) :
    RepositoryAnalyzer.analyze limits (tools textLe) discovery scope = .ok result.processing ∧
      prepareBuild settings (platform textLe) database claimed "worker" "commit" discovery
        result.processing "policy" = .ok result.stored ∧
      result.stored.build? 1 result.processing.indexVersion = some result.build := by
  unfold outcome at computed
  split at computed
  · cases computed
  case h_2 processing analyzed =>
    split at computed
    · cases computed
    case h_2 stored prepared =>
      obtain ⟨build, found, rfl⟩ := Option.map_eq_some_iff.mp computed
      exact ⟨analyzed, prepared, found⟩

theorem separates_of_separated {textLe : String → String → Bool} {result : Outcome}
    (separated : result.separated textLe = true) :
    SeparatesOrders (platform textLe) result.processing.callEdges := by
  unfold Outcome.separated at separated
  split at separated
  case h_1 first second edges =>
    rw [edges]
    intro order perm same
    rcases perm_pair perm with rfl | rfl
    · rfl
    · exact absurd same (bne_iff_ne.mp separated)
  · cases separated

theorem Outcome.rows_readInOrder {textLe : String → String → Bool} (collation : Collation textLe)
    (result : Outcome) : ReadInOrder (platform textLe)
      ((result.stored.edgesAt 1 result.processing.indexVersion).filter
        (·.commitSha == result.build.commitSha)) (result.rows textLe) :=
  @orderEdges_readInOrder (platform textLe) collation _

theorem collation_of_key {κ : Type} [LinearOrder κ] {key : String → κ}
    (injective : Function.Injective key) :
    Collation fun left right => decide (key left ≤ key right) where
  total := by
    intro left right
    simpa using le_total (key left) (key right)
  trans := by
    intro first second third forward onward
    simp only [decide_eq_true_eq] at *
    exact le_trans forward onward
  antisymm := by
    intro left right forward backward
    simp only [decide_eq_true_eq] at *
    exact injective (le_antisymm forward backward)

theorem codePoints_collation : Collation codePoints :=
  @collation_of_key _ _ id Function.injective_id

theorem caseInsensitive_collation : Collation caseInsensitive := by
  apply @collation_of_key _ _ fun text : String => toLex (lower text, text)
  intro left right same
  exact (Prod.mk.inj (toLex_inj.mp same)).2

theorem platform_laws (textLe : String → String → Bool) : DigestLaws (platform textLe) where
  uuid := by
    intro uuidNamespace text
    unfold IsUuid platform
    dsimp only
    generalize text.toByteArray.data.toList = bytes
    cases bytes with
    | nil => exact Nat.mod_lt _ (by decide)
    | cons byte rest => exact Nat.mod_lt _ (by decide)
  hexadecimal := by
    intro text char member
    simp only [platform, String.toList_ofList] at member
    exact mem_hexDigits member

end TwoModules

open TwoModules in
/-- Under code points the two edges are read back as they were sorted. -/
theorem codePoint_graph_validated : ∃ result, outcome codePoints = some result ∧
    graphMatches (platform codePoints) result.build (result.rows codePoints) = true := by
  have checked : (outcome codePoints).any fun result =>
      result.separated codePoints && result.agrees codePoints := by decide +kernel
  obtain ⟨result, computed, conditions⟩ := (Option.any_eq_true _ _).mp checked
  obtain ⟨analyzed, prepared, found⟩ := outcome_some computed
  simp only [Bool.and_eq_true, Outcome.agrees, List.all_eq_true, beq_iff_eq] at conditions
  have claims : ∀ job, database.indexingJobs.find? (heldBy claimed "worker") = some job →
      job.repositoryId = claimed.repositoryId := by
    intro job held
    rw [List.mem_singleton.mp (List.mem_of_find?_eq_some held)]
    rfl
  have owned : database.EdgesOwned := by
    intro edge member
    cases member
  refine ⟨result, computed, ?_⟩
  apply (@validation_iff_collationAgrees limits (tools codePoints) discovery scope settings
    database result.stored claimed "worker" result.processing "policy" result.build
    (result.rows codePoints) codePoints_collation (platform_laws codePoints)
    (separates_of_separated conditions.1) owned claims analyzed prepared found
    (result.rows_readInOrder codePoints_collation)).mpr
  intro left leftMember right rightMember
  rw [← decide_eq_true_iff (p := codePointKey left ≤ codePointKey right)]
  exact Bool.eq_iff_iff.mp (conditions.2 left leftMember right rightMember)

open TwoModules in
/-- A collation that puts `a.py` before `B.py` is total, and the stored graph of
the two modules fails validation under it. -/
theorem mixedCase_graph_rejected : Collation caseInsensitive ∧
    ∃ processing stored build rows,
      RepositoryAnalyzer.analyze limits (tools caseInsensitive) discovery scope = .ok processing ∧
      prepareBuild settings (platform caseInsensitive) database claimed "worker" "commit" discovery
        processing "policy" = .ok stored ∧
      stored.build? 1 processing.indexVersion = some build ∧
      ReadInOrder (platform caseInsensitive)
        ((stored.edgesAt 1 processing.indexVersion).filter (·.commitSha == build.commitSha))
        rows ∧
      graphMatches (platform caseInsensitive) build rows = false := by
  have checked : (outcome caseInsensitive).any fun result =>
      !graphMatches (platform caseInsensitive) result.build (result.rows caseInsensitive) := by
    decide +kernel
  obtain ⟨result, computed, rejected⟩ := (Option.any_eq_true _ _).mp checked
  obtain ⟨analyzed, prepared, found⟩ := outcome_some computed
  exact ⟨caseInsensitive_collation, result.processing, result.stored, result.build,
    result.rows caseInsensitive, analyzed, prepared, found,
    result.rows_readInOrder caseInsensitive_collation, by simpa using rejected⟩

end Codenaut.Indexing
