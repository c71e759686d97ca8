import Codenaut.ActiveIndex.BuildTable

/-!
# Transactions refine the staged-version steps

Seen through the index of one repository, every transaction is one step of the
versioned store: preparation stages a version, validation, counting and
readiness revise it, activation switches to it, and cleanup discards or clears.
-/

set_option autoImplicit false

namespace Codenaut.ActiveIndex

open Codenaut.Core Codenaut.Db Codenaut.Db.Database Codenaut.Indexing Codenaut.Relational
open Codenaut.Services Codenaut.Versioning

/-- What the refinement of a transaction relies on in the state before it. -/
structure BuildTable (db : Database) : Prop where
  consistent : Consistent db
  keys : UniqueKey buildKey db.builds
  positive : ∀ build ∈ db.builds, 1 ≤ build.indexVersion
  edgesOwned : db.EdgesOwned

variable {platform : Platform} {journal after : Journal} {row next : Repository}

theorem build?_of_builds {db stored : Database} (same : stored.builds = db.builds)
    (repositoryId : RepositoryId) (version : Nat) :
    stored.build? repositoryId version = db.build? repositoryId version := by
  simp [build?, same]

/-- Two journals that agree on one repository's index give the same store. -/
theorem indexSlots_eq (same : SameIndex row next)
    (builds : ∀ version, after.database.build? row.id version =
      journal.database.build? row.id version)
    (symbols : ∀ version, after.database.symbolsAt row.id version =
      journal.database.symbolsAt row.id version)
    (edges : ∀ version, after.database.edgesAt row.id version =
      journal.database.edgesAt row.id version)
    (prepared : ∀ version, after.history.lastPreparation row.id version =
      journal.history.lastPreparation row.id version) :
    indexSlots after next = indexSlots journal row := by
  ext1
  · exact same.indexVersion
  · simp [indexSlots, same.commit, same.vectorCount]
  · funext version
    simp [indexSlots, same.id, builds]
  · funext version
    simp [indexSlots, same.id, symbols, edges, prepared]

theorem idle_step (same : indexSlots after next = indexSlots journal row) :
    (indexDiscipline platform).Step (indexSlots journal row) (indexSlots after next) :=
  same ▸ .idle _

/-- A transaction that leaves builds and graph rows alone. -/
theorem kept_step (same : SameIndex row next) (kept : BuildsKept journal.database after.database)
    (history : after.history.preparations = journal.history.preparations) :
    (indexDiscipline platform).Step (indexSlots journal row) (indexSlots after next) := by
  refine idle_step (indexSlots_eq same (fun _ => build?_of_builds kept.builds _ _) ?_ ?_ ?_)
  · intro version
    simp [symbolsAt, kept.symbols]
  · intro version
    simp [edgesAt, kept.edges]
  · intro version
    simp [History.lastPreparation, history]

/-- A guarded update of the build under construction. -/
theorem revise_step {guard : RepositoryIndexBuild → Bool}
    {change : RepositoryIndexBuild → RepositoryIndexBuild} (target : Nat)
    (same : SameIndex row next) {base : Database}
    (stored : after.database = base.updateBuilds guard change)
    (kept : BuildsKept journal.database base)
    (history : after.history.preparations = journal.history.preparations)
    (key : ∀ build, buildKey (change build) = buildKey build)
    (selected : ∀ build, guard build = true → build.indexVersion = target ∧
      build.state = .building)
    (stays : ∀ build, guard build = true → (indexDiscipline platform).Pending (change build))
    (sound : ∀ build, guard build = true → build.repositoryId = row.id →
      journal.database.build? row.id target = some build →
      GraphSound platform build ((indexSlots journal row).content target) →
      GraphSound platform (change build) ((indexSlots journal row).content target)) :
    (indexDiscipline platform).Step (indexSlots journal row) (indexSlots after next) := by
  have builds : after.database.builds = updateWhere guard change journal.database.builds := by
    rw [stored, ← kept.builds]
    rfl
  have symbols : after.database.symbolDefinitions = journal.database.symbolDefinitions := by
    rw [stored, ← kept.symbols]
    rfl
  have edges : after.database.callEdges = journal.database.callEdges := by
    rw [stored, ← kept.edges]
    rfl
  have read : ∀ version, after.database.build? row.id version =
      (journal.database.build? row.id version).map fun build =>
        if guard build then change build else build := by
    intro version
    rw [← build?_updateBuilds journal.database guard key]
    exact build?_of_builds builds _ _
  have content : (indexSlots after next).content = (indexSlots journal row).content := by
    funext version
    simp [indexSlots, same.id, symbolsAt, edgesAt, symbols, edges, History.lastPreparation, history]
  have version : (indexSlots after next).version = (indexSlots journal row).version :=
    same.indexVersion
  have label : (indexSlots after next).label = (indexSlots journal row).label := by
    simp [indexSlots, same.commit, same.vectorCount]
  have targeted : ∀ version build, journal.database.build? row.id version = some build →
      guard build = true → version = target := by
    intro version build found matched
    exact (build?_mem found).2.2.symm.trans (selected build matched).1
  by_cases chosen : ∃ build, journal.database.build? row.id target = some build ∧
      guard build = true
  · obtain ⟨build, found, matched⟩ := chosen
    have revised : indexSlots after next = { indexSlots journal row with
        record := Function.update (indexSlots journal row).record target
          (some (change build)) } := by
      refine Slots.ext version label ?_ content
      funext other
      simp only [indexSlots, same.id, read]
      by_cases here : other = target
      · subst here
        simp [found, matched]
      · cases stored : journal.database.build? row.id other with
        | none => simp [here, stored]
        | some kept =>
            have unmatched : ¬guard kept = true := fun both =>
              here (targeted other kept stored both)
            simp [here, stored, unmatched]
    rw [revised]
    exact .revise _ target build (change build) found
      (.inl (buildPhase_building.mpr (selected build matched).2)) (stays build matched)
      (sound build matched (build?_mem found).2.1 found)
  · refine idle_step (Slots.ext version label ?_ content)
    funext other
    simp only [indexSlots, same.id, read]
    cases stored : journal.database.build? row.id other with
    | none => rfl
    | some kept =>
        have unmatched : ¬guard kept = true := fun matched =>
          chosen ⟨kept, targeted other kept stored matched ▸ stored, matched⟩
        simp [unmatched]

/-! ## Preparation -/

/-- The history that a committed `prepare_build` adds. -/
def withPreparation (platform : Platform) (history : History) (repositoryId : RepositoryId)
    (processing : ProcessingResult) : History :=
  { history with
    preparations := ⟨repositoryId, processing.indexVersion,
      graphSymbols platform repositoryId processing,
      graphEdges repositoryId processing⟩ :: history.preparations }

private theorem lastPreparation_withPreparation (history : History)
    (repositoryId other : RepositoryId) (processing : ProcessingResult) (version : Nat) :
    (withPreparation platform history repositoryId processing).lastPreparation other version =
      if other = repositoryId ∧ version = processing.indexVersion then
        some ⟨repositoryId, processing.indexVersion,
          graphSymbols platform repositoryId processing, graphEdges repositoryId processing⟩
      else history.lastPreparation other version := by
  simp only [withPreparation, History.lastPreparation, List.find?_cons]
  by_cases here : other = repositoryId ∧ version = processing.indexVersion
  · obtain ⟨rfl, rfl⟩ := here
    simp
  · rw [if_neg here]
    have apart : (repositoryId == other && processing.indexVersion == version) = false := by grind
    rw [apart]

theorem preparedBuild_sound {settings : Settings} {db : Database} {claimed : ClaimedJob}
    {repositoryId : RepositoryId} {commitSha : CommitSha} {processing : ProcessingResult}
    {fingerprint : String} (stamped : processing.commitSha = commitSha) :
    GraphSound platform
      (preparedBuild settings db claimed repositoryId commitSha processing fingerprint)
      { symbols := graphSymbols platform repositoryId processing
        edges := graphEdges repositoryId processing
        preparation := some ⟨repositoryId, processing.indexVersion,
          graphSymbols platform repositoryId processing, graphEdges repositoryId processing⟩ } := by
  have build := preparedBuild_spec settings db claimed repositoryId commitSha processing
    fingerprint
  refine ⟨⟨_, rfl, rfl, rfl⟩, ?_, ?_⟩
  · intro edge member
    obtain ⟨record, recordMember, rfl⟩ := List.mem_map.mp member
    rw [build.commitSha, ← stamped]
    exact processing.edgesStamped record recordMember
  · intro marked
    rw [build.unvalidated] at marked
    cases marked

theorem prepare_step {settings : Settings} {claimed : ClaimedJob} {workerId : WorkerId}
    {commitSha : CommitSha} {discovery : DiscoveryResult} {processing : ProcessingResult}
    {fingerprint : String} {job : IndexingJob} {repository : Repository}
    (table : BuildTable journal.database) (member : row ∈ journal.database.repositories)
    (same : SameIndex row next)
    (prepared : Prepared settings platform journal.database claimed workerId commitSha processing
      fingerprint job repository)
    (database : after.database = preparedDatabase settings platform journal.database claimed
      repository.id commitSha discovery processing fingerprint)
    (history : after.history =
      withPreparation platform journal.history repository.id processing) :
    (indexDiscipline platform).Step (indexSlots journal row) (indexSlots after next) := by
  have located := repository?_mem prepared.located
  have records : ∀ version, after.database.build? row.id version =
      if row.id = repository.id ∧ version = processing.indexVersion then
        some (preparedBuild settings journal.database claimed repository.id commitSha processing
          fingerprint)
      else journal.database.build? row.id version := by
    intro version
    rw [database, ← storeBuild_build?]
    rfl
  have symbols : ∀ version, after.database.symbolsAt row.id version =
      if row.id = repository.id ∧ version = processing.indexVersion then
        graphSymbols platform repository.id processing
      else journal.database.symbolsAt row.id version := by
    intro version
    rw [database, preparedDatabase_symbolsAt]
  have edges : ∀ version, after.database.edgesAt row.id version =
      if row.id = repository.id ∧ version = processing.indexVersion then
        graphEdges repository.id processing
      else journal.database.edgesAt row.id version := by
    intro version
    rw [database, preparedDatabase_edgesAt table.edgesOwned]
  have preparations : ∀ version, after.history.lastPreparation row.id version =
      if row.id = repository.id ∧ version = processing.indexVersion then
        some ⟨repository.id, processing.indexVersion,
          graphSymbols platform repository.id processing, graphEdges repository.id processing⟩
      else journal.history.lastPreparation row.id version := by
    intro version
    rw [history, lastPreparation_withPreparation]
  by_cases here : row.id = repository.id
  · have equal : row = repository :=
      table.consistent.repositoryIds.row_eq member located.1 here
    subst equal
    have staged : indexSlots after next = { indexSlots journal row with
        record := Function.update (indexSlots journal row).record
          ((indexSlots journal row).version + 1)
          (some (preparedBuild settings journal.database claimed row.id commitSha processing
            fingerprint))
        content := Function.update (indexSlots journal row).content
          ((indexSlots journal row).version + 1)
          { symbols := graphSymbols platform row.id processing
            edges := graphEdges row.id processing
            preparation := some ⟨row.id, processing.indexVersion,
              graphSymbols platform row.id processing, graphEdges row.id processing⟩ } } := by
      ext1
      · exact same.indexVersion
      · simp [indexSlots, same.commit, same.vectorCount]
      · funext version
        simp only [indexSlots, same.id, records, Function.update_apply, prepared.next, true_and]
      · funext version
        simp only [indexSlots, same.id, symbols, edges, preparations, Function.update_apply,
          prepared.next, true_and]
        split <;> rfl
    rw [staged]
    exact .stage _ _ _ (buildPhase_building.mpr (preparedBuild_spec settings journal.database
      claimed row.id commitSha processing fingerprint).state)
      (preparedBuild_sound prepared.commitMatches)
  · refine idle_step (indexSlots_eq same ?_ ?_ ?_ ?_) <;> intro version
    · rw [records, if_neg fun both => here both.1]
    · rw [symbols, if_neg fun both => here both.1]
    · rw [edges, if_neg fun both => here both.1]
    · rw [preparations, if_neg fun both => here both.1]

/-! ## Activation -/

theorem activatable_iff {claimed : ClaimedJob} {repositoryId : RepositoryId} {target : Nat}
    {commitSha : CommitSha} {build : RepositoryIndexBuild} :
    activatable claimed repositoryId target commitSha build = true ↔
      build.repositoryId = repositoryId ∧ build.indexVersion = target ∧
        build.jobId = some claimed.id ∧ build.state = .ready ∧ build.commitSha = commitSha ∧
        countsComplete build = true := by
  simp [activatable, isBuild, and_assoc]

theorem countsComplete_iff {build : RepositoryIndexBuild} : countsComplete build = true ↔
    build.expectedChunkCount = build.embeddedChunkCount ∧
      build.expectedChunkCount = build.vectorCount ∧ build.graphValidated = true ∧
      build.graphFingerprint.isSome = true := by
  simp [countsComplete, and_assoc]

theorem supersededBuild_key (build : RepositoryIndexBuild) :
    buildKey (supersededBuild build) = buildKey build := rfl

theorem activeBuild_key (now : Timestamp) (build : RepositoryIndexBuild) :
    buildKey (activeBuild now build) = buildKey build := rfl

/-- The active build gives way; any other row stays. -/
def retiredBuild (build : RepositoryIndexBuild) : RepositoryIndexBuild :=
  if build.state = .active then supersededBuild build else build

private theorem supersedePrevious_build? {db : Database}
    (positive : ∀ build ∈ db.builds, 1 ≤ build.indexVersion) (repository : Repository)
    (version : Nat) :
    (supersedePrevious db repository).build? repository.id version =
      (db.build? repository.id version).map fun build =>
        if version = repository.indexVersion then retiredBuild build else build := by
  unfold supersedePrevious
  split
  case isTrue _ =>
    rw [build?_updateBuilds db _ supersededBuild_key]
    cases found : db.build? repository.id version with
    | none => rfl
    | some build =>
        obtain ⟨_, sameRepository, sameVersion⟩ := build?_mem found
        simp only [Option.map_some, retiredBuild, Option.some.injEq]
        by_cases current : version = repository.indexVersion <;>
          by_cases active : build.state = .active <;>
          simp [isActiveBuild, isBuild, sameRepository, sameVersion, current, active]
  case isFalse unversioned =>
    cases found : db.build? repository.id version with
    | none => rfl
    | some build =>
        obtain ⟨member, _, sameVersion⟩ := build?_mem found
        have versioned := positive build member
        have apart : version ≠ repository.indexVersion := by omega
        simp [apart]

section Activated

variable {db : Database} {now : Timestamp} {claimed : ClaimedJob} {job : IndexingJob}
  {repository : Repository} {commitSha : CommitSha} {build : RepositoryIndexBuild}

private theorem activatedDatabase_build? (id : RepositoryId) (version : Nat) :
    (activatedDatabase db now claimed job repository commitSha build).build? id version =
      ((supersedePrevious db repository).build? id version).map fun build =>
        if activatable claimed repository.id (repository.indexVersion + 1) commitSha build then
          activeBuild now build
        else build :=
  build?_updateBuilds (supersedePrevious db repository) _ (activeBuild_key now) id version

private theorem activatable_apart {version : Nat} {other : RepositoryIndexBuild}
    (place : other.indexVersion = version) (apart : version ≠ repository.indexVersion + 1) :
    activatable claimed repository.id (repository.indexVersion + 1) commitSha other = false := by
  by_contra matched
  exact apart (place.symm.trans (activatable_iff.mp (by simpa using matched)).2.1)

/-- In the activated repository the target turns active and the previous
version gives way. -/
private theorem activatedDatabase_own (positive : ∀ build ∈ db.builds, 1 ≤ build.indexVersion)
    (read : db.build? repository.id (repository.indexVersion + 1) = some build)
    (ready : activatable claimed repository.id (repository.indexVersion + 1) commitSha build = true)
    (version : Nat) :
    (activatedDatabase db now claimed job repository commitSha build).build? repository.id version =
      if version = repository.indexVersion + 1 then some (activeBuild now build)
      else if version = repository.indexVersion then
        (db.build? repository.id version).map retiredBuild
      else db.build? repository.id version := by
  rw [activatedDatabase_build?, supersedePrevious_build? positive]
  by_cases target : version = repository.indexVersion + 1
  · subst target
    simp [read, ready]
  · rw [if_neg target]
    cases found : db.build? repository.id version with
    | none =>
        simp
    | some kept =>
        have place := (build?_mem found).2.2
        have retired : (retiredBuild kept).indexVersion = version := by
          unfold retiredBuild
          split <;> exact place
        by_cases current : version = repository.indexVersion
        · simp [current, activatable_apart retired target]
        · simp [current, activatable_apart place target]

private theorem activatedDatabase_other {id : RepositoryId} (other : id ≠ repository.id)
    (version : Nat) :
    (activatedDatabase db now claimed job repository commitSha build).build? id version =
      db.build? id version := by
  have superseded : (supersedePrevious db repository).build? id version =
      db.build? id version := by
    unfold supersedePrevious
    split
    · rw [build?_updateBuilds db _ supersededBuild_key]
      cases found : db.build? id version with
      | none => rfl
      | some kept =>
          have place := (build?_mem found).2.1
          simp [isActiveBuild, isBuild, place, other]
    · rfl
  rw [activatedDatabase_build?, superseded]
  cases found : db.build? id version with
  | none => rfl
  | some kept =>
      have place := (build?_mem found).2.1
      simp [activatable, isBuild, place, other]

private theorem activatedDatabase_graph (id : RepositoryId) (version : Nat) :
    (activatedDatabase db now claimed job repository commitSha build).symbolsAt id version =
      db.symbolsAt id version ∧
    (activatedDatabase db now claimed job repository commitSha build).edgesAt id version =
      db.edgesAt id version := by
  simp only [symbolsAt, edgesAt, activatedDatabase, activatedBuilds, supersedePrevious,
    updateRepositories, updateJobs, updateBuilds]
  split <;> exact ⟨rfl, rfl⟩

private theorem activatedDatabase_repositories :
    (activatedDatabase db now claimed job repository commitSha build).repositories =
      updateWhere (·.id == repository.id)
        (activatedRepository now (repository.indexVersion + 1) commitSha build.vectorCount
          (db.webhookDeliveries.any (·.indexingJobId == some job.id))) db.repositories := by
  simp only [activatedDatabase, activatedBuilds, supersedePrevious, updateRepositories,
    updateJobs, updateBuilds]
  split <;> rfl

/-- A complete ready build one version ahead may take the place of the active one. -/
private theorem activatable_switch {slots : Slots RepositoryIndexBuild StoredGraph IndexLabel}
    {id : RepositoryId} {target : Nat}
    (read : slots.record (slots.version + 1) = some build)
    (ready : activatable claimed id target commitSha build = true) :
    (indexDiscipline platform).Step slots { slots with
      version := slots.version + 1
      label := ⟨some commitSha, build.vectorCount⟩
      record := Function.update
        (Function.update slots.record slots.version
          ((slots.record slots.version).map retiredBuild))
        (slots.version + 1) (some (activeBuild now build)) } := by
  obtain ⟨_, _, _, state, commit, complete⟩ := activatable_iff.mp ready
  have counts := countsComplete_iff.mp complete
  refine .switch _ build (activeBuild now build) retiredBuild _ read
    (buildPhase_ready.mpr state) rfl ?_ ?_ ?_ ?_
  · intro sound
    exact sound.revised ⟨rfl, rfl, rfl, rfl, rfl, rfl⟩ fun marked => .inl marked
  · exact ⟨congrArg some commit.symm, counts.2.1, counts.1.symm.trans counts.2.1, rfl,
      counts.2.2.1⟩
  · intro record active
    simp [retiredBuild, buildPhase_active.mp active, supersededBuild, indexDiscipline,
      buildPhase]
  · intro record inactive
    have notActive : record.state ≠ .active := fun state => inactive (buildPhase_active.mpr state)
    simp [retiredBuild, notActive]

end Activated

theorem activate_step {claimed : ClaimedJob} {workerId : WorkerId} {commitSha : CommitSha}
    {now : Timestamp} {job : IndexingJob} {repository : Repository}
    {build : RepositoryIndexBuild} {deliveries : List WebhookDelivery}
    (table : BuildTable journal.database) (member : row ∈ journal.database.repositories)
    (nextMember : next ∈ after.database.repositories) (sameId : next.id = row.id)
    (activated : Activated journal.database claimed workerId commitSha job repository build)
    (database : after.database = { activatedDatabase journal.database now claimed job repository
      commitSha build with webhookDeliveries := deliveries })
    (history : after.history.preparations = journal.history.preparations) :
    (indexDiscipline platform).Step (indexSlots journal row) (indexSlots after next) := by
  have located := repository?_mem activated.located
  have ready := activatable_iff.mp (List.find?_some activated.ready)
  have read : journal.database.build? repository.id (repository.indexVersion + 1) = some build := by
    rw [← ready.1, ← ready.2.1]
    exact build?_eq_some table.keys (List.mem_of_find?_eq_some activated.ready)
  have records : ∀ id version, after.database.build? id version =
      (activatedDatabase journal.database now claimed job repository commitSha build).build? id
        version := by
    intro id version
    rw [database]
    rfl
  have graph : ∀ id version, after.database.symbolsAt id version =
      journal.database.symbolsAt id version ∧
        after.database.edgesAt id version = journal.database.edgesAt id version := by
    intro id version
    rw [database]
    exact @activatedDatabase_graph journal.database now claimed job repository commitSha build id
      version
  have rows : after.database.repositories = updateWhere (·.id == repository.id)
      (activatedRepository now (repository.indexVersion + 1) commitSha build.vectorCount
        (journal.database.webhookDeliveries.any (·.indexingJobId == some job.id)))
      journal.database.repositories := by
    rw [database]
    exact activatedDatabase_repositories
  have prepared : ∀ id version, after.history.lastPreparation id version =
      journal.history.lastPreparation id version := by
    intro id version
    simp [History.lastPreparation, history]
  rw [rows, mem_updateWhere] at nextMember
  obtain ⟨prior, priorMember, rewritten⟩ := nextMember
  have priorId : prior.id = row.id := by
    rw [← sameId, ← rewritten]
    split <;> rfl
  have priorRow := table.consistent.repositoryIds.row_eq priorMember member priorId
  subst priorRow
  by_cases here : prior.id = repository.id
  · have equal := table.consistent.repositoryIds.row_eq member located.1 here
    subst equal
    simp only [beq_self_eq_true, if_true] at rewritten
    subst rewritten
    have switched : indexSlots after (activatedRepository now (prior.indexVersion + 1) commitSha
        build.vectorCount (journal.database.webhookDeliveries.any
          (·.indexingJobId == some job.id)) prior) = { indexSlots journal prior with
        version := (indexSlots journal prior).version + 1
        label := ⟨some commitSha, build.vectorCount⟩
        record := Function.update
          (Function.update (indexSlots journal prior).record (indexSlots journal prior).version
            (((indexSlots journal prior).record (indexSlots journal prior).version).map
              retiredBuild))
          ((indexSlots journal prior).version + 1) (some (activeBuild now build)) } := by
      ext1
      · rfl
      · rfl
      · funext version
        simp only [indexSlots, activatedRepository, records, Function.update_apply,
          activatedDatabase_own table.positive read (List.find?_some activated.ready)]
        by_cases current : version = prior.indexVersion
        · simp [current]
        · simp [current]
      · funext version
        simp [indexSlots, activatedRepository, graph, prepared]
    rw [switched]
    exact activatable_switch read (List.find?_some activated.ready)
  · simp only [beq_iff_eq, here, if_false] at rewritten
    subst rewritten
    refine idle_step (indexSlots_eq (.refl prior) ?_ (fun version => (graph _ version).1)
      (fun version => (graph _ version).2) (prepared _))
    intro version
    rw [records, activatedDatabase_other here]

end Codenaut.ActiveIndex
