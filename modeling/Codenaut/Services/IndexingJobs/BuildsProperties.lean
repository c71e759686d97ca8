import Codenaut.Db.ModelsProperties
import Codenaut.Services.IndexingJobs.Builds
import Codenaut.Services.IndexingJobs.ClaimsProperties

/-!
# Effects of the build lifecycle

What each accepted transaction of the build lifecycle read and wrote: its
guards, its effect on jobs and repositories, and the builds and graph rows of
every version afterwards.
-/

set_option autoImplicit false

namespace Codenaut.Services

open Codenaut.Core Codenaut.Db Codenaut.Db.Database Codenaut.Indexing Codenaut.Relational

/-! ## `prepare_build` -/

/-- The row of the prepared version. -/
def preparedBuild (settings : Settings) (db : Database) (claimed : ClaimedJob)
    (repositoryId : RepositoryId) (commitSha : CommitSha) (processing : ProcessingResult)
    (preprocessingFingerprint : String) : RepositoryIndexBuild :=
  match db.build? repositoryId processing.indexVersion with
  | none => newBuild settings claimed repositoryId commitSha processing preprocessingFingerprint
  | some old => reusedBuild settings claimed commitSha processing preprocessingFingerprint old

/-- What a prepared row says, whether it was inserted or reused. -/
structure PreparedFor (settings : Settings) (claimed : ClaimedJob) (repositoryId : RepositoryId)
    (commitSha : CommitSha) (processing : ProcessingResult) (preprocessingFingerprint : String)
    (build : RepositoryIndexBuild) : Prop where
  repositoryId : build.repositoryId = repositoryId
  indexVersion : build.indexVersion = processing.indexVersion
  jobId : build.jobId = some claimed.id
  state : build.state = .building
  commitSha : build.commitSha = commitSha
  expected : build.expectedChunkCount = processing.chunkCount
  graph : build.callSiteCount = processing.callSiteCount ∧
    build.exactEdgeCount = processing.exactEdgeCount ∧
    build.ambiguousEdgeCount = processing.ambiguousEdgeCount ∧
    build.unresolvedCallCount = processing.unresolvedCallCount ∧
    build.graphFingerprint = some processing.graphFingerprint
  unvalidated : build.graphValidated = false

theorem preparedBuild_spec (settings : Settings) (db : Database) (claimed : ClaimedJob)
    (repositoryId : RepositoryId) (commitSha : CommitSha) (processing : ProcessingResult)
    (preprocessingFingerprint : String) :
    PreparedFor settings claimed repositoryId commitSha processing preprocessingFingerprint
      (preparedBuild settings db claimed repositoryId commitSha processing
        preprocessingFingerprint) := by
  unfold preparedBuild
  cases found : db.build? repositoryId processing.indexVersion with
  | none => exact ⟨rfl, rfl, rfl, rfl, rfl, rfl, ⟨rfl, rfl, rfl, rfl, rfl⟩, rfl⟩
  | some old =>
      obtain ⟨_, sameRepository, sameVersion⟩ := build?_mem found
      exact ⟨sameRepository, sameVersion, rfl, rfl, rfl, rfl, ⟨rfl, rfl, rfl, rfl, rfl⟩, rfl⟩

/-- The guards that an accepted `prepare_build` passed. -/
structure Prepared (settings : Settings) (platform : Platform) (db : Database)
    (claimed : ClaimedJob) (workerId : WorkerId) (commitSha : CommitSha)
    (processing : ProcessingResult) (preprocessingFingerprint : String) (job : IndexingJob)
    (repository : Repository) : Prop where
  repositoryMatches : processing.repositoryId = claimed.repositoryId
  commitMatches : processing.commitSha = commitSha
  positive : 1 ≤ processing.indexVersion
  found : db.indexingJobs.find? (heldBy claimed workerId) = some job
  located : db.repository? job.repositoryId = some repository
  target : job.targetIndexVersion = some processing.indexVersion
  next : processing.indexVersion = repository.indexVersion + 1
  free : (db.build? repository.id processing.indexVersion).any (buildTakenByOther claimed) = false
  single : jobBuildsElsewhere db claimed repository.id processing.indexVersion = false
  accepted : graphInsertAccepted
    (clearedForBuild settings db claimed repository.id commitSha processing
      preprocessingFingerprint)
    (graphSymbols platform repository.id processing) (graphEdges repository.id processing) = true

theorem prepareBuild_ok {settings : Settings} {platform : Platform} {db : Database}
    {claimed : ClaimedJob} {workerId : WorkerId} {commitSha : CommitSha}
    {discovery : DiscoveryResult} {processing : ProcessingResult}
    {preprocessingFingerprint : String} {stored : Database}
    (success : prepareBuild settings platform db claimed workerId commitSha discovery processing
      preprocessingFingerprint = .ok stored) :
    ∃ job repository, Prepared settings platform db claimed workerId commitSha processing
        preprocessingFingerprint job repository ∧
      stored = preparedDatabase settings platform db claimed repository.id commitSha discovery
        processing preprocessingFingerprint := by
  unfold prepareBuild at success
  split at success
  · cases success
  case isFalse matching =>
    split at success
    · cases success
    case h_2 job found =>
      split at success
      · cases success
      case h_2 repository located =>
        split at success
        · cases success
        case isFalse fenced =>
          split at success
          · cases success
          case isFalse free =>
            split at success
            · cases success
            case isFalse constraints =>
              simp only [Except.ok.injEq] at success
              simp only [not_or, not_not, Nat.not_lt] at matching fenced
              simp only [Bool.or_eq_true, Bool.not_eq_true', not_or, Bool.not_eq_true,
                Bool.not_eq_false] at constraints
              exact ⟨job, repository, ⟨matching.1, matching.2.1, matching.2.2, found, located,
                fenced.1, fenced.2, by simpa using free, constraints.1, constraints.2⟩,
                success.symm⟩

theorem Prepared.repository_id {settings : Settings} {platform : Platform} {db : Database}
    {claimed : ClaimedJob} {workerId : WorkerId} {commitSha : CommitSha}
    {processing : ProcessingResult} {preprocessingFingerprint : String} {job : IndexingJob}
    {repository : Repository} (prepared : Prepared settings platform db claimed workerId commitSha
      processing preprocessingFingerprint job repository) : repository.id = job.repositoryId :=
  (repository?_mem prepared.located).2

theorem storeBuild_build? (settings : Settings) (db : Database) (claimed : ClaimedJob)
    (repositoryId : RepositoryId) (commitSha : CommitSha) (processing : ProcessingResult)
    (preprocessingFingerprint : String) (other : RepositoryId) (version : Nat) :
    (storeBuild settings db claimed repositoryId commitSha processing
        preprocessingFingerprint).build? other version =
      if other = repositoryId ∧ version = processing.indexVersion then
        some (preparedBuild settings db claimed repositoryId commitSha processing
          preprocessingFingerprint)
      else db.build? other version := by
  unfold storeBuild preparedBuild
  cases found : db.build? repositoryId processing.indexVersion with
  | none =>
      by_cases here : other = repositoryId ∧ version = processing.indexVersion
      · obtain ⟨rfl, rfl⟩ := here
        simp only [build?] at found ⊢
        simp [List.find?_append, found, newBuild]
      · simp only [build?, List.find?_append, if_neg here]
        have apart : ([newBuild settings claimed repositoryId commitSha processing
            preprocessingFingerprint].find? fun build =>
              build.repositoryId == other && build.indexVersion == version) = none := by
          simp only [newBuild, List.find?_singleton]
          grind
        simp [apart]
  | some old =>
      have preserved : ∀ build, buildKey (reusedBuild settings claimed commitSha processing
          preprocessingFingerprint build) = buildKey build := fun _ => rfl
      dsimp only
      rw [build?_updateBuilds db _ preserved]
      by_cases here : other = repositoryId ∧ version = processing.indexVersion
      · obtain ⟨rfl, rfl⟩ := here
        obtain ⟨_, sameRepository, sameVersion⟩ := build?_mem found
        simp [found, isBuild, sameRepository, sameVersion]
      · rw [if_neg here]
        cases read : db.build? other version with
        | none => rfl
        | some build =>
            obtain ⟨_, sameRepository, sameVersion⟩ := build?_mem read
            have unmatched : isBuild repositoryId processing.indexVersion build = false := by
              simp only [isBuild, sameRepository, sameVersion]
              grind
            simp [unmatched]

section Prepare

variable {settings : Settings} {platform : Platform} {db : Database} {claimed : ClaimedJob}
  {repositoryId : RepositoryId} {commitSha : CommitSha} {discovery : DiscoveryResult}
  {processing : ProcessingResult} {preprocessingFingerprint : String}

theorem storeBuild_eq : storeBuild settings db claimed repositoryId commitSha processing
    preprocessingFingerprint = { db with builds := (storeBuild settings db claimed repositoryId
      commitSha processing preprocessingFingerprint).builds } := by
  unfold storeBuild
  split <;> rfl

/-- A graph query after `prepare_build` reads the new rows of its version, and
the stored rows of every other one. -/
theorem preparedDatabase_symbolsAt (other : RepositoryId) (version : Nat) :
    (preparedDatabase settings platform db claimed repositoryId commitSha discovery processing
        preprocessingFingerprint).symbolsAt other version =
      if other = repositoryId ∧ version = processing.indexVersion then
        graphSymbols platform repositoryId processing
      else db.symbolsAt other version := by
  have split : (preparedDatabase settings platform db claimed repositoryId commitSha discovery
      processing preprocessingFingerprint).symbolsAt other version =
      (clearedForBuild settings db claimed repositoryId commitSha processing
        preprocessingFingerprint).symbolsAt other version ++
        (graphSymbols platform repositoryId processing).filter fun row =>
          row.repositoryId == other && row.indexVersion == version := by
    simp [preparedDatabase, symbolsAt, updateRepositories, updateJobs]
  rw [split, clearedForBuild, storeBuild_eq]
  by_cases here : other = repositoryId ∧ version = processing.indexVersion
  · obtain ⟨rfl, rfl⟩ := here
    simp [graphSymbols, symbolRow]
  · rw [if_neg here, symbolsAt_deleteSymbols _ (by grind)]
    have none : (graphSymbols platform repositoryId processing).filter (fun row =>
        row.repositoryId == other && row.indexVersion == version) = [] := by
      simp only [graphSymbols, List.filter_eq_nil_iff, List.mem_map]
      rintro _ ⟨symbol, _, rfl⟩
      simp only [symbolRow]
      grind
    simp [none, symbolsAt]

theorem preparedDatabase_edgesAt (owned : db.EdgesOwned) (other : RepositoryId) (version : Nat) :
    (preparedDatabase settings platform db claimed repositoryId commitSha discovery processing
        preprocessingFingerprint).edgesAt other version =
      if other = repositoryId ∧ version = processing.indexVersion then
        graphEdges repositoryId processing
      else db.edgesAt other version := by
  have split : (preparedDatabase settings platform db claimed repositoryId commitSha discovery
      processing preprocessingFingerprint).edgesAt other version =
      (clearedForBuild settings db claimed repositoryId commitSha processing
        preprocessingFingerprint).edgesAt other version ++
        (graphEdges repositoryId processing).filter fun row =>
          row.repositoryId == other && row.indexVersion == version := by
    simp [preparedDatabase, edgesAt, updateRepositories, updateJobs]
  have ownedStored : ({ db with builds := (storeBuild settings db claimed repositoryId commitSha
      processing preprocessingFingerprint).builds } : Database).EdgesOwned := owned
  rw [split, clearedForBuild, storeBuild_eq]
  by_cases here : other = repositoryId ∧ version = processing.indexVersion
  · obtain ⟨rfl, rfl⟩ := here
    rw [edgesAt_deleteSymbols_self ownedStored]
    simp [graphEdges, edgeRow]
  · rw [if_neg here, edgesAt_deleteSymbols _ (by grind)]
    have none : (graphEdges repositoryId processing).filter (fun row =>
        row.repositoryId == other && row.indexVersion == version) = [] := by
      simp only [graphEdges, List.filter_eq_nil_iff, List.mem_map]
      rintro _ ⟨edge, _, rfl⟩
      simp only [edgeRow]
      grind
    simp [none, edgesAt]

theorem preparedDatabase_edgesOwned (owned : db.EdgesOwned)
    (accepted : graphInsertAccepted
      (clearedForBuild settings db claimed repositoryId commitSha processing
        preprocessingFingerprint)
      (graphSymbols platform repositoryId processing) (graphEdges repositoryId processing) = true) :
    (preparedDatabase settings platform db claimed repositoryId commitSha discovery processing
      preprocessingFingerprint).EdgesOwned := by
  have cleared : (clearedForBuild settings db claimed repositoryId commitSha processing
      preprocessingFingerprint).EdgesOwned := by
    rw [clearedForBuild, storeBuild_eq]
    exact EdgesOwned.deleteSymbols owned repositoryId processing.indexVersion
  simp only [graphInsertAccepted, Bool.and_eq_true, List.all_eq_true] at accepted
  intro edge member
  rcases List.mem_append.mp member with kept | inserted
  · obtain ⟨symbol, symbolMember, facts⟩ := cleared edge kept
    exact ⟨symbol, List.mem_append_left _ symbolMember, facts⟩
  · have referenced := (accepted.2 edge inserted).1
    simp only [edgeRefersTo, List.any_eq_true, Bool.and_eq_true, beq_iff_eq] at referenced
    obtain ⟨symbol, symbolMember, facts⟩ := referenced
    exact ⟨symbol, symbolMember, facts.1.1, facts.1.2, facts.2⟩

theorem preparedDatabase_effect {cause : Cause} :
    WorkerEffect cause db (preparedDatabase settings platform db claimed repositoryId commitSha
      discovery processing preprocessingFingerprint) := by
  unfold preparedDatabase clearedForBuild
  rw [storeBuild_eq]
  exact ⟨.updateWhere .refl
    (fun _ _ _ => .kept ⟨rfl, rfl, rfl, rfl, rfl, rfl, rfl⟩ ⟨rfl, rfl, rfl, rfl, rfl⟩)
    fun _ => rfl,
    .updateWhere .refl
      (fun _ _ _ => .unmoved ⟨⟨rfl, rfl, rfl, rfl, rfl, rfl, rfl, rfl⟩, rfl, rfl⟩) fun _ => rfl,
    rfl, rfl, rfl⟩

end Prepare

/-! ## Validation and readiness -/

theorem ownBuilding_iff {claimed : ClaimedJob} {target : Nat} {build : RepositoryIndexBuild} :
    ownBuilding claimed target build = true ↔ build.repositoryId = claimed.repositoryId ∧
      build.indexVersion = target ∧ build.jobId = some claimed.id ∧ build.state = .building := by
  simp [ownBuilding, isBuild, and_assoc]

/-- The selection that a build transaction starts with. -/
structure OwnTarget (db : Database) (claimed : ClaimedJob) (workerId : WorkerId)
    (job : IndexingJob) (target : Nat) : Prop where
  found : db.indexingJobs.find? (heldBy claimed workerId) = some job
  target : job.targetIndexVersion = some target

theorem validateGraph_ok {platform : Platform} {db stored : Database} {claimed : ClaimedJob}
    {workerId : WorkerId} (success : validateGraph platform db claimed workerId = .ok stored) :
    ∃ job target build, OwnTarget db claimed workerId job target ∧
      db.builds.find? (ownBuilding claimed target) = some build ∧
      graphMatches platform build
        (validatedEdges platform db claimed.repositoryId target build.commitSha) = true ∧
      stored = db.updateBuilds (ownBuilding claimed target) fun row =>
        { row with graphValidated := true } := by
  unfold validateGraph at success
  split at success
  · cases success
  case h_2 job found =>
    split at success
    · cases success
    case h_2 target targeted =>
      split at success
      · cases success
      case h_2 build owned =>
        split at success
        · cases success
        · split at success
          case isTrue matching =>
            exact ⟨job, target, build, ⟨found, targeted⟩, owned, matching,
              (Except.ok.inj success).symm⟩
          · cases success

theorem recordVectorCounts_ok {db stored : Database} {claimed : ClaimedJob} {workerId : WorkerId}
    {embedded vectors reused : Nat} {reembedded : Option Nat}
    (success : recordVectorCounts db claimed workerId embedded vectors reused reembedded =
      .ok stored) :
    ∃ job target, OwnTarget db claimed workerId job target ∧
      (db.builds.find? (ownBuilding claimed target)).isSome = true ∧
      stored = (db.updateJobs (heldBy claimed workerId) fun row =>
        { row with metrics := { row.metrics with
            embeddedChunkCount := embedded
            vectorCount := vectors
            reusedChunkCount := reused
            reembeddedChunkCount := reembedded.getD embedded } }).updateBuilds
        (ownBuilding claimed target) fun row =>
          { row with
            embeddedChunkCount := embedded
            vectorCount := vectors } := by
  unfold recordVectorCounts at success
  split at success
  · cases success
  case h_2 job found =>
    split at success
    · cases success
    case h_2 target targeted =>
      split at success
      · cases success
      case isFalse owned =>
        refine ⟨job, target, ⟨found, targeted⟩, ?_, (Except.ok.inj success).symm⟩
        simpa using owned

theorem markBuildReady_ok {db stored : Database} {claimed : ClaimedJob} {workerId : WorkerId}
    (success : markBuildReady db claimed workerId = .ok stored) :
    ∃ job target, OwnTarget db claimed workerId job target ∧
      stored = db.updateBuilds
        (fun build => ownBuilding claimed target build && countsComplete build) fun row =>
          { row with state := .ready } := by
  unfold markBuildReady at success
  split at success
  · cases success
  case h_2 job found =>
    split at success
    · cases success
    case h_2 target targeted =>
      dsimp only at success
      split at success
      · cases success
      · exact ⟨job, target, ⟨found, targeted⟩, (Except.ok.inj success).symm⟩

theorem validateGraph_effect {cause : Cause} {platform : Platform} {db stored : Database}
    {claimed : ClaimedJob} {workerId : WorkerId}
    (success : validateGraph platform db claimed workerId = .ok stored) :
    WorkerEffect cause db stored := by
  obtain ⟨job, target, build, _, _, _, rfl⟩ := validateGraph_ok success
  exact ⟨.refl .refl, .refl .refl, rfl, rfl, rfl⟩

theorem recordVectorCounts_effect {cause : Cause} {db stored : Database} {claimed : ClaimedJob}
    {workerId : WorkerId} {embedded vectors reused : Nat} {reembedded : Option Nat}
    (success : recordVectorCounts db claimed workerId embedded vectors reused reembedded =
      .ok stored) : WorkerEffect cause db stored := by
  obtain ⟨job, target, _, _, rfl⟩ := recordVectorCounts_ok success
  exact ⟨.updateWhere .refl
    (fun _ _ _ => .kept ⟨rfl, rfl, rfl, rfl, rfl, rfl, rfl⟩ ⟨rfl, rfl, rfl, rfl, rfl⟩)
    fun _ => rfl,
    .refl .refl, rfl, rfl, rfl⟩

theorem markBuildReady_effect {cause : Cause} {db stored : Database} {claimed : ClaimedJob}
    {workerId : WorkerId} (success : markBuildReady db claimed workerId = .ok stored) :
    WorkerEffect cause db stored := by
  obtain ⟨job, target, _, rfl⟩ := markBuildReady_ok success
  exact ⟨.refl .refl, .refl .refl, rfl, rfl, rfl⟩

/-! ## `activate` -/

/-- The guards that a committed activation passed. -/
structure Activated (db : Database) (claimed : ClaimedJob) (workerId : WorkerId)
    (commitSha : CommitSha) (job : IndexingJob) (repository : Repository)
    (build : RepositoryIndexBuild) : Prop where
  found : db.indexingJobs.find? (heldBy claimed workerId) = some job
  located : db.repository? job.repositoryId = some repository
  target : job.targetIndexVersion = some (repository.indexVersion + 1)
  fenced : fenceAllows job repository = true
  ready : db.builds.find?
    (activatable claimed repository.id (repository.indexVersion + 1) commitSha) = some build

/-- The build table after an activation. -/
def activatedBuilds (db : Database) (now : Timestamp) (claimed : ClaimedJob)
    (repository : Repository) (commitSha : CommitSha) : Database :=
  (supersedePrevious db repository).updateBuilds
    (activatable claimed repository.id (repository.indexVersion + 1) commitSha) (activeBuild now)

/-- The database that an activation commits, up to its delivery row. -/
def activatedDatabase (db : Database) (now : Timestamp) (claimed : ClaimedJob)
    (job : IndexingJob) (repository : Repository) (commitSha : CommitSha)
    (build : RepositoryIndexBuild) : Database :=
  ((activatedBuilds db now claimed repository commitSha).updateRepositories
    (·.id == repository.id)
    (activatedRepository now (repository.indexVersion + 1) commitSha build.vectorCount
      (db.webhookDeliveries.any (·.indexingJobId == some job.id)))).updateJobs (·.id == job.id)
    (completedJob now commitSha)

/-- The delivery row of a completed job. -/
def completedDelivery (now : Timestamp) (delivery : WebhookDelivery) : WebhookDelivery :=
  { delivery with
    status := .completed
    safeErrorCode := none
    processedAt := some now }

/-- A committed activation passed its guards and stored the activated database. -/
theorem activate_stored {db stored : Database} {now : Timestamp} {claimed : ClaimedJob}
    {workerId : WorkerId} {commitSha : CommitSha} {previous : Nat}
    (success : activate db now claimed workerId commitSha = .ok (previous, stored)) :
    ∃ job repository build, Activated db claimed workerId commitSha job repository build ∧
      previous = repository.indexVersion ∧
        stored = (activatedDatabase db now claimed job repository commitSha
          build).updateFirstDelivery job.id (completedDelivery now) := by
  unfold activate at success
  split at success
  · cases success
  case h_2 job found =>
    split at success
    · cases success
    case h_2 repository located =>
      split at success
      · cases success
      case h_2 target targeted =>
        split at success
        · cases success
        case isFalse fenced =>
          simp only [not_or, not_not, Bool.not_eq_true', Bool.not_eq_false] at fenced
          obtain ⟨rfl, allowed⟩ := fenced
          split at success
          · cases success
          case h_2 build ready =>
            dsimp only at success
            split at success
            · cases success
            · simp only [Except.ok.injEq, Prod.mk.injEq] at success
              obtain ⟨rfl, rfl⟩ := success
              exact ⟨job, repository, build, ⟨found, located, targeted, allowed, ready⟩, rfl, rfl⟩

theorem activate_ok {db stored : Database} {now : Timestamp} {claimed : ClaimedJob}
    {workerId : WorkerId} {commitSha : CommitSha} {previous : Nat}
    (success : activate db now claimed workerId commitSha = .ok (previous, stored)) :
    ∃ job repository build, Activated db claimed workerId commitSha job repository build ∧
      previous = repository.indexVersion ∧ ∃ deliveries,
        stored = { activatedDatabase db now claimed job repository commitSha build with
          webhookDeliveries := deliveries } := by
  obtain ⟨job, repository, build, guards, version, same⟩ := activate_stored success
  obtain ⟨deliveries, written⟩ := updateFirstDelivery_eq
    (activatedDatabase db now claimed job repository commitSha build) job.id
    (completedDelivery now)
  exact ⟨job, repository, build, guards, version, deliveries, same.trans written⟩

theorem activate_effect {db stored : Database} {now : Timestamp} {claimed : ClaimedJob}
    {workerId : WorkerId} {commitSha : CommitSha} {previous : Nat}
    (jobIds : UniqueKey (·.id) db.indexingJobs) (repositoryIds : UniqueKey (·.id) db.repositories)
    (success : activate db now claimed workerId commitSha = .ok (previous, stored)) :
    WorkerEffect (.activate claimed workerId) db stored := by
  obtain ⟨job, repository, build, guards, _, deliveries, rfl⟩ := activate_ok success
  obtain ⟨jobMember, held⟩ := held_of_find guards.found
  have located := repository?_mem guards.located
  have frame : ∀ {Column : Type} (column : Database → Column),
      (∀ (base : Database) guard change, column (base.updateBuilds guard change) = column base) →
      column (activatedBuilds db now claimed repository commitSha) = column db := by
    intro Column column kept
    unfold activatedBuilds supersedePrevious
    split <;> simp [kept]
  have jobs := frame Database.indexingJobs fun _ _ _ => rfl
  have repositories := frame Database.repositories fun _ _ _ => rfl
  have installations := frame Database.githubInstallations fun _ _ _ => rfl
  have members := frame Database.installationMembers fun _ _ _ => rfl
  have attachments := frame Database.userRepositories fun _ _ _ => rfl
  refine ⟨?_, ?_, installations, members, attachments⟩
  · simp only [activatedDatabase, updateJobs, updateRepositories, jobs]
    exact .updateRow .refl jobIds jobMember
      (.completed held ⟨⟨rfl, rfl, rfl, rfl, rfl, rfl, rfl⟩, rfl, rfl, rfl⟩ rfl rfl)
      fun _ => rfl
  · simp only [activatedDatabase, updateJobs, updateRepositories, repositories]
    exact .updateRow .refl repositoryIds located.1
      (.activated ⟨rfl, rfl, rfl, rfl, rfl, rfl, rfl⟩) fun _ => rfl

/-! ## Cleanup -/

theorem recordFailedBuildCleanup_effect {cause : Cause} (db : Database) (now : Timestamp)
    (repositoryId : RepositoryId) (indexVersion : Nat) (cleanupComplete : Bool) :
    WorkerEffect cause db
      (recordFailedBuildCleanup db now repositoryId indexVersion cleanupComplete) := by
  unfold recordFailedBuildCleanup
  dsimp only
  split
  · exact .refl db
  · split <;> exact ⟨.refl .refl, .refl .refl, rfl, rfl, rfl⟩

theorem completeSupersededCleanup_ok {db stored : Database} {now : Timestamp}
    {repositoryId : RepositoryId} {indexVersion : Nat}
    (success : completeSupersededCleanup db now repositoryId indexVersion = .ok stored) :
    stored = (db.updateBuilds
      (fun build => isBuild repositoryId indexVersion build &&
        (build.state == .superseded || build.state == .failed))
      fun build => { build with
        cleanupStatus := .complete
        cleanupCompletedAt := some now }).deleteSymbols repositoryId indexVersion := by
  unfold completeSupersededCleanup at success
  split at success
  · cases success
  · split at success
    · cases success
    · exact (Except.ok.inj success).symm

theorem completeSupersededCleanup_effect {cause : Cause} {db stored : Database} {now : Timestamp}
    {repositoryId : RepositoryId} {indexVersion : Nat}
    (success : completeSupersededCleanup db now repositoryId indexVersion = .ok stored) :
    WorkerEffect cause db stored := by
  rw [completeSupersededCleanup_ok success]
  exact ⟨.refl .refl, .refl .refl, rfl, rfl, rfl⟩

end Codenaut.Services
