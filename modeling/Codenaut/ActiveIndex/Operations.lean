import Codenaut.ActiveIndex.Refinement

/-!
# Every operation is a step of the versioned store

The remaining build transactions, and the refinement of one whole operation on
the journal: seen through any repository's index it is one step.
-/

set_option autoImplicit false

namespace Codenaut.ActiveIndex

open Codenaut.Core Codenaut.Db Codenaut.Db.Database Codenaut.Indexing Codenaut.Relational
open Codenaut.Services Codenaut.Versioning

variable {platform : Platform} {journal after : Journal} {row next : Repository}
  {claimed : ClaimedJob} {workerId : WorkerId}

/-! ## Revisions of the build under construction -/

theorem validateGraph_step (keys : UniqueKey buildKey journal.database.builds)
    (same : SameIndex row next)
    (success : validateGraph platform journal.database claimed workerId = .ok after.database)
    (history : after.history.preparations = journal.history.preparations) :
    (indexDiscipline platform).Step (indexSlots journal row) (indexSlots after next) := by
  obtain ⟨job, target, build, _, owned, matching, stored⟩ := validateGraph_ok success
  refine revise_step target same stored ⟨rfl, rfl, rfl⟩ history (fun _ => rfl) ?_ ?_ ?_
  · intro other matched
    exact ⟨(ownBuilding_iff.mp matched).2.1, (ownBuilding_iff.mp matched).2.2.2⟩
  · intro other matched
    exact .inl (buildPhase_building.mpr (ownBuilding_iff.mp matched).2.2.2)
  · intro other matched place found sound
    have facts := ownBuilding_iff.mp matched
    have ownFacts := ownBuilding_iff.mp (List.find?_some owned)
    -- the row read by its key is the row whose edges were recomputed
    have equal : other = build := by
      refine keys.row_eq (build?_mem found).1 (List.mem_of_find?_eq_some owned) ?_
      simp [buildKey, facts.1, facts.2.1, ownFacts.1, ownFacts.2.1]
    subst equal
    refine sound.revised ⟨rfl, rfl, rfl, rfl, rfl, rfl⟩ fun _ => .inr ?_
    rw [← facts.1, place] at matching
    exact matching

theorem recordVectorCounts_step {embedded vectors reused : Nat} {reembedded : Option Nat}
    (same : SameIndex row next)
    (success : recordVectorCounts journal.database claimed workerId embedded vectors reused
      reembedded = .ok after.database)
    (history : after.history.preparations = journal.history.preparations) :
    (indexDiscipline platform).Step (indexSlots journal row) (indexSlots after next) := by
  obtain ⟨job, target, _, _, stored⟩ := recordVectorCounts_ok success
  refine revise_step target same stored ⟨rfl, rfl, rfl⟩ history (fun _ => rfl) ?_ ?_ ?_
  · intro other matched
    exact ⟨(ownBuilding_iff.mp matched).2.1, (ownBuilding_iff.mp matched).2.2.2⟩
  · intro other matched
    exact .inl (buildPhase_building.mpr (ownBuilding_iff.mp matched).2.2.2)
  · intro other _ _ _ sound
    exact sound.revised ⟨rfl, rfl, rfl, rfl, rfl, rfl⟩ .inl

theorem markBuildReady_step (same : SameIndex row next)
    (success : markBuildReady journal.database claimed workerId = .ok after.database)
    (history : after.history.preparations = journal.history.preparations) :
    (indexDiscipline platform).Step (indexSlots journal row) (indexSlots after next) := by
  obtain ⟨job, target, _, stored⟩ := markBuildReady_ok success
  have owned : ∀ build, (ownBuilding claimed target build && countsComplete build) = true →
      ownBuilding claimed target build = true := by
    intro build matched
    exact (Bool.and_eq_true _ _ ▸ matched).1
  refine revise_step target same stored ⟨rfl, rfl, rfl⟩ history (fun _ => rfl) ?_ ?_ ?_
  · intro other matched
    have facts := ownBuilding_iff.mp (owned other matched)
    exact ⟨facts.2.1, facts.2.2.2⟩
  · intro other _
    exact .inr rfl
  · intro other _ _ _ sound
    exact sound.revised ⟨rfl, rfl, rfl, rfl, rfl, rfl⟩ .inl

/-! ## Cleanup -/

/-- A guarded update of one version's build, with or without its graph rows
deleted, changes that version of its repository only. -/
private theorem cleanup_slots {guard : RepositoryIndexBuild → Bool}
    {change : RepositoryIndexBuild → RepositoryIndexBuild} {repositoryId : RepositoryId}
    {indexVersion : Nat} (same : SameIndex row next)
    (stored : after.database = journal.database.updateBuilds guard change ∨
      after.database =
        (journal.database.updateBuilds guard change).deleteSymbols repositoryId indexVersion)
    (selective : ∀ build, guard build = true → isBuild repositoryId indexVersion build = true)
    (key : ∀ build, buildKey (change build) = buildKey build)
    (history : after.history.preparations = journal.history.preparations) :
    (row.id ≠ repositoryId ∧ indexSlots after next = indexSlots journal row) ∨
      row.id = repositoryId ∧ ∃ content, indexSlots after next = { indexSlots journal row with
        record := Function.update (indexSlots journal row).record indexVersion
          (((indexSlots journal row).record indexVersion).map fun build =>
            if guard build then change build else build)
        content := Function.update (indexSlots journal row).content indexVersion content } := by
  have records : ∀ version, after.database.build? row.id version =
      (journal.database.build? row.id version).map fun build =>
        if guard build then change build else build := by
    intro version
    rw [← build?_updateBuilds journal.database guard key]
    rcases stored with stored | stored
    · rw [stored]
    · rw [stored]
      rfl
  have unread : ∀ version, (row.id ≠ repositoryId ∨ version ≠ indexVersion) →
      after.database.build? row.id version = journal.database.build? row.id version := by
    intro version apart
    rw [records]
    cases found : journal.database.build? row.id version with
    | none => rfl
    | some build =>
        obtain ⟨_, place, index⟩ := build?_mem found
        have unmatched : guard build = false := by
          by_contra matched
          have here := selective build (by simpa using matched)
          simp only [isBuild, Bool.and_eq_true, beq_iff_eq, place, index] at here
          exact apart.elim (fun other => other here.1) fun other => other here.2
        simp [unmatched]
  have graph : ∀ version, (row.id ≠ repositoryId ∨ version ≠ indexVersion) →
      after.database.symbolsAt row.id version = journal.database.symbolsAt row.id version ∧
        after.database.edgesAt row.id version = journal.database.edgesAt row.id version := by
    intro version apart
    rcases stored with stored | stored
    · rw [stored]
      exact ⟨rfl, rfl⟩
    · rw [stored, symbolsAt_deleteSymbols _ apart, edgesAt_deleteSymbols _ apart]
      exact ⟨rfl, rfl⟩
  have prepared : ∀ version, after.history.lastPreparation row.id version =
      journal.history.lastPreparation row.id version := by
    intro version
    simp [History.lastPreparation, history]
  by_cases here : row.id = repositoryId
  · refine .inr ⟨here, (indexSlots after next).content indexVersion, ?_⟩
    ext1
    · exact same.indexVersion
    · simp [indexSlots, same.commit, same.vectorCount]
    · funext version
      by_cases target : version = indexVersion
      · subst target
        simp [indexSlots, same.id, records]
      · simp [indexSlots, same.id, target, unread version (.inr target)]
    · funext version
      by_cases target : version = indexVersion
      · subst target
        simp
      · simp [indexSlots, same.id, target, graph version (.inr target), prepared]
  · exact .inl ⟨here, indexSlots_eq same (fun version => unread version (.inl here))
      (fun version => (graph version (.inl here)).1)
      (fun version => (graph version (.inl here)).2) prepared⟩

theorem recordFailedBuildCleanup_step {now : Timestamp} {repositoryId : RepositoryId}
    {indexVersion : Nat} {cleanupComplete : Bool}
    (keys : UniqueKey buildKey journal.database.builds) (same : SameIndex row next)
    (database : after.database =
      recordFailedBuildCleanup journal.database now repositoryId indexVersion cleanupComplete)
    (history : after.history.preparations = journal.history.preparations) :
    (indexDiscipline platform).Step (indexSlots journal row) (indexSlots after next) := by
  unfold recordFailedBuildCleanup at database
  dsimp only at database
  split at database
  · exact kept_step same (by rw [database]; exact .refl _) history
  case isFalse selected =>
    simp only [Option.isNone_iff_eq_none] at selected
    obtain ⟨build, found⟩ := Option.ne_none_iff_exists'.mp selected
    have matched := List.find?_some found
    simp only [isBuild, Bool.and_eq_true, beq_iff_eq, bne_iff_ne] at matched
    obtain ⟨⟨place, index⟩, inactive⟩ := matched
    have read := build?_eq_some keys (List.mem_of_find?_eq_some found)
    rw [place, index] at read
    have stored : after.database = journal.database.updateBuilds
        (fun build => isBuild repositoryId indexVersion build && build.state != .active)
        (discardedBuild now cleanupComplete) ∨
        after.database = (journal.database.updateBuilds
          (fun build => isBuild repositoryId indexVersion build && build.state != .active)
          (discardedBuild now cleanupComplete)).deleteSymbols repositoryId indexVersion := by
      split at database
      · exact .inr database
      · exact .inl database
    rcases cleanup_slots same stored (fun _ both => (Bool.and_eq_true _ _ ▸ both).1)
      (fun _ => rfl) history with ⟨_, idle⟩ | ⟨here, content, discarded⟩
    · exact idle_step idle
    · have record : (indexSlots journal row).record indexVersion = some build := by
        rw [← here] at read
        exact read
      have rewritten : (isBuild repositoryId indexVersion build && build.state != .active) =
          true := by
        simp [isBuild, place, index, inactive]
      rw [discarded, record, Option.map_some, if_pos rewritten]
      exact .discard _ indexVersion build _ content record
        (fun active => inactive (buildPhase_active.mp active)) rfl

theorem completeSupersededCleanup_step {now : Timestamp} {repositoryId : RepositoryId}
    {indexVersion : Nat} (same : SameIndex row next)
    (older : repositoryId = row.id → indexVersion < row.indexVersion)
    (success : completeSupersededCleanup journal.database now repositoryId indexVersion =
      .ok after.database)
    (history : after.history.preparations = journal.history.preparations) :
    (indexDiscipline platform).Step (indexSlots journal row) (indexSlots after next) := by
  have stored := completeSupersededCleanup_ok success
  rcases cleanup_slots same (.inr stored) (fun _ both => (Bool.and_eq_true _ _ ▸ both).1)
    (fun _ => rfl) history with ⟨_, idle⟩ | ⟨here, content, cleared⟩
  · exact idle_step idle
  · rw [cleared]
    refine .clear _ indexVersion _ content (older here.symm) fun build => ?_
    split <;> rfl

/-! ## Operations -/

theorem RepositoryStep.sameIndex {cause : Cause} {old new : Repository}
    (step : RepositoryStep cause old new)
    (noActivation : ∀ claimed workerId, cause ≠ .activate claimed workerId) :
    SameIndex old new := by
  cases step with
  | unmoved kept => exact kept.toSameIndex
  | activated => exact (noActivation _ _ rfl).elim
  | served kept => exact kept.toSameIndex

/-- Only `prepare_build` adds a preparation. -/
theorem record_preparations {settings : Settings} {moment : Moment} {operation : Operation}
    (other : ∀ claimed workerId commitSha discovery processing fingerprint,
      operation ≠ .store claimed workerId (.prepareBuild commitSha discovery processing
        fingerprint)) :
    (journal.history.record settings platform moment journal.database operation).preparations =
      journal.history.preparations := by
  unfold History.record
  split
  case h_1 => exact (other _ _ _ _ _ _ rfl).elim
  case h_2 => split <;> rfl
  case h_3 => rfl

/-- A rolled back call leaves no history. -/
theorem record_rolledBack {settings : Settings} {moment : Moment} {db : Database}
    {history : History} {call : StoreCall} {failure : Failure}
    (failed : call.transact settings platform moment claimed workerId db = .error failure) :
    history.record settings platform moment db (.store claimed workerId call) = history := by
  unfold History.record
  split
  case h_1 same =>
    cases same
    simp [failed]
  case h_2 same =>
    cases same
    simp [failed]
  case h_3 => rfl

/-- A committed `prepare_build` records the rows that it stored. -/
theorem record_prepareBuild {settings : Settings} {moment : Moment} {commitSha : CommitSha}
    {discovery : DiscoveryResult} {processing : ProcessingResult} {fingerprint : String}
    {job : IndexingJob} {repository : Repository} {stored : Unit × Database}
    (consistent : Consistent journal.database)
    (prepared : Prepared settings platform journal.database claimed workerId commitSha processing
      fingerprint job repository)
    (success : StoreCall.transact settings platform moment claimed workerId journal.database
      (.prepareBuild commitSha discovery processing fingerprint) = .ok stored) :
    journal.history.record settings platform moment journal.database
      (.store claimed workerId (.prepareBuild commitSha discovery processing fingerprint)) =
      withPreparation platform journal.history repository.id processing := by
  obtain ⟨jobMember, held⟩ := held_of_find prepared.found
  have read := job?_eq_some consistent.jobIds jobMember
  rw [(heldBy_iff.mp held).1] at read
  have located := (repository?_mem prepared.located).2
  simp only [History.record, success, preparationOf, read, withPreparation, located]
  rfl

theorem storeCall_step {settings : Settings} {moment : Moment} {call : StoreCall}
    {reply : call.Reply} (table : BuildTable journal.database)
    (writes : call.writesBuilds = true) (member : row ∈ journal.database.repositories)
    (nextMember : next ∈ after.database.repositories) (sameId : next.id = row.id)
    (same : (∀ commitSha, call ≠ .activate commitSha) → SameIndex row next)
    (success : call.transact settings platform moment claimed workerId journal.database =
      .ok (reply, after.database))
    (history : after.history =
      journal.history.record settings platform moment journal.database
        (.store claimed workerId call))
    (older : ∀ indexVersion, call = .completeSupersededCleanup row.id indexVersion →
      indexVersion < row.indexVersion) :
    (indexDiscipline platform).Step (indexSlots journal row) (indexSlots after next) := by
  have unprepared : (∀ commitSha discovery processing fingerprint,
      call ≠ .prepareBuild commitSha discovery processing fingerprint) →
      after.history.preparations = journal.history.preparations := by
    intro other
    rw [history]
    refine record_preparations fun _ _ _ _ _ _ equal => ?_
    cases equal
    exact other _ _ _ _ rfl
  cases call with
  | prepareBuild commitSha discovery processing fingerprint =>
      obtain ⟨_, committed, stored⟩ := map_ok success
      cases stored
      obtain ⟨job, repository, prepared, database⟩ := prepareBuild_ok committed
      refine prepare_step table member (same (by simp)) prepared database ?_
      rw [history]
      exact record_prepareBuild table.consistent prepared success
  | validateGraph =>
      obtain ⟨_, validated, stored⟩ := map_ok success
      cases stored
      exact validateGraph_step table.keys (same (by simp)) validated (unprepared (by simp))
  | recordVectorCounts embedded vectors reused reembedded =>
      obtain ⟨_, recorded, stored⟩ := map_ok success
      cases stored
      exact recordVectorCounts_step (same (by simp)) recorded (unprepared (by simp))
  | markBuildReady =>
      obtain ⟨_, ready, stored⟩ := map_ok success
      cases stored
      exact markBuildReady_step (same (by simp)) ready (unprepared (by simp))
  | activate commitSha =>
      obtain ⟨job, repository, build, activated, _, deliveries, stored⟩ := activate_ok success
      exact activate_step table member nextMember sameId activated stored (unprepared (by simp))
  | recordFailedBuildCleanup repositoryId indexVersion cleanupComplete =>
      exact recordFailedBuildCleanup_step table.keys (same (by simp))
        (congrArg Prod.snd (Except.ok.inj success)).symm (unprepared (by simp))
  | completeSupersededCleanup repositoryId indexVersion =>
      obtain ⟨_, cleaned, stored⟩ := map_ok success
      cases stored
      refine completeSupersededCleanup_step (same (by simp)) ?_ cleaned (unprepared (by simp))
      rintro rfl
      exact older indexVersion rfl
  | _ => cases writes

/-- Seen through one repository's index, an operation is one step of the
versioned store. -/
theorem operation_step (settings : Settings) (moment : Moment) {operation : Operation}
    (table : BuildTable journal.database) (member : row ∈ journal.database.repositories)
    (nextMember : next ∈
      (journal.apply settings platform moment operation).database.repositories)
    (sameId : next.id = row.id)
    (older : ∀ claimed workerId indexVersion,
      operation = .store claimed workerId (.completeSupersededCleanup row.id indexVersion) →
      indexVersion < row.indexVersion) :
    (indexDiscipline platform).Step (indexSlots journal row)
      (indexSlots (journal.apply settings platform moment operation) next) := by
  have effect := operation.effect settings platform moment table.consistent.jobIds
    table.consistent.repositoryIds
  have step := effect.repositories.step_of_key table.consistent.repositoryIds member nextMember
    sameId
  by_cases writes : operation.writesBuilds = true
  · cases operation with
    | store claimed workerId call =>
        have same : (∀ commitSha, call ≠ .activate commitSha) → SameIndex row next := by
          intro other
          refine RepositoryStep.sameIndex step fun _ _ activates => ?_
          cases call with
          | activate commitSha => exact other commitSha rfl
          | _ => cases activates
        cases outcome : call.transact settings platform moment claimed workerId
            journal.database with
        | ok result =>
            obtain ⟨reply, stored⟩ := result
            have database : (journal.apply settings platform moment
                (.store claimed workerId call)).database = stored := by
              simp [Journal.apply, Operation.apply, StoreCall.apply, outcome]
            refine storeCall_step table writes member nextMember sameId same
              (by rw [outcome, database]) rfl ?_
            rintro indexVersion rfl
            exact older _ _ _ rfl
        | error failure =>
            have unchanged : journal.apply settings platform moment
                (.store claimed workerId call) = journal := by
              simp only [Journal.apply, Operation.apply, StoreCall.apply, outcome,
                record_rolledBack outcome]
            rw [unchanged] at nextMember ⊢
            have equal := table.consistent.repositoryIds.row_eq nextMember member sameId
            exact equal ▸ idle_step rfl
    | _ => cases writes
  · refine kept_step (RepositoryStep.sameIndex step fun _ _ activates => ?_)
      (operation.buildsKept settings platform moment (by simpa using writes)) ?_
    · cases operation with
      | store claimed workerId call =>
          cases call with
          | activate commitSha => exact writes rfl
          | _ => cases activates
      | _ => cases activates
    · refine record_preparations ?_
      rintro claimed workerId commitSha discovery processing fingerprint rfl
      exact writes rfl

end Codenaut.ActiveIndex
