import Codenaut.Services.PublicImports

/-!
# The attachment limit under concurrent imports

An import that runs alone is `_attach`. Imports of different repositories by one
user hold different locks, so their counts do not see each other's attachments:
the limit holds in the runs where no count passes that the user's other counted
imports could push over it.
-/

set_option autoImplicit false

namespace Codenaut.Services

open Codenaut.Core Codenaut.Db Codenaut.Relational

/-! ## An import that runs alone -/

/-- Foreign keys to `repositories`. -/
structure RepositoryReferences (db : Database) : Prop where
  attachments : ∀ row ∈ db.userRepositories, row.repositoryId ∈ db.repositories.map (·.id)
  jobs : ∀ job ∈ db.indexingJobs, job.repositoryId ∈ db.repositories.map (·.id)

theorem RepositoryReferences.newly_unattached {db : Database} (references : RepositoryReferences db)
    (userId : UserId) : attached db userId (newRepositoryId db) = false := by
  apply List.any_eq_false.mpr
  intro row member
  have stored := references.attachments row member
  have fresh : row.repositoryId ≠ newRepositoryId db := fun same =>
    freshKey_not_mem _ (same ▸ stored)
  simp [fresh]

theorem RepositoryReferences.newly_idle {db : Database} (references : RepositoryReferences db) :
    (db.indexingJobs.filter fun job =>
      job.repositoryId == newRepositoryId db && live job) = [] := by
  apply List.filter_eq_nil_iff.mpr
  intro job member
  have stored := references.jobs job member
  have fresh : job.repositoryId ≠ newRepositoryId db := fun same =>
    freshKey_not_mem _ (same ▸ stored)
  simp [fresh]

/-- What an import that ran alone leaves. -/
def ImportWorld.after (db : Database) (call : ImportCall) :
    Option (AttachResult × Database) → ImportWorld
  | none => .lone db call (.ended none)
  | some (result, stored) => .lone stored call (.ended (some result))

section LoneImport

variable {settings : Settings} {db : Database} {call : ImportCall}

@[simp] theorem advance_lone (stage : ImportStage) :
    (ImportWorld.lone db call stage).advance settings 0 =
      (ImportWorld.lone db call stage).execute settings 0 { call := call, stage := stage } :=
  rfl

@[simp] theorem setStage_lone (before stage : ImportStage) :
    (ImportWorld.lone db call before).setStage 0 { call := call, stage := before } stage =
      .lone db call stage :=
  rfl

@[simp] theorem db_lone (stage : ImportStage) : (ImportWorld.lone db call stage).db = db :=
  rfl

@[simp] theorem stored_lone (stored : Database) (stage : ImportStage) :
    ({ db := stored, sessions := (ImportWorld.lone db call stage).sessions } : ImportWorld) =
      .lone stored call stage :=
  rfl

/-- The remaining statements of a lone import. -/
def remaining (settings : Settings) (statements : Nat) (world : ImportWorld) : ImportWorld :=
  (fun current : ImportWorld => current.advance settings 0)^[statements] world

theorem remaining_succ (statements : Nat) (world : ImportWorld) :
    remaining settings (statements + 1) world =
      remaining settings statements (world.advance settings 0) :=
  rfl

theorem remaining_ended (statements : Nat) (result : Option AttachResult) :
    remaining settings statements (.lone db call (.ended result)) =
      .lone db call (.ended result) := by
  induction statements with
  | zero => rfl
  | succ statements ih => rw [remaining_succ]; exact ih

/-- The last three statements, from the selection of the active build. -/
theorem remaining_selectBuild (statements : Nat) (repository : Option Repository)
    (member : Bool) :
    remaining settings (statements + 3) (.lone db call (.selectBuild repository member)) =
      .after db call (commitImport db call repository member
        (repository.bind (builtVersion db)) (repository.bind (newestLiveJob db))) := by
  rw [remaining_succ, remaining_succ, remaining_succ]
  cases committed : commitImport db call repository member
      (repository.bind (builtVersion db)) (repository.bind (newestLiveJob db)) with
  | none =>
      have ended := @remaining_ended settings db call statements none
      simpa [ImportWorld.execute, ImportWorld.after, committed] using ended
  | some stored =>
      have ended := @remaining_ended settings stored.2 call statements (some stored.1)
      simpa [ImportWorld.execute, ImportWorld.after, committed] using ended

/-- The statements from the attachment count, for a user without an attachment. -/
theorem remaining_countAttachments (statements : Nat) (repository : Option Repository) :
    remaining settings (statements + 5) (.lone db call (.countAttachments repository)) =
      .after db call (if attachLimitReached settings db call.userId then none
        else commitImport db call repository false
          (repository.bind (builtVersion db)) (repository.bind (newestLiveJob db))) := by
  rw [remaining_succ]
  by_cases full : settings.publicRepositoryLimitPerUser ≤ attachmentCount db call.userId
  · have limited : attachLimitReached settings db call.userId = true := by
      simp only [attachmentCount] at full
      simp [attachLimitReached, full]
    have refused : (ImportWorld.lone db call (.countAttachments repository)).advance settings 0 =
        .lone db call (.ended none) := by
      simp [ImportWorld.execute, full]
    rw [refused, remaining_ended, limited]
    rfl
  · have counted : (ImportWorld.lone db call (.countAttachments repository)).advance settings 0 =
        .lone db call (.countActive repository) := by
      simp [ImportWorld.execute, full]
    rw [counted, remaining_succ]
    by_cases busy : settings.publicImportActiveLimitPerUser ≤ activeImports db call.userId
    · have limited : attachLimitReached settings db call.userId = true := by
        simp only [activeImports] at busy
        simp [attachLimitReached, busy]
      have refused : (ImportWorld.lone db call (.countActive repository)).advance settings 0 =
          .lone db call (.ended none) := by
        simp [ImportWorld.execute, busy]
      rw [refused, remaining_ended, limited]
      rfl
    · have limited : attachLimitReached settings db call.userId = false := by
        simp only [attachmentCount, activeImports] at full busy
        simp only [attachLimitReached, Bool.or_eq_false_iff, decide_eq_false_iff_not]
        exact ⟨full, busy⟩
      have admitted : (ImportWorld.lone db call (.countActive repository)).advance settings 0 =
          .lone db call (.selectBuild repository false) := by
        simp [ImportWorld.execute, busy]
      rw [admitted, remaining_selectBuild, limited]
      rfl

/-- The statements from the repository selection, by what they load. -/
theorem remaining_selectRepository (statements : Nat) :
    remaining settings (statements + 7) (.lone db call .selectRepository) =
      .after db call
        (let found := db.repositories.find? (publicRepositoryRow call.metadata.repository.id)
        if unexpectedRepository call found then none
        else if found.any fun row => attached db call.userId row.id then
          commitImport db call found true
            (found.bind (builtVersion db)) (found.bind (newestLiveJob db))
        else if attachLimitReached settings db call.userId then none
        else commitImport db call found false
          (found.bind (builtVersion db)) (found.bind (newestLiveJob db))) := by
  rw [remaining_succ]
  cases found : db.repositories.find? (publicRepositoryRow call.metadata.repository.id) with
  | none =>
      by_cases unexpected : unexpectedRepository call none = true
      · have refused : (ImportWorld.lone db call .selectRepository).advance settings 0 =
            .lone db call (.ended none) := by
          simp [ImportWorld.execute, found, unexpected]
        rw [refused, remaining_ended]
        simp [unexpected, ImportWorld.after]
      · have selected : (ImportWorld.lone db call .selectRepository).advance settings 0 =
            .lone db call (.countAttachments none) := by
          simp [ImportWorld.execute, found, unexpected]
        rw [selected, remaining_countAttachments (statements + 1)]
        simp [unexpected]
  | some row =>
      by_cases unexpected : unexpectedRepository call (some row) = true
      · have refused : (ImportWorld.lone db call .selectRepository).advance settings 0 =
            .lone db call (.ended none) := by
          simp [ImportWorld.execute, found, unexpected]
        rw [refused, remaining_ended]
        simp [unexpected, ImportWorld.after]
      · have selected : (ImportWorld.lone db call .selectRepository).advance settings 0 =
            .lone db call (.selectMembership row) := by
          simp [ImportWorld.execute, found, unexpected]
        rw [selected, remaining_succ]
        by_cases member : attached db call.userId row.id = true
        · have joined : (ImportWorld.lone db call (.selectMembership row)).advance settings 0 =
              .lone db call (.selectBuild (some row) true) := by
            simp [ImportWorld.execute, member]
          rw [joined, remaining_selectBuild (statements + 2)]
          simp [unexpected, member]
        · have unjoined : (ImportWorld.lone db call (.selectMembership row)).advance settings 0 =
              .lone db call (.countAttachments (some row)) := by
            simp [ImportWorld.execute, member]
          rw [unjoined, remaining_countAttachments]
          simp [unexpected, member]

theorem importRow_eq (db : Database) (call : ImportCall) :
    importRow db call.now call.metadata = storeRepository db call
      (db.repositories.find? (publicRepositoryRow call.metadata.repository.id)) := by
  unfold importRow storeRepository
  cases db.repositories.find? (publicRepositoryRow call.metadata.repository.id) <;> rfl

/-- Without interleaving the build and the job that a session loads are those
that the database holds for the written row. -/
theorem commitImport_loaded (references : RepositoryReferences db) (found : Option Repository)
    (member : Bool) (unattached : member = false →
      found.any (fun row => attached db call.userId row.id) = false) :
    commitImport db call found member (found.bind (builtVersion db))
        (found.bind (newestLiveJob db)) =
      (let stored := storeRepository db call found
      let joined := joinUser stored.2 member call.userId stored.1.id
      let current := alreadyCurrent joined stored.1 call.metadata.defaultBranchSha
      match latestJob (joined.indexingJobs.filter fun job =>
          job.repositoryId == stored.1.id && live job) with
      | some job => some (⟨stored.1.id, some job.id, current, none⟩, joined)
      | none =>
          if current then some (⟨stored.1.id, none, current, none⟩, joined)
          else
            let job := importJob (newJobId db) call.now call.userId call.manual call.metadata
              (importQueued call.manual stored.1)
            some (⟨stored.1.id, some job.id, current, some job.id⟩,
              insertJob (joined.updateRepositories (·.id == stored.1.id)
                (importQueued call.manual)) job)) := by
  have sameJobs : ∀ stored : Database, ∀ id,
      (joinUser stored member call.userId id).indexingJobs = stored.indexingJobs := by
    intro stored id
    unfold joinUser
    split <;> rfl
  have sameBuilds : ∀ stored : Database, ∀ id,
      (joinUser stored member call.userId id).builds = stored.builds := by
    intro stored id
    unfold joinUser
    split <;> rfl
  cases found with
  | none =>
      have idle := references.newly_idle
      simp only [commitImport, storeRepository, alreadyCurrent, sameJobs, sameBuilds]
      simp [importedRepository, newPublicRepository, references.newly_unattached, idle, latestJob]
  | some row =>
      have admitted : (!member && attached db call.userId row.id) = false := by
        cases member with
        | true => rfl
        | false => simpa using unattached rfl
      simp only [commitImport, storeRepository, alreadyCurrent, sameJobs, sameBuilds]
      simp only [importedRepository, admitted, Option.bind_some, builtVersion, newestLiveJob,
        Database.updateRepositories, Bool.false_eq_true, if_false]
      cases latestJob (db.indexingJobs.filter fun job => job.repositoryId == row.id && live job) <;>
        rfl

/-- An import that no other interleaves with is the transaction `_attach`. -/
theorem loneImport_eq_attach (references : RepositoryReferences db) :
    loneImport settings db call =
      .after db call (attach settings db call.now call.userId call.metadata
        call.expectedRepositoryId call.manual) := by
  have locked : (ImportWorld.lone db call .advisoryLock).advance settings 0 =
      .lone db call .selectRepository := by
    have unlocked : (ImportWorld.lone db call .advisoryLock).sessions.any
        (·.locks call.metadata.repository.id) = false := by
      simp [ImportWorld.lone, ImportSession.locks]
    simp [ImportWorld.execute, unlocked]
  have run : loneImport settings db call =
      remaining settings 7 (.lone db call .selectRepository) := by
    rw [← locked]
    exact remaining_succ 7 _
  rw [run, remaining_selectRepository 0]
  congr 1
  unfold attach
  rw [importRow_eq]
  cases expected : unexpectedRepository call
      (db.repositories.find? (publicRepositoryRow call.metadata.repository.id)) with
  | true =>
      have refused : call.expectedRepositoryId.isSome = true ∧
          (db.repositories.find? (publicRepositoryRow call.metadata.repository.id)).map (·.id) ≠
            call.expectedRepositoryId := by
        simpa [unexpectedRepository] using expected
      simp only [expected, if_true, if_pos refused]
  | false =>
      have allowed : ¬(call.expectedRepositoryId.isSome = true ∧
          (db.repositories.find? (publicRepositoryRow call.metadata.repository.id)).map (·.id) ≠
            call.expectedRepositoryId) := by
        rintro ⟨named, other⟩
        simp [unexpectedRepository, named, other] at expected
      simp only [expected, if_neg allowed, Bool.false_eq_true, if_false]
      cases member : (db.repositories.find? (publicRepositoryRow call.metadata.repository.id)).any
          fun row => attached db call.userId row.id with
      | true =>
          rw [if_pos rfl, commitImport_loaded references _ true (by simp)]
          rfl
      | false =>
          rw [if_neg (by simp)]
          cases limited : attachLimitReached settings db call.userId with
          | true => rfl
          | false =>
              rw [if_neg (by simp), commitImport_loaded references _ false fun _ => member]
              rfl

end LoneImport

/-! ## Demand -/

/-- An import of the user that has passed its attachment count and not ended. -/
def ImportSession.counted (userId : UserId) (session : ImportSession) : Bool :=
  session.call.userId == userId &&
    match session.stage with
    | .countActive _ | .selectBuild _ false | .selectJob _ false _ | .commit _ false _ _ => true
    | _ => false

def ImportWorld.counted (world : ImportWorld) (userId : UserId) : Nat :=
  world.sessions.countP (·.counted userId)

/-- The attachments of a user, and those that counted imports will add. -/
def ImportWorld.demand (world : ImportWorld) (userId : UserId) : Nat :=
  attachmentCount world.db userId + world.counted userId

section Demand

variable {settings : Settings} {world : ImportWorld} {place : Nat} {session : ImportSession}
  {userId : UserId}

/-- A session that moves on changes the number of counted imports by itself. -/
theorem counted_setStage (found : world.sessions[place]? = some session) (stage : ImportStage) :
    (world.setStage place session stage).counted userId +
        (if session.counted userId then 1 else 0) =
      world.counted userId +
        (if ImportSession.counted userId { session with stage := stage } then 1 else 0) := by
  obtain ⟨bound, rfl⟩ := List.getElem?_eq_some_iff.mp found
  have present : (if world.sessions[place].counted userId then 1 else 0) ≤
      world.counted userId := List.boole_getElem_le_countP bound
  simp only [ImportWorld.counted] at present
  simp only [ImportWorld.counted, ImportWorld.setStage, List.countP_set bound]
  omega

theorem counted_setStage_le (found : world.sessions[place]? = some session) {stage : ImportStage}
    (kept : ImportSession.counted userId { session with stage := stage } = true →
      session.counted userId = true) :
    (world.setStage place session stage).counted userId ≤ world.counted userId := by
  have change := @counted_setStage _ _ _ userId found stage
  by_cases after : ImportSession.counted userId { session with stage := stage } = true
  · rw [if_pos after, if_pos (kept after)] at change
    omega
  · rw [if_neg after] at change
    omega

theorem demand_setStage_le (found : world.sessions[place]? = some session)
    (stage : ImportStage) :
    (world.setStage place session stage).demand userId ≤ world.demand userId + 1 := by
  have change := @counted_setStage _ _ _ userId found stage
  simp only [ImportWorld.demand]
  split at change <;> split at change <;> simp only [ImportWorld.setStage] at change ⊢ <;> omega

/-- A commit attaches the user of an import that was no member. -/
theorem attachmentCount_commitImport {db stored : Database} {call : ImportCall}
    {repository : Option Repository} {member : Bool} {build : Option RepositoryIndexBuild}
    {job : Option IndexingJob} {result : AttachResult}
    (committed : commitImport db call repository member build job = some (result, stored)) :
    attachmentCount stored userId =
      attachmentCount db userId + if !member && call.userId == userId then 1 else 0 := by
  have joined : ∀ base : Database, base.userRepositories = db.userRepositories → ∀ id,
      attachmentCount (joinUser base member call.userId id) userId =
        attachmentCount db userId + if !member && call.userId == userId then 1 else 0 := by
    intro base same id
    cases member with
    | true => simp [joinUser, attachmentCount, same]
    | false => simp [joinUser, attachmentCount, same, List.countP_append, List.countP_singleton]
  have base : (storeRepository db call repository).2.userRepositories = db.userRepositories := by
    cases repository <;> rfl
  have attached := joined _ base (storeRepository db call repository).1.id
  simp only [commitImport] at committed
  split at committed
  · cases committed
  split at committed
  case h_1 =>
    obtain ⟨-, rfl⟩ := Prod.mk.inj (Option.some.inj committed)
    exact attached
  case h_2 =>
    split at committed
    · obtain ⟨-, rfl⟩ := Prod.mk.inj (Option.some.inj committed)
      exact attached
    · obtain ⟨-, rfl⟩ := Prod.mk.inj (Option.some.inj committed)
      exact attached

/-- The step is the attachment count of an import of the user, and it passes. -/
def CountPasses (settings : Settings) (world : ImportWorld) (userId : UserId)
    (action : ImportAction) : Prop :=
  ∃ place session repository, action = .advance place ∧ world.sessions[place]? = some session ∧
    session.stage = .countAttachments repository ∧ session.call.userId = userId ∧
    attachmentCount world.db userId < settings.publicRepositoryLimitPerUser

/-- Only a passing count raises a user's demand. A commit turns a counted import
into an attachment, and every other step keeps or drops what is there. -/
theorem demand_execute (found : world.sessions[place]? = some session) :
    (world.execute settings place session).demand userId ≤ world.demand userId ∨
      CountPasses settings world userId (.advance place) ∧
        (world.execute settings place session).demand userId ≤ world.demand userId + 1 := by
  have quiet : ∀ stage : ImportStage,
      (ImportSession.counted userId { session with stage := stage } = true →
        session.counted userId = true) →
      (world.setStage place session stage).demand userId ≤ world.demand userId := fun stage kept =>
    Nat.add_le_add_left (counted_setStage_le found kept) _
  have ends : ∀ result, (world.setStage place session (.ended result)).demand userId ≤
      world.demand userId := fun result => quiet _ (by simp [ImportSession.counted])
  unfold ImportWorld.execute
  cases stage : session.stage with
  | advisoryLock =>
      simp only
      split
      · exact .inl (Nat.le_refl _)
      · exact .inl (quiet _ (by simp [ImportSession.counted]))
  | selectRepository =>
      simp only
      split
      · exact .inl (ends none)
      split
      · exact .inl (quiet _ (by simp [ImportSession.counted]))
      · exact .inl (quiet _ (by simp [ImportSession.counted]))
  | selectMembership repository =>
      simp only
      split
      · exact .inl (quiet _ (by simp [ImportSession.counted]))
      · exact .inl (quiet _ (by simp [ImportSession.counted]))
  | countAttachments repository =>
      simp only
      split
      case isTrue => exact .inl (ends none)
      case isFalse room =>
        by_cases owner : session.call.userId = userId
        · subst owner
          exact .inr ⟨⟨place, session, repository, rfl, found, stage, rfl, by omega⟩,
            demand_setStage_le found _⟩
        · exact .inl (quiet _ (by simp [ImportSession.counted, owner]))
  | countActive repository =>
      simp only
      split
      · exact .inl (ends none)
      · exact .inl (quiet _ (by simp [ImportSession.counted, stage]))
  | selectBuild repository member =>
      exact .inl (quiet _ (by cases member <;> simp [ImportSession.counted, stage]))
  | selectJob repository member build =>
      exact .inl (quiet _ (by cases member <;> simp [ImportSession.counted, stage]))
  | commit repository member build job =>
      simp only
      split
      · exact .inl (ends none)
      case h_2 result stored committed =>
        have attached : attachmentCount stored userId = _ := attachmentCount_commitImport committed
        have change := @counted_setStage _ _ _ userId found (.ended (some result))
        have before : session.counted userId = (!member && session.call.userId == userId) := by
          cases member <;> simp [ImportSession.counted, stage]
        have after : ImportSession.counted userId
            { session with stage := .ended (some result) } = false := by
          simp [ImportSession.counted]
        rw [before, after] at change
        simp only [ImportWorld.demand, ImportWorld.counted, ImportWorld.setStage,
          Bool.false_eq_true, if_false] at change ⊢
        omega
  | ended result => exact .inl (Nat.le_refl _)

/-- A step raises a user's demand only if it is a passing count. -/
theorem demand_apply (action : ImportAction) (allowed : world.Allowed action) :
    (world.apply settings action).demand userId ≤ world.demand userId ∨
      CountPasses settings world userId action ∧
        (world.apply settings action).demand userId ≤ world.demand userId + 1 := by
  cases action with
  | start call =>
      have idle : ImportSession.counted userId { call := call } = false := by
        simp [ImportSession.counted]
      refine .inl (Nat.le_of_eq ?_)
      simp [ImportWorld.apply, ImportWorld.start, ImportWorld.demand, ImportWorld.counted,
        List.countP_append, idle]
  | advance place =>
      simp only [ImportWorld.apply, ImportWorld.advance]
      cases found : world.sessions[place]? with
      | none => exact .inl (Nat.le_refl _)
      | some session => exact demand_execute found
  | abort place =>
      simp only [ImportWorld.apply, ImportWorld.abort]
      cases found : world.sessions[place]? with
      | none => exact .inl (Nat.le_refl _)
      | some session =>
          exact .inl (Nat.add_le_add_left
            (counted_setStage_le found (by simp [ImportSession.counted])) _)
  | other db => exact .inl (Nat.add_le_add_right (List.Sublist.countP_le allowed) _)

end Demand

/-! ## The limit -/

/-- When an attachment count passes, the attachments that it finds and the other
counted imports of the user leave room for one more. -/
def leavesRoom (settings : Settings) (world : ImportWorld) : ImportAction → Bool
  | .advance place =>
      (world.sessions[place]?).all fun session =>
        match session.stage with
        | .countAttachments _ =>
            decide (settings.publicRepositoryLimitPerUser ≤
              attachmentCount world.db session.call.userId) ||
            decide (world.demand session.call.userId < settings.publicRepositoryLimitPerUser)
        | _ => true
  | _ => true

theorem demand_lt_of_leavesRoom {settings : Settings} {world : ImportWorld} {action : ImportAction}
    (room : leavesRoom settings world action = true) {userId : UserId}
    (passes : CountPasses settings world userId action) :
    world.demand userId < settings.publicRepositoryLimitPerUser := by
  obtain ⟨place, session, repository, rfl, found, stage, rfl, below⟩ := passes
  simpa [leavesRoom, found, stage, Nat.not_le.mpr below] using room

/-- If every passing count leaves room, no user's attachments ever exceed the limit. -/
theorem attachments_within_limit {settings : Settings} {before after : ImportWorld}
    (within : ∀ userId, attachmentCount before.db userId ≤ settings.publicRepositoryLimitPerUser)
    (idle : before.sessions = [])
    (path : ImportWorld.Path settings (fun world action => leavesRoom settings world action = true)
      before after) (userId : UserId) :
    attachmentCount after.db userId ≤ settings.publicRepositoryLimitPerUser := by
  have bounded : after.demand userId ≤ settings.publicRepositoryLimitPerUser := by
    induction path with
    | refl => simpa [ImportWorld.demand, ImportWorld.counted, idle] using within userId
    | tail _ step ih =>
        obtain ⟨action, allowed, room, rfl⟩ := step
        rcases @demand_apply settings _ userId action allowed with
          kept | ⟨passes, raised⟩
        · exact Nat.le_trans kept ih
        · have below := demand_lt_of_leavesRoom room passes
          omega
  exact Nat.le_trans (Nat.le_add_right _ _) bounded

def sampleLimits (limit : Nat) : Settings where
  publicRepositoryLimitPerUser := limit
  embeddingModelIdentifier := "m"
  embeddingModelRevision := "r"
  embeddingDimension := 1

def sampleMetadata (id : Nat) : GitHub.PublicRepository where
  repository := {
    id := id
    name := "r"
    fullName := "o/r"
    ownerLogin := "o"
    isPrivate := false
    htmlUrl := "u"
    defaultBranch := "main" }
  defaultBranchSha := "c0"

/-- One user imports two repositories, with the places that advance in turn. -/
def sampleImports (places : List Nat) : List ImportAction :=
  [.start { userId := 1, metadata := sampleMetadata 10 },
    .start { userId := 1, metadata := sampleMetadata 20 }] ++ places.map .advance

/-- Imports one after the other: the second one's count sees the first attachment. -/
theorem serialImports_within_limit :
    attachmentCount (((sampleImports [0, 0, 0, 0, 0, 0, 0, 1, 1, 1, 1, 1, 1, 1]).foldl
      (ImportWorld.apply (sampleLimits 1)) { db := {} }).db) 1 ≤ 1 :=
  attachments_within_limit (by simp [attachmentCount]) rfl
    (ImportWorld.path_of_meets (by decide +kernel)) 1

/-- Both imports count before either commits: their locks differ. -/
theorem overlappingImports_exceed_limit :
    ¬ ∀ (settings : Settings) (before after : ImportWorld),
      (∀ userId, attachmentCount before.db userId ≤ settings.publicRepositoryLimitPerUser) →
      before.sessions = [] →
      ImportWorld.Path settings (fun _ _ => True) before after →
        ∀ userId, attachmentCount after.db userId ≤ settings.publicRepositoryLimitPerUser := by
  intro within
  have path := @ImportWorld.path_of_meets (sampleLimits 1) (fun _ _ => true) { db := {} }
    (sampleImports [0, 0, 0, 1, 1, 1, 0, 0, 0, 0, 1, 1, 1, 1]) (by decide +kernel)
  have bounded := within (sampleLimits 1) { db := {} } _ (by simp [attachmentCount]) rfl
    (by simpa using path) 1
  revert bounded
  decide +kernel

end Codenaut.Services
