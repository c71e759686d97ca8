import Codenaut.Services.PublicRepositories
import Mathlib.Logic.Function.Iterate
import Mathlib.Logic.Relation

/-!
# Concurrent imports of public repositories

`_attach` statement by statement, for imports that run at the same time. Each
select reads what is committed when it executes; an import writes nothing that
others see before its commit. The advisory lock of an import excludes the other
imports of one provider repository until the transaction ends.
-/

set_option autoImplicit false

namespace Codenaut.Services

open Codenaut.Core Codenaut.Db Codenaut.Relational

structure ImportCall where
  userId : UserId
  metadata : GitHub.PublicRepository
  expectedRepositoryId : Option RepositoryId := none
  manual : Bool := false
  now : Timestamp := 0
  deriving DecidableEq, Repr

/-- The statement that an import executes next, with what it has loaded. The
repository is `none` when the import inserts it. -/
inductive ImportStage where
  | advisoryLock
  | selectRepository
  | selectMembership (repository : Repository)
  | countAttachments (repository : Option Repository)
  | countActive (repository : Option Repository)
  | selectBuild (repository : Option Repository) (member : Bool)
  | selectJob (repository : Option Repository) (member : Bool)
      (build : Option RepositoryIndexBuild)
  | commit (repository : Option Repository) (member : Bool)
      (build : Option RepositoryIndexBuild) (job : Option IndexingJob)
  | ended (result : Option AttachResult)
  deriving DecidableEq, Repr

structure ImportSession where
  call : ImportCall
  stage : ImportStage := .advisoryLock
  deriving DecidableEq, Repr

structure ImportWorld where
  db : Database
  sessions : List ImportSession := []
  deriving DecidableEq, Repr

/-- The session holds its advisory lock. -/
def ImportSession.locks (session : ImportSession) (githubRepositoryId : Nat) : Bool :=
  session.call.metadata.repository.id == githubRepositoryId &&
    match session.stage with
    | .advisoryLock | .ended _ => false
    | _ => true

def attachmentCount (db : Database) (userId : UserId) : Nat :=
  db.userRepositories.countP (·.userId == userId)

/-- The user's live jobs, which `active_count` counts. -/
def activeImports (db : Database) (userId : UserId) : Nat :=
  db.indexingJobs.countP fun job => job.requestedByUserId == some userId && live job

/-- `repository is None or repository.id != expected_repository_id`. -/
def unexpectedRepository (call : ImportCall) (found : Option Repository) : Bool :=
  call.expectedRepositoryId.isSome && found.map (·.id) != call.expectedRepositoryId

def builtVersion (db : Database) (repository : Repository) : Option RepositoryIndexBuild :=
  db.builds.find? fun build =>
    build.repositoryId == repository.id && build.indexVersion == repository.indexVersion &&
      build.state == .active

def newestLiveJob (db : Database) (repository : Repository) : Option IndexingJob :=
  latestJob (db.indexingJobs.filter fun job => job.repositoryId == repository.id && live job)

/-- The repository row that a commit writes, and the database holding it. -/
def storeRepository (db : Database) (call : ImportCall) (repository : Option Repository) :
    Repository × Database :=
  match repository with
  | some row =>
      (importedRepository call.now call.metadata row,
        db.updateRepositories (·.id == row.id) (importedRepository call.now call.metadata))
  | none =>
      let row := importedRepository call.now call.metadata
        (newPublicRepository (newRepositoryId db) call.now call.metadata)
      (row, { db with repositories := db.repositories ++ [row] })

/-- The writes of a transaction; `none` violates the membership constraint. -/
def commitImport (db : Database) (call : ImportCall) (repository : Option Repository)
    (member : Bool) (build : Option RepositoryIndexBuild) (job : Option IndexingJob) :
    Option (AttachResult × Database) :=
  let stored := storeRepository db call repository
  let row := stored.1
  if !member && attached db call.userId row.id then none
  else
    let joined := joinUser stored.2 member call.userId row.id
    let current := build.any (·.commitSha == call.metadata.defaultBranchSha) &&
      row.lastIndexedCommitSha == some call.metadata.defaultBranchSha
    match job with
    | some job => some (⟨row.id, some job.id, current, none⟩, joined)
    | none =>
        if current then some (⟨row.id, none, current, none⟩, joined)
        else
          let job := importJob (newJobId db) call.now call.userId call.manual call.metadata
            (importQueued call.manual row)
          some (⟨row.id, some job.id, current, some job.id⟩,
            insertJob (joined.updateRepositories (·.id == row.id) (importQueued call.manual)) job)

namespace ImportWorld

def setStage (world : ImportWorld) (place : Nat) (session : ImportSession) (stage : ImportStage) :
    ImportWorld :=
  { world with sessions := world.sessions.set place { session with stage := stage } }

/-- Execute the next statement of a session. -/
def execute (settings : Settings) (world : ImportWorld) (place : Nat) (session : ImportSession) :
    ImportWorld :=
  let call := session.call
  match session.stage with
  | .advisoryLock =>
      -- `pg_advisory_xact_lock` waits while another open import holds the key
      if world.sessions.any (·.locks call.metadata.repository.id) then world
      else world.setStage place session .selectRepository
  | .selectRepository =>
      let found := world.db.repositories.find? (publicRepositoryRow call.metadata.repository.id)
      if unexpectedRepository call found then world.setStage place session (.ended none)
      else
        match found with
        | some repository => world.setStage place session (.selectMembership repository)
        | none => world.setStage place session (.countAttachments none)
  | .selectMembership repository =>
      if attached world.db call.userId repository.id then
        world.setStage place session (.selectBuild (some repository) true)
      else world.setStage place session (.countAttachments (some repository))
  | .countAttachments repository =>
      if settings.publicRepositoryLimitPerUser ≤ attachmentCount world.db call.userId then
        world.setStage place session (.ended none)
      else world.setStage place session (.countActive repository)
  | .countActive repository =>
      if settings.publicImportActiveLimitPerUser ≤ activeImports world.db call.userId then
        world.setStage place session (.ended none)
      else world.setStage place session (.selectBuild repository false)
  | .selectBuild repository member =>
      world.setStage place session
        (.selectJob repository member (repository.bind (builtVersion world.db)))
  | .selectJob repository member build =>
      world.setStage place session
        (.commit repository member build (repository.bind (newestLiveJob world.db)))
  | .commit repository member build job =>
      match commitImport world.db call repository member build job with
      | none => world.setStage place session (.ended none)
      | some (result, db) => { world.setStage place session (.ended (some result)) with db := db }
  | .ended _ => world

/-- Execute the next statement of the session in a place. -/
def advance (settings : Settings) (world : ImportWorld) (place : Nat) : ImportWorld :=
  match world.sessions[place]? with
  | none => world
  | some session => world.execute settings place session

def start (world : ImportWorld) (call : ImportCall) : ImportWorld :=
  { world with sessions := world.sessions ++ [{ call := call }] }

/-- The session's connection is lost, and its transaction rolls back. -/
def abort (world : ImportWorld) (place : Nat) : ImportWorld :=
  match world.sessions[place]? with
  | none => world
  | some session => world.setStage place session (.ended none)

end ImportWorld

/-- What happens next to the imports. `other` is any other transaction. -/
inductive ImportAction where
  | start (call : ImportCall)
  | advance (place : Nat)
  | abort (place : Nat)
  | other (db : Database)

def ImportWorld.apply (settings : Settings) (world : ImportWorld) : ImportAction → ImportWorld
  | .start call => world.start call
  | .advance place => world.advance settings place
  | .abort place => world.abort place
  | .other db => { world with db := db }

/-- Other transactions insert no attachment: `_attach` alone does. -/
def ImportWorld.Allowed (world : ImportWorld) : ImportAction → Prop
  | .other db => db.userRepositories.Sublist world.db.userRepositories
  | _ => True

/-- Any number of actions that each meet a condition on the state before it. -/
def ImportWorld.Path (settings : Settings) (condition : ImportWorld → ImportAction → Prop)
    (before after : ImportWorld) : Prop :=
  Relation.ReflTransGen (fun world next => ∃ action, world.Allowed action ∧
    condition world action ∧ next = world.apply settings action) before after

/-- The action belongs to an import. -/
def ImportAction.own : ImportAction → Bool
  | .other _ => false
  | _ => true

/-- Every action of a list is an import's and meets a condition where it is taken. -/
def ImportWorld.meets (settings : Settings) (condition : ImportWorld → ImportAction → Bool) :
    ImportWorld → List ImportAction → Bool
  | _, [] => true
  | world, action :: rest =>
      action.own && condition world action &&
        ImportWorld.meets settings condition (world.apply settings action) rest

theorem ImportWorld.path_of_meets {settings : Settings}
    {condition : ImportWorld → ImportAction → Bool} {world : ImportWorld}
    {actions : List ImportAction} (met : world.meets settings condition actions = true) :
    ImportWorld.Path settings (fun before action => condition before action = true) world
      (actions.foldl (ImportWorld.apply settings) world) := by
  induction actions generalizing world with
  | nil => exact .refl
  | cons action rest ih =>
      simp only [ImportWorld.meets, Bool.and_eq_true] at met
      obtain ⟨⟨own, holds⟩, later⟩ := met
      have allowed : world.Allowed action := by
        cases action with
        | start | advance | abort => exact trivial
        | other => cases own
      exact .head ⟨action, allowed, holds, rfl⟩ (ih later)

/-- One import alone, at one of its statements. -/
def ImportWorld.lone (db : Database) (call : ImportCall) (stage : ImportStage) : ImportWorld where
  db := db
  sessions := [{ call := call, stage := stage }]

/-- Eight statements end every import. -/
def loneImport (settings : Settings) (db : Database) (call : ImportCall) : ImportWorld :=
  (fun world : ImportWorld => world.advance settings 0)^[8] (.lone db call .advisoryLock)

end Codenaut.Services
