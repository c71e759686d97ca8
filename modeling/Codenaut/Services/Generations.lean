import Codenaut.Services.IndexingJobs.Statements
import Codenaut.Services.PublicRepositories
import Codenaut.Services.RepositoriesProperties

/-!
# Refresh generations statement by statement

The statements on `repositories` of the transactions that give a refresh its
generation, under READ COMMITTED. Pushes, manual reindexes and public refreshes
lock the row first; a metadata webhook reads it without a lock and writes the
generation it computed by primary key.
-/

set_option autoImplicit false

namespace Codenaut.Services

open Codenaut.Core Codenaut.Db Codenaut.Relational Codenaut.Transaction

/-- One call. What the statements on other tables decide (a live job for the
pushed commit, an active build, a unique constraint) is left open in its flags. -/
inductive RefreshTransaction where
  | push (installationId : InstallationId) (githubRepositoryId : Nat) (now : Timestamp)
      (ref : String) (after : CommitSha) (deleted jobExists : Bool)
  | metadata (installationId : InstallationId) (external : GitHub.Repository) (accepted : Bool)
  | reindex (repositoryId : RepositoryId)
  | refreshPublic (repositoryId : RepositoryId) (now : Timestamp)
      (metadata : GitHub.PublicRepository) (jobNeeded : Bool)

/-- The generation given to the refresh job of a repository. -/
structure Granted where
  repositoryId : RepositoryId
  generation : Nat
  deriving DecidableEq, Repr

abbrev RefreshScript := Script Repository Granted

/-- The columns of a loaded repository that a metadata webhook flushes onto the
stored row: the generation is written as the value computed from the loaded one. -/
def metadataColumns (external : GitHub.Repository) (loaded current : Repository) : Repository :=
  let described := metadataRepository external loaded
  { current with
    githubOwner := flushColumn loaded.githubOwner described.githubOwner current.githubOwner
    githubName := flushColumn loaded.githubName described.githubName current.githubName
    githubFullName :=
      flushColumn loaded.githubFullName described.githubFullName current.githubFullName
    githubUrl := flushColumn loaded.githubUrl described.githubUrl current.githubUrl
    defaultBranch := flushColumn loaded.defaultBranch described.defaultBranch current.defaultBranch
    isPrivate := flushColumn loaded.isPrivate described.isPrivate current.isPrivate
    refreshGeneration :=
      flushColumn loaded.refreshGeneration described.refreshGeneration current.refreshGeneration
    indexingStatus :=
      flushColumn loaded.indexingStatus described.indexingStatus current.indexingStatus
    indexingStage := flushColumn loaded.indexingStage described.indexingStage current.indexingStage }

def finish (accepted : Bool) : RefreshScript :=
  if accepted then .commit else .rollback

/-- Raise the generation of a locked repository and create its job. -/
def grant (repository : Repository) (change : Repository → Repository) (accepted : Bool) :
    RefreshScript :=
  .flush repository change
    (.note ⟨repository.id, repository.refreshGeneration + 1⟩ (finish accepted))

def notedDelivery (now : Timestamp) (row : Repository) : Repository :=
  { row with
    lastDeliveryStatus := some .stale
    lastDeliveryAt := some now }

def refreshProgram : RefreshTransaction → RefreshScript
  | .push installationId githubRepositoryId now ref after deleted jobExists =>
      .lock (reachableRepository installationId githubRepositoryId) fun
        | none => .commit
        | some repository =>
            if ref ≠ "refs/heads/" ++ repository.defaultBranch ∨ deleted = true ∨
                after = zeroSha then
              .commit
            else if repository.lastIndexedCommitSha = some after then
              .flush repository (notedDelivery now) .commit
            else if jobExists then .commit
            else grant repository (pushedRepository now after) true
  | .metadata installationId external accepted =>
      .fetch (reachableRepository installationId external.id) fun
        | none => .commit
        | some repository =>
            if repository.defaultBranch ≠ external.defaultBranch then
              grant repository (metadataColumns external repository) accepted
            else
              .update (·.id == repository.id) (metadataColumns external repository)
                fun _ => finish accepted
  | .reindex repositoryId =>
      .lock (·.id == repositoryId) fun
        | none => .rollback
        | some repository => grant repository reindexedRepository true
  | .refreshPublic repositoryId now metadata jobNeeded =>
      .lock (publicRepositoryRow metadata.repository.id) fun
        | none => .rollback
        | some repository =>
            if repository.id ≠ repositoryId then .rollback
            else if jobNeeded then
              grant repository (fun row => importQueued true (importedRepository now metadata row))
                true
            else .flush repository (importedRepository now metadata) .commit

/-- The stored generation is the one that the webhook read. -/
def sameGeneration (loaded current : Repository) : Bool :=
  current.refreshGeneration == loaded.refreshGeneration

/-! ## What a refresh commits -/

/-- Every grant is the raised generation of a written row; no generation falls. -/
structure GrantsRaised (writes : List (Write Repository)) (grants : List Granted) : Prop where
  raised : ∀ entry ∈ grants, ∃ write ∈ writes, write.base.id = entry.repositoryId ∧
    write.base.refreshGeneration < entry.generation ∧
    entry.generation = write.current.refreshGeneration
  monotone : ∀ write ∈ writes, write.base.refreshGeneration ≤ write.current.refreshGeneration
  single : grants.length ≤ 1

theorem GrantsRaised.unwritten : GrantsRaised [] [] :=
  ⟨by simp, by simp, by simp⟩

theorem GrantsRaised.kept {row new : Repository}
    (same : new.refreshGeneration = row.refreshGeneration) : GrantsRaised [⟨row, new⟩] [] :=
  ⟨by simp, by simp [same], by simp⟩

theorem GrantsRaised.granted {row new : Repository}
    (raised : new.refreshGeneration = row.refreshGeneration + 1) :
    GrantsRaised [⟨row, new⟩] [⟨row.id, row.refreshGeneration + 1⟩] :=
  ⟨by simp [raised], by simp [raised], by simp⟩

section Safe

variable {repository : Repository} {change : Repository → Repository}

theorem finish_safe (accepted : Bool) {writes : List (Write Repository)} {grants : List Granted}
    (final : GrantsRaised writes grants) :
    Safe (·.id) sameGeneration GrantsRaised (finish accepted) writes grants := by
  cases accepted with
  | false => trivial
  | true => exact final

/-- A grant on a row that is locked in the version the session loaded. -/
theorem grant_locked (accepted : Bool)
    (step : (change repository).id = repository.id ∧
      (change repository).refreshGeneration = repository.refreshGeneration + 1) :
    Safe (·.id) sameGeneration GrantsRaised (grant repository change accepted)
      [⟨repository, repository⟩] [] := by
  intro row same seen _
  have equal : repository = row := seen ⟨repository, repository⟩ (.head _) same.symm
  subst equal
  refine ⟨step.1, finish_safe accepted ?_⟩
  have written : Transaction.put (·.id) [⟨repository, repository⟩] repository (change repository) =
      [⟨repository, change repository⟩] := by
    simp [Transaction.put]
  rw [written]
  exact .granted step.2

/-- A flush that leaves the generation of a locked row alone. -/
theorem flush_locked (step : (change repository).id = repository.id ∧
      (change repository).refreshGeneration = repository.refreshGeneration) :
    Safe (·.id) sameGeneration GrantsRaised (.flush repository change .commit)
      [⟨repository, repository⟩] [] := by
  intro row same seen _
  have equal : repository = row := seen ⟨repository, repository⟩ (.head _) same.symm
  subst equal
  refine ⟨step.1, ?_⟩
  have written : Transaction.put (·.id) [⟨repository, repository⟩] repository (change repository) =
      [⟨repository, change repository⟩] := by
    simp [Transaction.put]
  rw [Safe, written]
  exact .kept step.2

end Safe

theorem put_single (row new : Repository) : Transaction.put (·.id) [] row new = [⟨row, new⟩] := by
  simp [Transaction.put]

/-- The computed generation is stored when the stored one is the one that was read. -/
theorem metadataColumns_generation {external : GitHub.Repository} {loaded current : Repository}
    (changed : loaded.defaultBranch ≠ external.defaultBranch)
    (fresh : sameGeneration loaded current = true) :
    (metadataColumns external loaded current).refreshGeneration =
      current.refreshGeneration + 1 := by
  simp only [sameGeneration, beq_iff_eq] at fresh
  simp [metadataColumns, metadataRepository, changed, flushColumn, fresh]

theorem metadataColumns_unchanged {external : GitHub.Repository} {loaded current : Repository}
    (unchanged : loaded.defaultBranch = external.defaultBranch) :
    (metadataColumns external loaded current).refreshGeneration = current.refreshGeneration := by
  simp [metadataColumns, metadataRepository, unchanged, flushColumn]

/-- Every call is safe when metadata webhooks write on the generation they read. -/
theorem refreshProgram_safe :
    SafeProgram (·.id) sameGeneration (fun _ => GrantsRaised) refreshProgram := by
  intro transaction
  cases transaction with
  | push installationId githubRepositoryId now ref after deleted jobExists =>
      refine ⟨.unwritten, fun repository _ _ => ?_⟩
      rw [put_single]
      dsimp only
      split
      · exact .kept rfl
      · split
        · exact flush_locked ⟨rfl, rfl⟩
        · split
          · exact .kept rfl
          · exact grant_locked true ⟨rfl, rfl⟩
  | metadata installationId external accepted =>
      refine ⟨.unwritten, fun repository _ _ => ?_⟩
      dsimp only
      split
      case isTrue changed =>
        intro row same _ fresh
        have current := fresh (by simp)
        have generation := metadataColumns_generation changed current
        refine ⟨rfl, finish_safe accepted ?_⟩
        rw [put_single]
        simp only [sameGeneration, beq_iff_eq] at current
        have sameId : row.id = repository.id := same
        rw [← sameId, ← current]
        exact .granted generation
      case isFalse unchanged =>
        refine ⟨finish_safe accepted .unwritten, fun row _ _ => ⟨rfl, finish_safe accepted ?_⟩⟩
        rw [put_single]
        exact .kept (metadataColumns_unchanged (not_not.mp unchanged))
  | reindex repositoryId =>
      refine ⟨trivial, fun repository _ _ => ?_⟩
      rw [put_single]
      exact grant_locked true ⟨rfl, rfl⟩
  | refreshPublic repositoryId now metadata jobNeeded =>
      refine ⟨trivial, fun repository _ _ => ?_⟩
      rw [put_single]
      dsimp only
      split
      · trivial
      · split
        · exact grant_locked true ⟨rfl, rfl⟩
        · exact flush_locked ⟨rfl, rfl⟩

/-! ## Runs -/

abbrev RefreshState := State Repository Granted RefreshTransaction

abbrev RefreshLog := List (Transaction.Commit Repository Granted RefreshTransaction)

/-- The generations given to one repository's refresh jobs, newest first. -/
def grantedOf (log : RefreshLog) (repositoryId : RepositoryId) : List Nat :=
  log.flatMap fun commit =>
    (commit.notes.filter (·.repositoryId == repositoryId)).map (·.generation)

/-- Given generations fall towards the past and stay within the stored one. -/
structure GrantsOrdered (table : List Repository) (log : RefreshLog) : Prop where
  ordered : ∀ repositoryId, (grantedOf log repositoryId).Pairwise (· > ·)
  bounded : ∀ repositoryId, ∀ generation ∈ grantedOf log repositoryId,
    ∃ row ∈ table, row.id = repositoryId ∧ generation ≤ row.refreshGeneration

theorem grantedOf_cons (commit : Transaction.Commit Repository Granted RefreshTransaction)
    (log : RefreshLog) (repositoryId : RepositoryId) :
    grantedOf (commit :: log) repositoryId =
      (commit.notes.filter (·.repositoryId == repositoryId)).map (·.generation) ++
        grantedOf log repositoryId := by
  simp [grantedOf]

private theorem pairwise_of_short {related : Nat → Nat → Prop} {values : List Nat}
    (short : values.length ≤ 1) : values.Pairwise related := by
  match values, short with
  | [], _ => exact .nil
  | [value], _ => exact List.pairwise_singleton related value

theorem GrantsOrdered.commit {table : List Repository} {log : RefreshLog}
    {commit : Transaction.Commit Repository Granted RefreshTransaction}
    (ordered : GrantsOrdered table log) (unique : UniqueKey (·.id) table)
    (committed : Committed (·.id) table commit)
    (raised : GrantsRaised commit.writes commit.notes) :
    GrantsOrdered (table.map (own (·.id) commit.writes)) (commit :: log) := by
  have evolved := committed.evolves unique
    (fun old new => old.refreshGeneration ≤ new.refreshGeneration) (fun _ => Nat.le_refl _)
    raised.monotone
  have written : ∀ entry ∈ commit.notes, ∃ row ∈ table, row.id = entry.repositoryId ∧
      row.refreshGeneration < entry.generation ∧
      (own (·.id) commit.writes row).refreshGeneration = entry.generation := by
    intro entry member
    obtain ⟨write, writeMember, place, below, current⟩ := raised.raised entry member
    refine ⟨write.base, committed.based write writeMember, place, below, ?_⟩
    rw [own_of_mem committed.distinct writeMember rfl]
    exact current.symm
  constructor
  · intro repositoryId
    rw [grantedOf_cons]
    refine List.pairwise_append.mpr ⟨?_, ordered.ordered repositoryId, ?_⟩
    · have short : ((commit.notes.filter (·.repositoryId == repositoryId)).map
          (·.generation)).length ≤ 1 := by
        rw [List.length_map]
        exact Nat.le_trans (List.length_filter_le _ _) raised.single
      exact pairwise_of_short short
    · intro new newMember old oldMember
      obtain ⟨entry, entryMember, rfl⟩ := List.mem_map.mp newMember
      obtain ⟨entryIn, place⟩ := List.mem_filter.mp entryMember
      obtain ⟨row, rowMember, rowId, below, _⟩ := written entry entryIn
      obtain ⟨bound, boundMember, boundId, within⟩ := ordered.bounded repositoryId old oldMember
      have same : bound = row := unique.row_eq boundMember rowMember
        (boundId.trans ((beq_iff_eq.mp place).symm.trans rowId.symm))
      exact Nat.lt_of_le_of_lt (same ▸ within) below
  · intro repositoryId generation member
    rw [grantedOf_cons] at member
    rcases List.mem_append.mp member with new | old
    · obtain ⟨entry, entryMember, rfl⟩ := List.mem_map.mp new
      obtain ⟨entryIn, place⟩ := List.mem_filter.mp entryMember
      obtain ⟨row, rowMember, rowId, _, current⟩ := written entry entryIn
      refine ⟨own (·.id) commit.writes row, List.mem_map_of_mem rowMember, ?_,
        Nat.le_of_eq current.symm⟩
      exact (key_own committed.keyed row).trans (rowId.trans (beq_iff_eq.mp place))
    · obtain ⟨row, rowMember, rowId, within⟩ := ordered.bounded repositoryId generation old
      obtain ⟨next, nextMember, step, nextId⟩ := evolved.successor rowMember
      exact ⟨next, nextMember, nextId.trans rowId, Nat.le_trans within step⟩

/-- An interleaving of refresh transactions on a table of repositories. -/
def refreshRun (repositories : List Repository) (actions : List (Action RefreshTransaction)) :
    RefreshState :=
  State.run (·.id) { table := repositories } refreshProgram actions

/-- Every branch-changing metadata webhook writes on the generation that it read. -/
def metadataFresh (repositories : List Repository)
    (actions : List (Action RefreshTransaction)) : Bool :=
  State.freshRun (·.id) sameGeneration refreshProgram { table := repositories } actions

/-- In every interleaving with fresh metadata writes, each accepted refresh of a
repository is given a generation above all generations given before it. -/
theorem fresh_grants_increasing {repositories : List Repository}
    (unique : UniqueKey (·.id) repositories) {actions : List (Action RefreshTransaction)}
    (fresh : metadataFresh repositories actions = true) (repositoryId : RepositoryId) :
    (grantedOf (refreshRun repositories actions).log repositoryId).Pairwise (· > ·) ∧
    (grantedOf (refreshRun repositories actions).log repositoryId).Nodup := by
  have start : StateOk (·.id) sameGeneration (fun _ => GrantsRaised)
      ({ table := repositories } : RefreshState) := .ofTable unique
  have ordered : GrantsOrdered (refreshRun repositories actions).table
      (refreshRun repositories actions).log :=
    start.run_rule refreshProgram_safe GrantsOrdered ⟨by simp [grantedOf], by simp [grantedOf]⟩
      (fun _ _ _ prior unique committed raised => prior.commit unique committed raised) actions
      fresh
  refine ⟨ordered.ordered repositoryId, (ordered.ordered repositoryId).imp ?_⟩
  exact fun above => Nat.ne_of_gt above

/-! ## A metadata webhook that overlaps a push -/

namespace Overlap

def repository : Repository where
  id := 1
  installationId := some 1
  githubRepositoryId := 21
  githubOwner := "acme"
  githubName := "app"
  githubFullName := "acme/app"
  githubUrl := "https://github.com/acme/app"
  isPrivate := true
  defaultBranch := "main"
  lastIndexedCommitSha := some "first"
  indexVersion := 1

def renamed : GitHub.Repository where
  id := 21
  ownerLogin := "acme"
  name := "app"
  fullName := "acme/app"
  htmlUrl := "https://github.com/acme/app"
  isPrivate := true
  defaultBranch := "trunk"

def branchChange : RefreshTransaction := .metadata 1 renamed true

def push : RefreshTransaction := .push 1 21 0 "refs/heads/main" "second" false false

/-- The webhook reads the row, a push runs to its commit, then the webhook writes. -/
def overlap : List (Action RefreshTransaction) :=
  [.start branchChange, .step 0, .start push, .step 1, .step 1, .step 1, .step 1,
    .step 0, .step 0, .step 0]

/-- The push commits before the webhook reads. -/
def serial : List (Action RefreshTransaction) :=
  [.start push, .step 0, .step 0, .step 0, .step 0,
    .start branchChange, .step 1, .step 1, .step 1, .step 1]

end Overlap

open Overlap in
/-- Two refresh jobs of one repository are given the same generation. -/
theorem overlapping_grants_equal :
    grantedOf (refreshRun [repository] overlap).log 1 = [1, 1] ∧
    ¬ (grantedOf (refreshRun [repository] overlap).log 1).Pairwise (· > ·) ∧
    ¬ (grantedOf (refreshRun [repository] overlap).log 1).Nodup := by
  decide

open Overlap in
theorem serial_grants_increasing :
    grantedOf (refreshRun [repository] serial).log 1 = [2, 1] ∧
    (grantedOf (refreshRun [repository] serial).log 1).Pairwise (· > ·) :=
  ⟨by decide, (fresh_grants_increasing (by simp [UniqueKey]) (by decide) 1).1⟩

end Codenaut.Services
