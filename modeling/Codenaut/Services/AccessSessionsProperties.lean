import Codenaut.Services.AccessSessions

/-!
# Withdrawals under concurrency

No webhook that withdraws access grants any. A synchronization or a sign-in
grants a row only if it loaded the row as withdrawn, so that what a webhook has
withdrawn since a listing stays withdrawn unless a flush grants just that row.
-/

set_option autoImplicit false

namespace Codenaut.Services

open Codenaut.Db Codenaut.Relational Codenaut.Transaction

/-! ## Flushes -/

/-- What a row is on GitHub. -/
inductive AccessIdentity where
  | installation (githubInstallationId : Nat)
  | repository (installationId : Option InstallationId) (githubRepositoryId : Nat)

def accessIdentity : AccessRow → AccessIdentity
  | .installation row => .installation row.githubInstallationId
  | .repository row => .repository row.installationId row.githubRepositoryId

theorem sameIdentity_iff {left right : AccessRow} :
    left.sameIdentity right = true ↔ accessIdentity left = accessIdentity right := by
  cases left <;> cases right <;> simp [AccessRow.sameIdentity, accessIdentity]

/-- A flush keeps keys and identities. It keeps a withdrawn row withdrawn if it
belongs to a webhook, or does not grant the row it loaded. -/
structure Withholds (webhook : Bool) (loaded : AccessRow) (change : AccessRow → AccessRow) :
    Prop where
  key : ∀ row, accessKey (change row) = accessKey row
  identity : ∀ row, accessIdentity (change row) = accessIdentity row
  withdrawn : ∀ row : AccessRow, row.withdrawn = true →
    (webhook = true ∨ (loaded.withdrawn = true → (change loaded).withdrawn = true)) →
    (change row).withdrawn = true

/-- A webhook inserts installations only, those that it withdraws as withdrawn. -/
def Inserts (call : AccessCall) (note : AccessNote) : Prop :=
  call.withdraws note = true →
    note.withdrawn = true ∧ ∃ row, note = .installation row

def Careful (call : AccessCall) : AccessScript → Prop
  | .commit | .rollback => True
  | .fetch _ next | .lock _ next => ∀ found, Careful call (next found)
  | .scan _ next => ∀ rows, Careful call (next rows)
  | .update _ _ _ => False
  | .flush loaded change next => Withholds call.webhook loaded change ∧ Careful call next
  | .note note next => Inserts call note ∧ Careful call next

section Careful

variable {call : AccessCall} {next : AccessScript}

theorem flushInstallation_careful {loaded new : GitHubInstallation}
    (withholds : call.webhook = true → new.status = .active → loaded.status = .active)
    (careful : Careful call next) : Careful call (flushInstallation loaded new next) := by
  unfold flushInstallation
  split
  · exact careful
  · refine ⟨⟨fun row => by cases row <;> rfl, fun row => by cases row <;> rfl, ?_⟩, careful⟩
    intro row withdrawn spared
    cases row with
    | repository row => exact withdrawn
    | installation row =>
        simp only [AccessRow.withdrawn, onInstallation, flushedInstallation, writtenColumn,
          bne_iff_ne] at withdrawn spared ⊢
        split
        · exact withdrawn
        case isFalse changed =>
            intro active
            rcases spared with hook | grants
            · exact changed (active.trans (withholds hook active).symm)
            · refine grants (fun same => changed (active.trans same.symm)) ?_
              rw [if_neg changed]
              exact active

theorem flushRepository_careful {loaded new : Repository} (listing : call.webhook = false)
    (careful : Careful call next) : Careful call (flushRepository loaded new next) := by
  unfold flushRepository
  split
  · exact careful
  · refine ⟨⟨fun row => by cases row <;> rfl, fun row => by cases row <;> rfl, ?_⟩, careful⟩
    intro row withdrawn spared
    cases row with
    | installation row => exact withdrawn
    | repository row =>
        simp only [AccessRow.withdrawn, onRepository, flushedRepository, writtenColumn]
          at withdrawn spared ⊢
        split
        · exact withdrawn
        case isFalse changed =>
            rw [if_neg changed] at spared
            cases granted : new.accessRevokedAt with
            | some _ => rfl
            | none =>
                have stored : loaded.accessRevokedAt.isSome = true := by
                  cases known : loaded.accessRevokedAt with
                  | some _ => rfl
                  | none => exact (changed (granted.trans known.symm)).elim
                have kept := spared.resolve_left (by simp [listing]) stored
                simp [granted] at kept

/-- The columns of a repository that a bulk UPDATE leaves. -/
structure RevokesRow (change : Repository → Repository) : Prop where
  id : ∀ row, (change row).id = row.id
  installationId : ∀ row, (change row).installationId = row.installationId
  githubRepositoryId : ∀ row, (change row).githubRepositoryId = row.githubRepositoryId
  revoked : ∀ row, (change row).accessRevokedAt.isSome = true

theorem updateRepositoriesWhere_careful {guard : Repository → Bool}
    {change : Repository → Repository} (revokes : RevokesRow change) :
    Careful call (updateRepositoriesWhere guard change) := by
  intro rows
  induction rows with
  | nil => trivial
  | cons row rest ih =>
      refine ⟨⟨?_, ?_, ?_⟩, ih⟩
      · intro other
        cases other with
        | installation other => rfl
        | repository other =>
            simp only [onRepository, accessKey]
            split
            · rw [revokes.id]
            · rfl
      · intro other
        cases other with
        | installation other => rfl
        | repository other =>
            simp only [onRepository, accessIdentity]
            split
            · rw [revokes.installationId, revokes.githubRepositoryId]
            · rfl
      · intro other withdrawn _
        cases other with
        | installation other => exact withdrawn
        | repository other =>
            simp only [onRepository, AccessRow.withdrawn] at withdrawn ⊢
            split
            · exact revokes.revoked other
            · exact withdrawn

theorem revokedRepository_revokes (now : Timestamp) : RevokesRow (revokedRepository now) :=
  ⟨fun _ => rfl, fun _ => rfl, fun _ => rfl, fun _ => rfl⟩

theorem inserts_of_listing (listing : call.webhook = false) (note : AccessNote) :
    Inserts call note := by
  intro withdraws
  cases call <;> cases listing <;> cases withdraws

theorem upsertListed_careful (installationId : InstallationId) (external : GitHub.Repository)
    (listing : call.webhook = false) (careful : Careful call next) :
    Careful call (upsertListed installationId external next) := by
  intro found
  dsimp only
  split
  · exact flushRepository_careful listing careful
  · exact ⟨inserts_of_listing listing _, careful⟩

theorem upsertSignedIn_careful (userId : UserId) (githubUserId : Nat)
    (external : GitHub.Installation) (listing : call.webhook = false) (careful : Careful call next) :
    Careful call (upsertSignedIn userId githubUserId external next) := by
  intro found
  dsimp only
  split
  · exact flushInstallation_careful (by simp [listing]) careful
  · exact ⟨inserts_of_listing listing _, careful⟩

theorem foldr_careful {External : Type} {upsert : External → AccessScript → AccessScript}
    (externals : List External)
    (each : ∀ external next, Careful call next → Careful call (upsert external next))
    (careful : Careful call next) : Careful call (externals.foldr upsert next) := by
  induction externals with
  | nil => exact careful
  | cons external rest ih => exact each external _ ih

theorem withdrawInstallation_careful {action : String}
    (known : action = "suspend" ∨ action = "deleted") (now : Timestamp)
    (external : GitHub.Installation) :
    Careful call (withdrawInstallation action now external) := by
  have inactive : ∀ row, (installationStatus (some action) now external row).status ≠ .active := by
    intro row active
    rcases known with rfl | rfl <;> cases active
  intro found
  dsimp only
  split
  case h_1 loaded =>
      exact flushInstallation_careful (fun _ active => active)
        (flushInstallation_careful (fun _ active => absurd active (inactive _))
          (updateRepositoriesWhere_careful (revokedRepository_revokes now)))
  case h_2 => exact ⟨fun _ => ⟨by simpa [AccessRow.withdrawn] using inactive _, _, rfl⟩, trivial⟩

theorem accessProgram_careful (call : AccessCall) : Careful call (accessProgram call) := by
  cases call with
  | synchronize now installationId member externals =>
      intro found
      dsimp only
      split
      case h_1 reauthorized =>
          exact foldr_careful externals
            (fun external _ => upsertListed_careful reauthorized.id external rfl)
            (updateRepositoriesWhere_careful (revokedRepository_revokes now))
      case h_2 => trivial
  | signIn userId githubUserId externals =>
      exact foldr_careful externals
        (fun external _ => upsertSignedIn_careful userId githubUserId external rfl) trivial
  | suspended now external => exact withdrawInstallation_careful (.inl rfl) now external
  | deleted now external => exact withdrawInstallation_careful (.inr rfl) now external
  | repositoriesRemoved now external removed =>
      intro found
      dsimp only
      split
      · exact flushInstallation_careful (fun _ active => active)
          (updateRepositoriesWhere_careful (revokedRepository_revokes now))
      · exact ⟨nofun, trivial⟩
  | repositoryDeleted now githubInstallationId githubRepositoryId =>
      intro found
      dsimp only
      split
      · exact updateRepositoriesWhere_careful
          ⟨fun _ => rfl, fun _ => rfl, fun _ => rfl, fun _ => rfl⟩
      · trivial

end Careful

/-! ## Commits -/

/-- A commit keeps identities, and one of a webhook grants nothing. -/
structure AccessCommit (call : AccessCall) (writes : List (Write AccessRow))
    (notes : List AccessNote) : Prop where
  withholds : call.webhook = true → ∀ write ∈ writes,
    write.base.withdrawn = true → write.current.withdrawn = true
  identity : ∀ write ∈ writes, accessIdentity write.current = accessIdentity write.base
  inserts : ∀ note ∈ notes, Inserts call note

theorem Careful.safe {call : AccessCall} {script : AccessScript}
    (careful : Careful call script) {writes : List (Write AccessRow)}
    {notes : List AccessNote} (kept : AccessCommit call writes notes) :
    Safe accessKey unchecked (AccessCommit call) script writes notes := by
  induction script generalizing writes notes with
  | commit => exact kept
  | rollback => trivial
  | fetch guard next ih => exact ⟨ih none (careful none) kept, fun row _ _ => ih _ (careful _) kept⟩
  | scan guard next ih => exact fun rows _ _ => ih rows (careful rows) kept
  | lock guard next ih =>
      refine ⟨ih none (careful none) kept, fun row _ seen => ih _ (careful _) ?_⟩
      refine ⟨fun hook => ?_, ?_, kept.inserts⟩
      · refine put_holds (fun base current => base.withdrawn = true → current.withdrawn = true)
          seen (kept.withholds hook) ?_
        rintro base _ (rfl | holds)
        · exact id
        · exact holds
      · refine put_holds (fun base current => accessIdentity current = accessIdentity base)
          seen kept.identity ?_
        rintro base _ (rfl | holds)
        · rfl
        · exact holds
  | update guard change next ih => exact careful.elim
  | flush loaded change next ih =>
      intro row same seen _
      refine ⟨careful.1.key row, ih careful.2 ⟨fun hook => ?_, ?_, kept.inserts⟩⟩
      · refine put_holds (fun base current => base.withdrawn = true → current.withdrawn = true)
          seen (kept.withholds hook) ?_
        rintro base _ (rfl | holds) withdrawn
        · exact careful.1.withdrawn base withdrawn (.inl hook)
        · exact careful.1.withdrawn row (holds withdrawn) (.inl hook)
      · refine put_holds (fun base current => accessIdentity current = accessIdentity base)
          seen kept.identity ?_
        rintro base _ (rfl | holds)
        · exact careful.1.identity base
        · exact (careful.1.identity row).trans holds
  | note note next ih =>
      refine ih careful.2 ⟨kept.withholds, kept.identity, ?_⟩
      rintro other (_ | ⟨_, earlier⟩)
      · exact careful.1
      · exact kept.inserts other earlier

theorem accessProgram_safe : SafeProgram accessKey unchecked AccessCommit accessProgram :=
  fun call => (accessProgram_careful call).safe ⟨by simp, by simp, by simp⟩

theorem freshRow_absent (table : List AccessRow) (row : AccessRow) :
    ∀ other ∈ table, accessKey other ≠ accessKey (freshRow table row) := by
  intro other member same
  cases row with
  | installation row =>
      cases other with
      | repository other => cases same
      | installation other =>
          have stored : other ∈ storedInstallations table :=
            List.mem_filterMap.mpr ⟨_, member, rfl⟩
          have known : other.id ∈ (storedInstallations table).map (·.id) :=
            List.mem_map_of_mem stored
          have equal : other.id = freshKey ((storedInstallations table).map (·.id)) :=
            AccessKey.installation.inj same
          exact freshKey_not_mem _ (equal ▸ known)
  | repository row =>
      cases other with
      | installation other => cases same
      | repository other =>
          have stored : other ∈ storedRepositories table :=
            List.mem_filterMap.mpr ⟨_, member, rfl⟩
          have known : other.id ∈ (storedRepositories table).map (·.id) :=
            List.mem_map_of_mem stored
          have equal : other.id = freshKey ((storedRepositories table).map (·.id)) :=
            AccessKey.repository.inj same
          exact freshKey_not_mem _ (equal ▸ known)

theorem insertedRows_unique {table : List AccessRow} (unique : UniqueKey accessKey table)
    (notes : List AccessNote) : UniqueKey accessKey (table ++ insertedRows table notes) := by
  induction notes with
  | nil => simpa [insertedRows] using unique
  | cons row earlier ih =>
      simp only [insertedRows]
      split
      · have keys : ((insertedRows table earlier).map fun other =>
            if row.sameIdentity other then row.identifiedAs other else other).map accessKey =
              (insertedRows table earlier).map accessKey := by
          rw [List.map_map]
          refine List.map_congr_left fun other _ => ?_
          simp only [Function.comp_apply]
          split
          · cases row <;> cases other <;> rfl
          · rfl
        unfold UniqueKey at ih ⊢
        rw [List.map_append, keys, ← List.map_append]
        exact ih
      · rw [← List.append_assoc]
        exact ih.insert (freshRow_absent _ row)

theorem accessInsertion_lawful : Insertion.Lawful accessKey accessInsertion := by
  intro table notes rows unique inserted
  simp only [accessInsertion] at inserted
  split at inserted <;> cases inserted
  exact insertedRows_unique unique notes

theorem accessInsertion_some {table : List AccessRow} {notes : List AccessNote}
    {rows : List AccessRow} (inserted : accessInsertion table notes = some rows) :
    rows = insertedRows table notes ∧ accessConstraints (table ++ rows) = true := by
  simp only [accessInsertion] at inserted
  split at inserted
  case isTrue constraints =>
    cases inserted
    exact ⟨rfl, constraints⟩
  case isFalse => cases inserted

theorem identifiedAs_same {row other : AccessRow} (same : row.sameIdentity other = true) :
    accessIdentity (row.identifiedAs other) = accessIdentity row ∧
      (row.identifiedAs other).withdrawn = row.withdrawn := by
  cases row <;> cases other
  · exact ⟨rfl, rfl⟩
  · cases same
  · cases same
  · exact ⟨rfl, rfl⟩

theorem freshRow_same (table : List AccessRow) (row : AccessRow) :
    accessIdentity (freshRow table row) = accessIdentity row ∧
      (freshRow table row).withdrawn = row.withdrawn := by
  cases row <;> exact ⟨rfl, rfl⟩

/-- A row is inserted for a note of its identity. -/
theorem insertedRows_note {table : List AccessRow} {notes : List AccessNote} {row : AccessRow}
    (member : row ∈ insertedRows table notes) :
    ∃ note ∈ notes, accessIdentity row = accessIdentity note ∧ row.withdrawn = note.withdrawn := by
  induction notes generalizing row with
  | nil => cases member
  | cons note earlier ih =>
      simp only [insertedRows] at member
      split at member
      · obtain ⟨other, inside, rfl⟩ := List.mem_map.mp member
        split
        case isTrue same => exact ⟨note, .head _, identifiedAs_same same⟩
        case isFalse =>
          obtain ⟨source, listed, facts⟩ := ih inside
          exact ⟨source, .tail _ listed, facts⟩
      · rcases List.mem_append.mp member with inside | last
        · obtain ⟨source, listed, facts⟩ := ih inside
          exact ⟨source, .tail _ listed, facts⟩
        · rw [List.mem_singleton.mp last]
          exact ⟨note, .head _, freshRow_same _ note⟩

/-- A note has a row of its identity inserted. -/
theorem note_insertedRows (table : List AccessRow) {notes : List AccessNote} {note : AccessNote}
    (member : note ∈ notes) :
    ∃ row ∈ insertedRows table notes, accessIdentity row = accessIdentity note := by
  induction notes with
  | nil => cases member
  | cons first earlier ih =>
      simp only [insertedRows]
      split
      case isTrue found =>
        obtain ⟨other, inside, same⟩ := List.any_eq_true.mp found
        rcases List.mem_cons.mp member with rfl | listed
        · refine ⟨_, List.mem_map_of_mem inside, ?_⟩
          rw [if_pos same]
          exact (identifiedAs_same same).1
        · obtain ⟨row, stored, identity⟩ := ih listed
          refine ⟨_, List.mem_map_of_mem stored, ?_⟩
          split
          case isTrue equal =>
            exact ((identifiedAs_same equal).1.trans (sameIdentity_iff.mp equal)).trans identity
          case isFalse => exact identity
      case isFalse =>
        rcases List.mem_cons.mp member with rfl | listed
        · exact ⟨_, List.mem_append_right _ (List.mem_singleton_self _), (freshRow_same _ note).1⟩
        · obtain ⟨row, stored, identity⟩ := ih listed
          exact ⟨row, List.mem_append_left _ stored, identity⟩

/-- No two installations of the tables have one identity. -/
theorem accessConstraints_apart {left right : List AccessRow} {first second : GitHubInstallation}
    (constraints : accessConstraints (left ++ right) = true)
    (before : .installation first ∈ left) (after : .installation second ∈ right) :
    first.githubInstallationId ≠ second.githubInstallationId := by
  have unique := (Bool.and_eq_true_iff.mp constraints).1
  rw [decide_eq_true_eq, storedInstallations, List.filterMap_append, List.map_append,
    List.nodup_append] at unique
  exact unique.2.2 _ (List.mem_map_of_mem (List.mem_filterMap.mpr ⟨_, before, rfl⟩)) _
    (List.mem_map_of_mem (List.mem_filterMap.mpr ⟨_, after, rfl⟩))

/-! ## Runs -/

section Runs

variable {since : Nat} {log : List (Commit AccessRow AccessNote AccessCall)}

theorem logSince_cons {commit entry : Commit AccessRow AccessNote AccessCall}
    (member : entry ∈ logSince since (commit :: log)) :
    entry = commit ∨ entry ∈ logSince since log := by
  unfold logSince at member ⊢
  by_cases within : since ≤ log.length
  · have longer : (commit :: log).length - since = (log.length - since) + 1 := by
      simp only [List.length_cons]
      omega
    rw [longer, List.take_succ_cons] at member
    exact List.mem_cons.mp member
  · have none : (commit :: log).length - since = 0 := by
      simp only [List.length_cons]
      omega
    rw [none, List.take_zero] at member
    cases member

theorem withdrew_cases {commit : Commit AccessRow AccessNote AccessCall} {row : AccessRow}
    (withdrawn : withdrew commit row = true) :
    (∃ write ∈ commit.writes,
        write.current.withdrawn = true ∧ accessKey write.base = accessKey row) ∨
      ∃ note ∈ commit.notes, commit.label.withdraws note = true ∧
        accessIdentity note = accessIdentity row := by
  rcases Bool.or_eq_true_iff.mp withdrawn with written | noted
  · obtain ⟨write, member, facts⟩ := List.any_eq_true.mp written
    simp only [Bool.and_eq_true, beq_iff_eq] at facts
    exact .inl ⟨write, member, facts.1.2, facts.2⟩
  · obtain ⟨note, member, facts⟩ := List.any_eq_true.mp noted
    simp only [Bool.and_eq_true, sameIdentity_iff] at facts
    exact .inr ⟨note, member, facts.1.1, facts.2⟩

/-- What a longer log withdrew, the last commit or an earlier one did. -/
theorem withdrawnBy_cons {commit : Commit AccessRow AccessNote AccessCall} {row : AccessRow}
    (withdrawn : withdrawnBy (logSince since (commit :: log)) row = true) :
    withdrew commit row = true ∨ withdrawnBy (logSince since log) row = true := by
  obtain ⟨entry, member, withdrew⟩ := List.any_eq_true.mp withdrawn
  rcases logSince_cons member with rfl | earlier
  · exact .inl withdrew
  · exact .inr (List.any_eq_true.mpr ⟨entry, earlier, withdrew⟩)

theorem withdrawnBy_congr {row other : AccessRow} (key : accessKey row = accessKey other)
    (identity : accessIdentity row = accessIdentity other) :
    withdrawnBy log row = withdrawnBy log other := by
  have same : ∀ note : AccessNote, note.sameIdentity row = note.sameIdentity other := by
    intro note
    rw [Bool.eq_iff_iff, sameIdentity_iff, sameIdentity_iff, identity]
  simp only [withdrawnBy, withdrew, key, same]

/-- The session of a listing has granted no row withdrawn since. -/
structure Sparing (since : Nat) (table : List AccessRow)
    (log : List (Commit AccessRow AccessNote AccessCall))
    (session : Session AccessRow AccessNote AccessCall) : Prop where
  careful : Careful session.label session.script
  kept : session.label.webhook = false → ∀ write ∈ session.writes, write.base ∈ table →
    withdrawnBy (logSince since log) write.base = true →
      write.base.withdrawn = true → write.current.withdrawn = true

variable {state : AccessState} {session next : Session AccessRow AccessNote AccessCall}

theorem careful_executes (careful : Careful session.label session.script)
    (executes : Executes accessKey state.table session next) :
    Careful next.label next.script := by
  cases executes with
  | fetch script | scan script | lock script | lockNone script =>
      rw [script] at careful
      exact careful _
  | updateNone script | update script =>
      rw [script] at careful
      exact careful.elim
  | flushNone => trivial
  | flush script | note script =>
      rw [script] at careful
      exact careful.2

theorem Sparing.executes (sparing : Sparing since state.table log session)
    (ok : SessionOk accessKey unchecked AccessCommit state.table session)
    (spared : ∀ loaded change rest, session.script = .flush loaded change rest →
      session.label.webhook = false →
      ∀ row ∈ state.table, accessKey row = accessKey loaded →
        withdrawnBy (logSince since log) row = true →
          loaded.withdrawn = true → (change loaded).withdrawn = true)
    (executes : Executes accessKey state.table session next) :
    Sparing since state.table log next := by
  refine ⟨careful_executes sparing.careful executes, ?_⟩
  have kept := sparing.kept
  have seen : ∀ guard row,
      (state.table.map (own accessKey session.writes)).find? guard = some row →
        Seen accessKey session.writes row := fun guard row found =>
    (seen_of_view ok (List.mem_of_find?_eq_some found)).1
  let Holds : AccessRow → AccessRow → Prop := fun base current => base ∈ state.table →
    withdrawnBy (logSince since log) base = true → base.withdrawn = true →
      current.withdrawn = true
  cases executes with
  | fetch | scan | lockNone | updateNone | flushNone | note => exact kept
  | lock script found =>
      intro listing
      refine put_holds Holds (seen _ _ found) (kept listing) ?_
      rintro base _ (rfl | holds)
      · exact fun _ _ withdrawn => withdrawn
      · exact holds
  | update script =>
      have careful := sparing.careful
      rw [script] at careful
      exact careful.elim
  | @flush loaded row change rest script found =>
      have careful := sparing.careful
      rw [script] at careful
      have same : accessKey row = accessKey loaded := by simpa using List.find?_some found
      intro listing
      refine put_holds Holds (seen _ _ found) (kept listing) ?_
      intro base place held stored target withdrawn
      have stillWithdrawn : row.withdrawn = true := by
        rcases held with here | holds
        · exact here ▸ withdrawn
        · exact holds stored target withdrawn
      exact careful.1.withdrawn row stillWithdrawn
        (.inr (spared loaded change rest script listing base stored (place.trans same) target))

theorem spares_step {place : Nat}
    (spared : spares since state (.step place) = true) (located : state.sessions[place]? = some session)
    {loaded : AccessRow} {change : AccessRow → AccessRow} {rest : AccessScript}
    (script : session.script = .flush loaded change rest) (listing : session.label.webhook = false)
    {row : AccessRow} (stored : row ∈ state.table) (same : accessKey row = accessKey loaded)
    (target : withdrawnBy (logSince since state.log) row = true)
    (withdrawn : loaded.withdrawn = true) : (change loaded).withdrawn = true := by
  simp only [spares, located, script, listing, withdrawn, Bool.not_true, Bool.false_or,
    Bool.or_eq_true, List.all_eq_true] at spared
  refine spared.resolve_right fun none => ?_
  simpa [same, target] using none row stored

abbrev AccessCommits := Commits accessKey accessInsertion AccessCommit

abbrev AccessStateOk (state : AccessState) : Prop := StateOk accessKey unchecked AccessCommit state

/-- Any run whose steps spare what was withdrawn since a point of the log. -/
abbrev SparingPath (since : Nat) : AccessState → AccessState → Prop :=
  State.Path accessKey accessInsertion accessProgram
    fun state action => spares since state action = true

section Commits

variable {before after : AccessState} {place : Nat} {rows : List AccessRow}

theorem committed_cases (commits : AccessCommits before after place session rows)
    (ok : AccessStateOk before) {row : AccessRow} (stored : row ∈ before.table) :
    (∃ write ∈ session.writes, write.base = row ∧ own accessKey session.writes row = write.current) ∨
      own accessKey session.writes row = row := by
  by_cases locked : ∃ write ∈ session.writes, accessKey write.base = accessKey row
  · obtain ⟨write, member, same⟩ := locked
    exact .inl ⟨write, member, ok.unique.row_eq (commits.written.based write member) stored same,
      own_of_mem commits.written.distinct member same⟩
  · exact .inr (own_of_unlocked fun write member same => locked ⟨write, member, same⟩)

theorem committed_identity (commits : AccessCommits before after place session rows)
    (ok : AccessStateOk before) {row : AccessRow} (stored : row ∈ before.table) :
    accessIdentity (own accessKey session.writes row) = accessIdentity row := by
  rcases committed_cases commits ok stored with ⟨write, member, rfl, current⟩ | unlocked
  · rw [current]
    exact commits.final.identity write member
  · rw [unlocked]

/-- No row that is inserted has the identity of an installation in the table. -/
theorem inserted_new (commits : AccessCommits before after place session rows)
    (ok : AccessStateOk before) {row other : AccessRow} (stored : row ∈ before.table)
    (inserted : other ∈ rows) {id : Nat} (identity : accessIdentity row = .installation id) :
    accessIdentity other ≠ accessIdentity row := by
  intro same
  have member := List.mem_map_of_mem (f := own accessKey session.writes) stored
  have kept := committed_identity commits ok stored
  have constraints := (accessInsertion_some commits.inserted).2
  rw [identity] at kept same
  cases current : own accessKey session.writes row with
  | repository _ =>
      rw [current] at kept
      cases kept
  | installation first =>
      cases other with
      | repository _ => cases same
      | installation second =>
          rw [current] at kept member
          apply accessConstraints_apart constraints member inserted
          exact AccessIdentity.installation.inj (kept.trans same.symm)

/-- No row that is inserted has the key of a row in the table. -/
theorem inserted_key_new (commits : AccessCommits before after place session rows)
    (ok : AccessStateOk before) {row other : AccessRow} (stored : row ∈ before.table)
    (inserted : other ∈ rows) : accessKey other ≠ accessKey row := by
  have updated : UniqueKey accessKey (before.table.map (own accessKey session.writes)) := by
    have keys : accessKey ∘ own accessKey session.writes = accessKey :=
      funext fun row => key_own commits.written.keyed row
    rw [UniqueKey, List.map_map, keys]
    exact ok.unique
  have unique := accessInsertion_lawful _ _ _ updated commits.inserted
  rw [UniqueKey, List.map_append, List.nodup_append] at unique
  intro same
  refine unique.2.2 _ (List.mem_map_of_mem (List.mem_map_of_mem stored)) _
    (List.mem_map_of_mem inserted) ?_
  rw [key_own commits.written.keyed, same]

/-- An identity that a withdrawing webhook inserts is new. -/
theorem inserts_new (commits : AccessCommits before after place session rows)
    (ok : AccessStateOk before) {note : AccessNote} (member : note ∈ session.notes)
    (withdraws : session.label.withdraws note = true) {row : AccessRow}
    (stored : row ∈ before.table) : accessIdentity note ≠ accessIdentity row := by
  intro same
  obtain ⟨-, installation, rfl⟩ := commits.final.inserts note member withdraws
  obtain ⟨other, inserted, identity⟩ :=
    note_insertedRows (before.table.map (own accessKey session.writes)) member
  rw [← (accessInsertion_some commits.inserted).1] at inserted
  exact inserted_new commits ok stored inserted same.symm (identity.trans same)

end Commits

theorem SparingPath.sparing {opened state : AccessState} (ok : AccessStateOk opened)
    (careful : ∀ session ∈ opened.sessions, Careful session.label session.script)
    (path : SparingPath opened.log.length opened state) :
    AccessStateOk state ∧
      ∀ session ∈ state.sessions, Sparing opened.log.length state.table state.log session := by
  refine State.Path.sessions_rule accessInsertion_lawful accessProgram_safe ok
    (Sparing opened.log.length) ?_ ?_ ?_ ?_ ?_ path
  · intro session member
    exact ⟨careful session member, by simp [logSince, withdrawnBy]⟩
  · intro table log call
    exact ⟨accessProgram_careful call, by simp⟩
  · intro table log session
    exact ⟨trivial, by simp [State.finished]⟩
  · intro before place session next beforeOk spared located sparing executes
    refine sparing.executes (beforeOk.sessions session (List.mem_of_getElem? located)) ?_ executes
    intro loaded change rest script listing row stored same target withdrawn
    exact spares_step spared located script listing stored same target withdrawn
  · intro before after place session rows beforeOk _ commits other standing apart located sparing
    refine ⟨sparing.careful, fun listing write member _ target withdrawn => ?_⟩
    have stored := (beforeOk.sessions standing (List.mem_of_getElem? located)).based write member
    rw [commits.log] at target
    rcases withdrawnBy_cons target with own | earlier
    · rcases withdrew_cases own with ⟨own, ownMember, _, same⟩ | ⟨note, noteMember, withdraws, same⟩
      · exact (beforeOk.apart place other session standing (fun equal => apart equal.symm)
          commits.located located own ownMember write member same).elim
      · exact absurd same (inserts_new commits beforeOk noteMember withdraws stored)
    · exact sparing.kept listing write member stored earlier withdrawn

/-- Every commit of the log inserts as its call does. -/
def LogInserts (log : List (Commit AccessRow AccessNote AccessCall)) : Prop :=
  ∀ commit ∈ log, ∀ note ∈ commit.notes, Inserts commit.label note

theorem withdraws_congr {call : AccessCall} {left right : AccessRow}
    (identity : accessIdentity left = accessIdentity right) :
    call.withdraws left = call.withdraws right := by
  cases left <;> cases right
  · cases call <;> rfl
  · cases identity
  · cases identity
  · cases call <;> rfl

/-- A row that a commit inserts is new to the commits before, so that only the commit
itself can have withdrawn it. -/
theorem WithdrawalsKept.new_row {before after : AccessState} {place : Nat} {rows : List AccessRow}
    (kept : WithdrawalsKept since before) (inserts : LogInserts (logSince since before.log))
    (ok : AccessStateOk before) (commits : AccessCommits before after place session rows)
    {row : AccessRow} (inserted : row ∈ rows)
    (withdrawn : withdrawnBy (logSince since
      (⟨session.label, session.writes, session.notes⟩ :: before.log)) row = true) :
    row.withdrawn = true := by
  rcases withdrawnBy_cons withdrawn with own | earlier
  · rcases withdrew_cases own with ⟨write, listed, -, same⟩ | ⟨note, -, withdraws, same⟩
    · have stored := commits.written.based write listed
      exact absurd same.symm (inserted_key_new commits ok stored inserted)
    · rw [(accessInsertion_some commits.inserted).1] at inserted
      obtain ⟨source, listed, identity, status⟩ := insertedRows_note inserted
      rw [withdraws_congr (same.trans identity)] at withdraws
      rw [status]
      exact (commits.final.inserts source listed withdraws).1
  · obtain ⟨commit, listed, withdrew⟩ := List.any_eq_true.mp earlier
    rcases withdrew_cases withdrew with ⟨write, member, -, same⟩ | ⟨note, member, withdraws, same⟩
    · obtain ⟨other, stored, place⟩ := kept.updated commit listed write member
      exact absurd (same.symm.trans place.symm) (inserted_key_new commits ok stored inserted)
    · obtain ⟨other, stored, place⟩ := kept.inserted commit listed note member
      obtain ⟨-, installation, rfl⟩ := inserts commit listed note member withdraws
      have identity := (sameIdentity_iff.mp place).symm
      exact absurd (same.symm.trans identity.symm)
        (inserted_new commits ok stored inserted identity)

/-- A stored row stays withdrawn: what the commit writes to it is final for a webhook
and spares earlier withdrawals for a sync or sign-in. -/
theorem WithdrawalsKept.old_row {before after : AccessState} {place : Nat} {rows : List AccessRow}
    (kept : WithdrawalsKept since before) (ok : AccessStateOk before)
    (sparing : Sparing since before.table before.log session)
    (commits : AccessCommits before after place session rows) {base : AccessRow}
    (stored : base ∈ before.table)
    (withdrawn : withdrawnBy (logSince since
      (⟨session.label, session.writes, session.notes⟩ :: before.log))
        (own accessKey session.writes base) = true) :
    (own accessKey session.writes base).withdrawn = true := by
  have key := key_own commits.written.keyed base
  have identity := committed_identity commits ok stored
  rcases withdrawnBy_cons withdrawn with own | earlier
  · rcases withdrew_cases own with ⟨write, listed, current, same⟩ | ⟨note, listed, withdraws, same⟩
    · rw [own_of_mem commits.written.distinct listed (same.trans key)]
      exact current
    · exact absurd (same.trans identity) (inserts_new commits ok listed withdraws stored)
  · rw [withdrawnBy_congr key identity] at earlier
    have held := kept.withdrawn base stored earlier
    rcases committed_cases commits ok stored with ⟨write, listed, rfl, current⟩ | unlocked
    · rw [current]
      cases hook : session.label.webhook with
      | true => exact commits.final.withholds hook write listed held
      | false => exact sparing.kept hook write listed stored earlier held
    · rw [unlocked]
      exact held

theorem WithdrawalsKept.committed {before after : AccessState} {place : Nat}
    {rows : List AccessRow} (kept : WithdrawalsKept since before)
    (inserts : LogInserts (logSince since before.log)) (ok : AccessStateOk before)
    (sparing : Sparing since before.table before.log session)
    (commits : AccessCommits before after place session rows) : WithdrawalsKept since after := by
  have written := commits.written
  have stays : ∀ row ∈ before.table, own accessKey session.writes row ∈ after.table := by
    intro row stored
    rw [commits.table]
    exact List.mem_append_left _ (List.mem_map_of_mem stored)
  refine ⟨?_, ?_, ?_⟩
  · intro row member withdrawn
    rw [commits.log] at withdrawn
    rw [commits.table] at member
    rcases List.mem_append.mp member with updated | inserted
    · obtain ⟨base, stored, rfl⟩ := List.mem_map.mp updated
      exact kept.old_row ok sparing commits stored withdrawn
    · exact kept.new_row inserts ok commits inserted withdrawn
  · intro commit listed write member
    rw [commits.log] at listed
    rcases logSince_cons listed with rfl | earlier
    · refine ⟨_, stays write.base (written.based write member), ?_⟩
      exact key_own written.keyed write.base
    · obtain ⟨row, stored, same⟩ := kept.updated commit earlier write member
      exact ⟨_, stays row stored, (key_own written.keyed row).trans same⟩
  · intro commit listed note member
    rw [commits.log] at listed
    rcases logSince_cons listed with rfl | earlier
    · obtain ⟨row, inserted, same⟩ :=
        note_insertedRows (before.table.map (own accessKey session.writes)) member
      rw [← (accessInsertion_some commits.inserted).1] at inserted
      refine ⟨row, ?_, sameIdentity_iff.mpr same.symm⟩
      rw [commits.table]
      exact List.mem_append_right _ inserted
    · obtain ⟨row, stored, same⟩ := kept.inserted commit earlier note member
      refine ⟨_, stays row stored, sameIdentity_iff.mpr ?_⟩
      rw [committed_identity commits ok stored]
      exact sameIdentity_iff.mp same

end Runs

/-- Any run of synchronizations, sign-ins and withdrawing webhooks. -/
def AccessPath (table : List AccessRow) : AccessState → Prop :=
  State.Path accessKey accessInsertion accessProgram (fun _ _ => True) { table }

theorem AccessPath.careful {table : List AccessRow} (unique : UniqueKey accessKey table)
    {state : AccessState} (reached : AccessPath table state) : AccessStateOk state ∧
      ∀ session ∈ state.sessions, Careful session.label session.script := by
  refine State.Path.sessions_rule accessInsertion_lawful accessProgram_safe (.ofTable unique)
    (fun _ _ session => Careful session.label session.script) (by simp) ?_ ?_ ?_ ?_ reached
  · exact fun _ _ call => accessProgram_careful call
  · exact fun _ _ _ => trivial
  · exact fun _ _ _ _ _ _ _ careful executes => careful_executes careful executes
  · exact fun _ _ _ _ _ _ _ _ _ _ _ _ careful => careful

namespace Overlap

def account : GitHub.Account where
  id := 7
  login := "octocat"
  type := .user

def external : GitHub.Installation where
  id := 10
  account := account
  repositorySelection := .all

def listed : GitHub.Repository where
  id := 100
  ownerLogin := "octocat"
  name := "hello"
  fullName := "octocat/hello"
  htmlUrl := "octocat/hello"
  isPrivate := true
  defaultBranch := "main"

def table : List AccessRow :=
  [.installation { describedInstallation external (unstoredInstallation external) with id := 1 },
    .repository (newRepository 1 1 listed)]

def after (stored : List AccessRow) (actions : List (Action AccessCall)) : AccessState :=
  State.advances accessKey accessInsertion { table := stored } accessProgram actions

def steps (place count : Nat) : List (Action AccessCall) :=
  List.replicate count (.step place)

/-- The removal commits between the listing and the synchronization. -/
def removed : List (Action AccessCall) :=
  [.start (.synchronize 5 1 true [listed]), .start (.repositoriesRemoved 3 external [100])] ++
    steps 1 4 ++ steps 0 5

/-- The deletion commits between the listing and the sign-in. -/
def deleted : List (Action AccessCall) :=
  [.start (.signIn 1 7 [external]), .start (.deleted 3 external)] ++ steps 1 5 ++ steps 0 3

end Overlap

open Overlap

end Codenaut.Services
