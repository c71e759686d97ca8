import Codenaut.ActiveIndex.Searchable
import Codenaut.Services.Runs

/-!
# Imports that find the index current

`_attach` compares commits to say that an index is current, and clears the
revocation of the repository but not its status. What it calls current is loaded
for a question only under the columns that the load reads.
-/

set_option autoImplicit false

namespace Codenaut.ActiveIndex

open Codenaut.Agent Codenaut.Core Codenaut.Db Codenaut.Indexing Codenaut.Relational
open Codenaut.Services

section Imports

variable {settings : Settings} {platform : Platform} {db stored : Database} {now : Timestamp}
  {userId : UserId} {metadata : GitHub.PublicRepository}
  {expectedRepositoryId : Option RepositoryId} {manual : Bool} {result : AttachResult}

/-- An import that finds the index current. -/
structure CurrentImport (db : Database) (now : Timestamp) (metadata : GitHub.PublicRepository)
    (result : AttachResult) (stored : Database) (row : Repository) : Prop where
  found : db.repositories.find? (publicRepositoryRow metadata.repository.id) = some row
  repository : result.repositoryId = row.id
  builds : stored.builds = db.builds
  repositories : stored.repositories =
    updateWhere (·.id == row.id) (importedRepository now metadata) db.repositories
  active : ∃ build ∈ db.builds, build.repositoryId = row.id ∧ build.state = .active

theorem joinUser_builds (db : Database) (member : Bool) (userId : UserId)
    (repositoryId : RepositoryId) :
    (joinUser db member userId repositoryId).builds = db.builds := by
  unfold joinUser
  split <;> rfl

theorem attach_current
    (accepted : attach settings db now userId metadata expectedRepositoryId manual =
      some (result, stored)) (current : result.alreadyCurrent = true) :
    ∃ row, CurrentImport db now metadata result stored row := by
  obtain ⟨member, rfl, place, matched⟩ : ∃ member,
      stored = importJoined db now metadata member userId ∧
        result.repositoryId = (importRow db now metadata).1.id ∧
        alreadyCurrent stored (importRow db now metadata).1 metadata.defaultBranchSha = true := by
    cases attach_outcome accepted with
    | joined member database place same => exact ⟨member, database, place, same ▸ current⟩
    | queued _ outdated =>
        rw [outdated] at current
        cases current
  simp only [alreadyCurrent, Bool.and_eq_true, Option.any_eq_true, beq_iff_eq] at matched
  obtain ⟨⟨build, located, -⟩, commit⟩ := matched
  cases found : db.repositories.find? (publicRepositoryRow metadata.repository.id) with
  | none =>
      -- an inserted repository has no indexed commit
      simp [importRow, found, importedRepository, newPublicRepository] at commit
  | some row =>
      have imported : importRow db now metadata = (importedRepository now metadata row,
          db.updateRepositories (·.id == row.id) (importedRepository now metadata)) := by
        rw [importRow, found]
      rw [imported] at place located
      have built := List.mem_of_find?_eq_some located
      have key := List.find?_some located
      simp only [Bool.and_eq_true, beq_iff_eq] at key
      rw [importJoined, joinUser_builds, imported] at built
      refine ⟨row, found, place, ?_, ?_, build, built, key.1.1, key.2⟩
      · rw [importJoined, joinUser_builds, imported]
        rfl
      · rw [importJoined, joinUser_repositories, imported]
        rfl

/-- What the import keeps of the row, a load reads. -/
theorem CurrentImport.loads_iff {row : Repository} (unique : UniqueKey (·.id) db.repositories)
    (imported : CurrentImport db now metadata result stored row) :
    LoadsFor settings platform stored result.repositoryId ↔
      (loadActiveIndex settings platform db row).isSome = true := by
  have member := List.mem_of_find?_eq_some imported.found
  have same : loadActiveIndex settings platform stored (importedRepository now metadata row) =
      loadActiveIndex settings platform db row :=
    loadActiveIndex_congr imported.builds (importedRepository_kept now metadata row).toSameIndex rfl
  rw [← same]
  constructor
  · rintro ⟨next, nextMember, place, loads⟩
    rw [imported.repositories, mem_updateWhere] at nextMember
    obtain ⟨prior, priorMember, rfl⟩ := nextMember
    rw [imported.repository] at place
    have priorId : prior.id = row.id := by
      rw [← place]
      split <;> rfl
    have equal := unique.row_eq priorMember member priorId
    subst equal
    simpa using loads
  · intro loads
    refine ⟨importedRepository now metadata row, ?_, imported.repository.symm, loads⟩
    rw [imported.repositories, mem_updateWhere]
    exact ⟨row, member, by simp⟩

end Imports

/-- An index that an import calls current is loaded for questions just where the
stored repository was searchable before. -/
theorem current_import_searchable_iff (settings present : Settings) (platform : Platform)
    (journal : Journal) (now : Timestamp) (userId : UserId) (metadata : GitHub.PublicRepository)
    (expectedRepositoryId : Option RepositoryId) (manual : Bool) (result : AttachResult)
    (stored : Database) (reachable : Journal.Reachable settings platform journal)
    (accepted : attach present journal.database now userId metadata expectedRepositoryId manual =
      some (result, stored)) (current : result.alreadyCurrent = true) :
    LoadsFor present platform stored result.repositoryId ↔
      ∃ row, journal.database.repositories.find?
          (publicRepositoryRow metadata.repository.id) = some row ∧
        Searchable present platform journal.database row := by
  have unique := (reachable_sound reachable).table.consistent.repositoryIds
  obtain ⟨row, imported⟩ := attach_current accepted current
  rw [imported.loads_iff unique,
    loads_iff_searchable reachable (List.mem_of_find?_eq_some imported.found), imported.found]
  constructor
  · exact fun searchable => ⟨row, rfl, searchable⟩
  · rintro ⟨other, same, searchable⟩
    exact Option.some.inj same ▸ searchable

namespace PublicSamples

open Onboarding

def metadata : GitHub.PublicRepository where
  repository := { repository "main" with isPrivate := false }
  defaultBranchSha := "first"

/-- A public repository that one worker indexed. -/
def imported : List Transaction :=
  ⟨{ now := 0 }, .attach 1 metadata none false⟩ :: indexing 0 ⟨1, 1, 1⟩ "worker" 1 "first"

def importedJournal : Journal :=
  ({ database := {} } : Journal).run settings platform imported

/-- The provider did not find the repository once. -/
def revokedJournal : Journal :=
  importedJournal.run settings platform [⟨{ now := 0 }, .revokePublic 1⟩]

theorem imported_reachable : Journal.Reachable settings platform importedJournal :=
  .run (by decide) .start

theorem revoked_reachable : Journal.Reachable settings platform revokedJournal :=
  .run (by decide) imported_reachable

/-- The result of importing the repository again. -/
def again (journal : Journal) : AttachResult × Database :=
  (attach settings journal.database 0 1 metadata none false).getD (⟨0, none, false, none⟩, {})

end PublicSamples

open Onboarding PublicSamples in
theorem imported_again_searchable :
    LoadsFor settings platform (again importedJournal).2
      (again importedJournal).1.repositoryId := by
  have stored : (importedJournal.database.repositories.find?
      (publicRepositoryRow metadata.repository.id)).isSome = true := by decide +kernel
  obtain ⟨row, found⟩ := Option.isSome_iff_exists.mp stored
  have loads : ∀ row ∈ importedJournal.database.repositories,
      (loadActiveIndex settings platform importedJournal.database row).isSome = true := by
    decide +kernel
  have member := List.mem_of_find?_eq_some found
  exact (current_import_searchable_iff settings settings platform importedJournal 0 1 metadata
    none false (again importedJournal).1 (again importedJournal).2 imported_reachable
    (by decide +kernel) (by decide +kernel)).mpr
      ⟨row, found, (loads_iff_searchable imported_reachable member).mp (loads row member)⟩

open Onboarding PublicSamples in
/-- Access returns, the index is called current, and no question loads it. -/
theorem revoked_again_unloaded : ¬ ∀ (settings : Settings) (platform : Platform)
    (journal : Journal) (now : Timestamp) (userId : UserId) (metadata : GitHub.PublicRepository)
    (expectedRepositoryId : Option RepositoryId) (manual : Bool) (result : AttachResult)
    (stored : Database), Journal.Reachable settings platform journal →
      attach settings journal.database now userId metadata expectedRepositoryId manual =
        some (result, stored) → result.alreadyCurrent = true → result.enqueue = none →
      LoadsFor settings platform stored result.repositoryId := by
  intro searchable
  obtain ⟨row, member, -, loads⟩ := searchable settings platform revokedJournal 0 1 metadata none
    false (again revokedJournal).1 (again revokedJournal).2 revoked_reachable (by decide +kernel)
    (by decide +kernel) (by decide +kernel)
  have unloaded : ∀ row ∈ (again revokedJournal).2.repositories,
      unloadable row.indexingStatus = true := by decide +kernel
  unfold loadActiveIndex at loads
  rw [unloaded row member] at loads
  cases loads

end Codenaut.ActiveIndex
