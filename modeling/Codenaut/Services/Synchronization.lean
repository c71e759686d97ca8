import Codenaut.GitHub.Listing
import Codenaut.Relational.Labels
import Codenaut.Services.RepositoriesProperties
import Codenaut.Text.Separated

/-!
# Synchronization of an installation

`InstallationService.synchronize_repositories` (`app/services/installations.py`)
from the listing at the provider to the commit. Rows are matched by the
repository's number and constrained by its name as well, and every upsert is
flushed before the next one.
-/

set_option autoImplicit false

namespace Codenaut.Services

open Codenaut.Core Codenaut.Db Codenaut.Relational

/-- `synchronize_repositories`: the listing is fetched between two checks of the
membership, of which the second belongs to the transaction. -/
def synchronizeListing (settings : Settings) (earlier db : Database) (asked now : Timestamp)
    (userId : UserId) (installationId : InstallationId)
    (pages : Nat → Option (List GitHub.Repository)) : Option Database := do
  let _ ← authorizedInstallation settings earlier asked userId installationId
  let externals ← GitHub.listInstallationRepositories pages
  synchronizeRepositories settings db now userId installationId externals

/-! ## Stored states -/

/-- `access_mode_installation_valid`. -/
def accessModeValid (row : Repository) : Prop :=
  (row.accessMode = .publicAccess ∧ row.installationId = none ∧ row.isPrivate = false) ∨
    (row.accessMode = .githubInstallation ∧ row.installationId.isSome = true)

/-- The constraints of the table of repositories. -/
structure Constrained (rows : List Repository) : Prop where
  primary : UniqueKey (·.id) rows
  keys : repositoryKeysUnique rows = true
  modes : ∀ row ∈ rows, accessModeValid row

/-- The row of a repository of the installation. -/
def isListed (installationId : InstallationId) (githubId : Nat) (row : Repository) : Bool :=
  row.installationId == some installationId && row.githubRepositoryId == githubId

/-- The full names that the repositories of an installation have, by number. -/
def fullNames (installationId : InstallationId) (rows : List Repository) (githubId : Nat) :
    Option String :=
  (rows.find? (isListed installationId githubId)).map (·.githubFullName)

theorem isListed_iff {installationId : InstallationId} {githubId : Nat} {row : Repository} :
    isListed installationId githubId row = true ↔
      row.installationId = some installationId ∧ row.githubRepositoryId = githubId := by
  simp [isListed]

section Keys

/-- A constraint on the rows of a kind, as a statement about two of them. -/
theorem nodup_filter_map_iff {Row Key : Type} {rows : List Row} (distinct : rows.Nodup)
    (kind : Row → Bool) (key : Row → Key) :
    ((rows.filter kind).map key).Nodup ↔
      ∀ left ∈ rows, ∀ right ∈ rows, kind left = true → kind right = true →
        key left = key right → left = right := by
  rw [List.nodup_map_iff_inj_on (distinct.filter _)]
  simp only [List.mem_filter]
  constructor
  · intro unique left leftMember right rightMember leftKind rightKind same
    exact unique left ⟨leftMember, leftKind⟩ right ⟨rightMember, rightKind⟩ same
  · intro unique left leftMember right rightMember same
    exact unique left leftMember.1 right rightMember.1 leftMember.2 rightMember.2 same

theorem repositoryKeysUnique_iff {rows : List Repository} (distinct : rows.Nodup) :
    repositoryKeysUnique rows = true ↔
      (∀ left ∈ rows, ∀ right ∈ rows, left.installationId.isSome = true →
        left.installationId = right.installationId →
        left.githubRepositoryId = right.githubRepositoryId ∨
          left.githubFullName = right.githubFullName → left = right) ∧
      ∀ left ∈ rows, ∀ right ∈ rows, left.accessMode = .publicAccess →
        right.accessMode = .publicAccess →
        left.githubRepositoryId = right.githubRepositoryId → left = right := by
  simp only [repositoryKeysUnique, Bool.and_eq_true, decide_eq_true_eq,
    nodup_filter_map_iff distinct, Prod.mk.injEq, beq_iff_eq]
  constructor
  · rintro ⟨⟨numbers, names⟩, shared⟩
    refine ⟨fun left leftMember right rightMember owned same => ?_, shared⟩
    have rightOwned : right.installationId.isSome = true := same ▸ owned
    rintro (number | name)
    · exact numbers left leftMember right rightMember owned rightOwned ⟨same, number⟩
    · exact names left leftMember right rightMember owned rightOwned ⟨same, name⟩
  · rintro ⟨owned, shared⟩
    refine ⟨⟨?_, ?_⟩, shared⟩
    · intro left leftMember right rightMember leftOwned _ same
      exact owned left leftMember right rightMember leftOwned same.1 (.inl same.2)
    · intro left leftMember right rightMember leftOwned _ same
      exact owned left leftMember right rightMember leftOwned same.1 (.inr same.2)

variable {rows : List Repository} {installationId : InstallationId}

theorem Constrained.distinct (constrained : Constrained rows) : rows.Nodup :=
  List.Nodup.of_map _ constrained.primary

/-- A repository of an installation has one row. -/
theorem Constrained.row_eq (constrained : Constrained rows) {githubId : Nat}
    {left right : Repository} (leftMember : left ∈ rows) (rightMember : right ∈ rows)
    (leftListed : isListed installationId githubId left = true)
    (rightListed : isListed installationId githubId right = true) : left = right := by
  obtain ⟨leftOwner, leftNumber⟩ := isListed_iff.mp leftListed
  obtain ⟨rightOwner, rightNumber⟩ := isListed_iff.mp rightListed
  refine ((repositoryKeysUnique_iff constrained.distinct).mp constrained.keys).1 left leftMember
    right rightMember (by simp [leftOwner]) (leftOwner.trans rightOwner.symm)
    (.inl (leftNumber.trans rightNumber.symm))

theorem fullNames_eq_some (constrained : Constrained rows) {githubId : Nat} {name : String} :
    fullNames installationId rows githubId = some name ↔
      ∃ row ∈ rows, isListed installationId githubId row = true ∧ row.githubFullName = name := by
  simp only [fullNames, Option.map_eq_some_iff]
  constructor
  · rintro ⟨row, found, named⟩
    exact ⟨row, List.mem_of_find?_eq_some found, List.find?_some found, named⟩
  · rintro ⟨row, member, listed, named⟩
    cases found : rows.find? (isListed installationId githubId) with
    | none => exact absurd listed (by simpa using List.find?_eq_none.mp found row member)
    | some other =>
        refine ⟨other, rfl, ?_⟩
        have same := constrained.row_eq (List.mem_of_find?_eq_some found) member
          (List.find?_some found) listed
        exact same ▸ named

end Keys

/-! ## Upserts -/

section Upserts

variable {installationId : InstallationId} {db : Database} {external : GitHub.Repository}

/-- The row that an upsert writes. -/
def upsertedRow (installationId : InstallationId) (db : Database)
    (external : GitHub.Repository) : Repository :=
  listedRepository external
    ((db.repositories.find? (isListed installationId external.id)).getD
      (newRepository (newRepositoryId db) installationId external))

/-- The rows that an upsert flushes. -/
def upsertedRows (installationId : InstallationId) (db : Database)
    (external : GitHub.Repository) : List Repository :=
  match db.repositories.find? (isListed installationId external.id) with
  | some row => updateWhere (·.id == row.id) (listedRepository external) db.repositories
  | none => db.repositories ++ [upsertedRow installationId db external]

theorem upsertRepository_eq :
    upsertRepository installationId db external =
      flushRepositories { db with
        repositories := upsertedRows installationId db external } := by
  simp only [upsertRepository, upsertedRows, upsertedRow, Database.updateRepositories]
  change (match db.repositories.find? (isListed installationId external.id) with
    | some row => _
    | none => _) = _
  cases found : db.repositories.find? (isListed installationId external.id) <;> rfl

theorem upsertedRow_spec :
    isListed installationId external.id (upsertedRow installationId db external) = true ∧
      (upsertedRow installationId db external).githubFullName = external.fullName ∧
      (upsertedRow installationId db external).accessRevokedAt = none := by
  refine ⟨?_, rfl, rfl⟩
  rw [upsertedRow]
  cases found : db.repositories.find? (isListed installationId external.id) with
  | none => simp [isListed, listedRepository, restoredRepository, newRepository]
  | some row =>
      have listed : isListed installationId external.id row = true := List.find?_some found
      exact listed

/-- An upsert writes one row and leaves the rows of all other repositories. -/
theorem mem_upsertedRows (constrained : Constrained db.repositories) {row : Repository} :
    row ∈ upsertedRows installationId db external ↔
      row = upsertedRow installationId db external ∨
        row ∈ db.repositories ∧ isListed installationId external.id row = false := by
  unfold upsertedRows upsertedRow
  cases found : db.repositories.find? (isListed installationId external.id) with
  | none =>
      have others := List.find?_eq_none.mp found
      simp only [List.mem_append, List.mem_singleton, Option.getD_none]
      constructor
      · rintro (member | rfl)
        · exact .inr ⟨member, by simpa using others row member⟩
        · exact .inl rfl
      · rintro (rfl | ⟨member, -⟩)
        · exact .inr rfl
        · exact .inl member
  | some stored =>
      have storedMember := List.mem_of_find?_eq_some found
      have storedListed := List.find?_some found
      have selected {other : Repository} (member : other ∈ db.repositories) :
          other.id = stored.id ↔ isListed installationId external.id other = true := by
        constructor
        · intro same
          rw [constrained.primary.row_eq member storedMember same]
          exact storedListed
        · intro listed
          rw [constrained.row_eq member storedMember listed storedListed]
      simp only [mem_updateWhere, Option.getD_some, beq_iff_eq]
      constructor
      · rintro ⟨other, member, rfl⟩
        by_cases same : other.id = stored.id
        · rw [if_pos same, constrained.primary.row_eq member storedMember same]
          exact .inl rfl
        · rw [if_neg same]
          exact .inr ⟨member, by simpa using mt (selected member).mpr same⟩
      · rintro (rfl | ⟨member, unlisted⟩)
        · exact ⟨stored, storedMember, if_pos rfl⟩
        · refine ⟨row, member, if_neg fun same => ?_⟩
          simp [(selected member).mp same] at unlisted

theorem upsertedRows_primary (constrained : Constrained db.repositories) :
    UniqueKey (·.id) (upsertedRows installationId db external) := by
  unfold upsertedRows upsertedRow
  cases found : db.repositories.find? (isListed installationId external.id) with
  | none =>
      exact constrained.primary.insert fun other member => newRepositoryId_absent db other member
  | some stored => exact constrained.primary.updateWhere fun _ => rfl

theorem upsertedRows_modes (constrained : Constrained db.repositories) :
    ∀ row ∈ upsertedRows installationId db external, accessModeValid row := by
  intro row member
  rcases (mem_upsertedRows constrained).mp member with rfl | ⟨member, -⟩
  · rw [upsertedRow]
    cases found : db.repositories.find? (isListed installationId external.id) with
    | none => exact .inr ⟨rfl, rfl⟩
    | some stored =>
        have owner := (isListed_iff.mp (List.find?_some found)).1
        rcases constrained.modes stored (List.mem_of_find?_eq_some found) with shared | owned
        · simp [owner] at shared
        · exact .inr owned
  · exact constrained.modes row member

/-- An upsert breaks a key exactly if another repository of the installation has
the name it writes. -/
theorem upsertedRows_keys (constrained : Constrained db.repositories) :
    repositoryKeysUnique (upsertedRows installationId db external) = true ↔
      ∀ other, other ≠ external.id →
        fullNames installationId db.repositories other ≠ some external.fullName := by
  have rows := @mem_upsertedRows installationId db external constrained
  have distinct : (upsertedRows installationId db external).Nodup :=
    List.Nodup.of_map _ (upsertedRows_primary constrained)
  obtain ⟨listed, named, -⟩ := @upsertedRow_spec installationId db external
  obtain ⟨owner, number⟩ := isListed_iff.mp listed
  have written := (@rows (upsertedRow installationId db external)).mpr (.inl rfl)
  obtain ⟨ownedUnique, sharedUnique⟩ :=
    (repositoryKeysUnique_iff constrained.distinct).mp constrained.keys
  rw [repositoryKeysUnique_iff distinct]
  constructor
  · rintro ⟨unique, -⟩ other different held
    obtain ⟨row, member, rowListed, rowNamed⟩ := (fullNames_eq_some constrained).mp held
    obtain ⟨rowOwner, rowNumber⟩ := isListed_iff.mp rowListed
    have kept := (@rows row).mpr (.inr ⟨member, by simp [isListed, rowNumber, different]⟩)
    have same := unique _ written _ kept (by simp [owner]) (owner.trans rowOwner.symm)
      (.inr (named.trans rowNamed.symm))
    exact different (rowNumber.symm.trans (same ▸ number))
  · intro free
    -- No kept row of the installation has the number or the name of the written one.
    have apart : ∀ row ∈ db.repositories, isListed installationId external.id row = false →
        row.installationId = some installationId →
        row.githubRepositoryId ≠ external.id ∧ row.githubFullName ≠ external.fullName := by
      intro row member unlisted rowOwner
      have different : row.githubRepositoryId ≠ external.id := by
        simpa [isListed, rowOwner] using unlisted
      refine ⟨different, fun rowNamed => free row.githubRepositoryId different ?_⟩
      exact (fullNames_eq_some constrained).mpr
        ⟨row, member, isListed_iff.mpr ⟨rowOwner, rfl⟩, rowNamed⟩
    have private_ : (upsertedRow installationId db external).accessMode ≠ .publicAccess := by
      rcases upsertedRows_modes constrained _ written with shared | owned
      · simp [owner] at shared
      · simp [owned.1]
    constructor
    · intro left leftMember right rightMember leftOwned sameOwner same
      rcases rows.mp leftMember with rfl | ⟨leftMember, leftUnlisted⟩
      · rcases rows.mp rightMember with rfl | ⟨rightMember, rightUnlisted⟩
        · rfl
        · obtain ⟨numbered, titled⟩ := apart right rightMember rightUnlisted
            (sameOwner.symm.trans owner)
          rcases same with same | same
          · exact absurd (same.symm.trans number) numbered
          · exact absurd (same.symm.trans named) titled
      · rcases rows.mp rightMember with rfl | ⟨rightMember, -⟩
        · obtain ⟨numbered, titled⟩ := apart left leftMember leftUnlisted (sameOwner.trans owner)
          rcases same with same | same
          · exact absurd (same.trans number) numbered
          · exact absurd (same.trans named) titled
        · exact ownedUnique left leftMember right rightMember leftOwned sameOwner same
    · intro left leftMember right rightMember leftShared rightShared same
      rcases rows.mp leftMember with rfl | ⟨leftMember, -⟩
      · exact absurd leftShared private_
      · rcases rows.mp rightMember with rfl | ⟨rightMember, -⟩
        · exact absurd rightShared private_
        · exact sharedUnique left leftMember right rightMember leftShared rightShared same

theorem fullNames_upserted (constrained : Constrained db.repositories)
    (kept : Constrained (upsertedRows installationId db external)) :
    fullNames installationId (upsertedRows installationId db external) =
      Function.update (fullNames installationId db.repositories) external.id
        (some external.fullName) := by
  have rows := @mem_upsertedRows installationId db external constrained
  obtain ⟨listed, named, -⟩ := @upsertedRow_spec installationId db external
  funext githubId
  by_cases same : githubId = external.id
  · subst same
    rw [Function.update_self, fullNames_eq_some kept]
    exact ⟨_, rows.mpr (.inl rfl), listed, named⟩
  · rw [Function.update_of_ne same]
    apply Option.ext
    intro name
    rw [fullNames_eq_some kept, fullNames_eq_some constrained]
    have other {row : Repository} (rowListed : isListed installationId githubId row = true) :
        isListed installationId external.id row = false := by
      have number := (isListed_iff.mp rowListed).2
      simp [isListed, number, same]
    constructor
    · rintro ⟨row, member, rowListed, rowNamed⟩
      rcases rows.mp member with rfl | ⟨member, -⟩
      · simp [other rowListed] at listed
      · exact ⟨row, member, rowListed, rowNamed⟩
    · rintro ⟨row, member, rowListed, rowNamed⟩
      exact ⟨row, rows.mpr (.inr ⟨member, other rowListed⟩), rowListed, rowNamed⟩

/-- The upsert of a repository is the assignment of its name to its number. -/
theorem upsertRepository_refines (constrained : Constrained db.repositories) :
    (upsertRepository installationId db external = none ∧
      assign (fullNames installationId db.repositories) (external.id, external.fullName) = none) ∨
    ∃ stored, upsertRepository installationId db external = some stored ∧
      stored.repositories = upsertedRows installationId db external ∧
      Constrained stored.repositories ∧
      assign (fullNames installationId db.repositories) (external.id, external.fullName) =
        some (fullNames installationId stored.repositories) := by
  have keys := @upsertedRows_keys installationId db external constrained
  rw [upsertRepository_eq, flushRepositories]
  by_cases unique : repositoryKeysUnique (upsertedRows installationId db external) = true
  · have kept : Constrained (upsertedRows installationId db external) :=
      ⟨upsertedRows_primary constrained, unique, upsertedRows_modes constrained⟩
    refine .inr ⟨_, if_pos unique, rfl, kept, ?_⟩
    rw [assign_eq_some]
    exact ⟨keys.mp unique, fullNames_upserted constrained kept⟩
  · refine .inl ⟨if_neg unique, ?_⟩
    rw [assign_eq_none]
    have held := mt keys.mpr unique
    push Not at held
    exact held

/-- The flushed upserts of a listing refine the assignments of its names. -/
theorem upsertRepositories_isSome {db : Database} {externals : List GitHub.Repository}
    (constrained : Constrained db.repositories) :
    (externals.foldlM (upsertRepository installationId) db).isSome =
      ((externals.map fun external => (external.id, external.fullName)).foldlM assign
        (fullNames installationId db.repositories)).isSome := by
  induction externals generalizing db with
  | nil => rfl
  | cons external rest later =>
      rw [List.map_cons, List.foldlM_cons, List.foldlM_cons]
      rcases @upsertRepository_refines installationId db external constrained with
        ⟨failed, refused⟩ | ⟨stored, upserted, -, kept, assigned⟩
      · rw [failed, refused]
        rfl
      · rw [upserted, assigned]
        exact later kept

end Upserts

/-! ## Names -/

/-- Every stored repository of the installation that has the name of a listed one
and another number is listed before it. -/
def NamesFreed (installationId : InstallationId) (db : Database)
    (externals : List GitHub.Repository) : Prop :=
  ∀ position external, externals[position]? = some external → ∀ row ∈ db.repositories,
    row.installationId = some installationId → row.githubFullName = external.fullName →
    row.githubRepositoryId ≠ external.id →
    row.githubRepositoryId ∈ (externals.take position).map (·.id)

theorem namesFreed_iff {installationId : InstallationId} {db : Database}
    {externals : List GitHub.Repository} (constrained : Constrained db.repositories) :
    NamesFreed installationId db externals ↔
      FreedInTurn (fullNames installationId db.repositories)
        (externals.map fun external => (external.id, external.fullName)) := by
  unfold NamesFreed FreedInTurn
  simp only [List.getElem?_map, Option.map_eq_some_iff, ← List.map_take, List.map_map]
  constructor
  · rintro released position _ ⟨external, found, rfl⟩ other different held
    obtain ⟨row, member, listed, named⟩ := (fullNames_eq_some constrained).mp held
    obtain ⟨owner, rfl⟩ := isListed_iff.mp listed
    exact released position external found row member owner named different
  · intro released position external found row member owner named different
    refine released position _ ⟨external, found, rfl⟩ row.githubRepositoryId different ?_
    exact (fullNames_eq_some constrained).mpr
      ⟨row, member, isListed_iff.mpr ⟨owner, rfl⟩, named⟩

theorem upsertRepositories_isSome_iff {installationId : InstallationId} {db : Database}
    {externals : List GitHub.Repository} (constrained : Constrained db.repositories)
    (names : (externals.map (·.fullName)).Nodup) :
    (externals.foldlM (upsertRepository installationId) db).isSome = true ↔
      NamesFreed installationId db externals := by
  rw [upsertRepositories_isSome constrained, namesFreed_iff constrained,
    assignAll_isSome (by simpa [Function.comp_def] using names)]

/-- A transaction that is authorized and whose upserts go through commits. -/
theorem synchronizeRepositories_eq {settings : Settings} {db stored : Database} {now : Timestamp}
    {userId : UserId} {installationId : InstallationId} {installation : GitHubInstallation}
    {externals : List GitHub.Repository}
    (authorized : authorizedInstallation settings db now userId installationId =
      some installation)
    (upserted : externals.foldlM (upsertRepository installationId) db = some stored) :
    synchronizeRepositories settings db now userId installationId externals =
      some (stored.updateRepositories (unlisted installationId externals)
        (revokedRepository now)) := by
  have same := (authorizedInstallation_mem authorized).2
  rw [synchronizeRepositories, authorized]
  simp only [same, upserted, Option.map_some]

theorem synchronizeListing_eq {settings : Settings} {db final : Database} {now : Timestamp}
    {userId : UserId} {installationId : InstallationId} {installation : GitHubInstallation}
    {pages : Nat → Option (List GitHub.Repository)} {externals : List GitHub.Repository}
    (authorized : authorizedInstallation settings db now userId installationId =
      some installation)
    (fetched : GitHub.listInstallationRepositories pages = some externals)
    (committed : synchronizeRepositories settings db now userId installationId externals =
      some final) :
    synchronizeListing settings db db now now userId installationId pages = some final := by
  simp only [synchronizeListing, authorized, fetched, bind, Option.bind_some, committed]

/-- The transaction of a synchronization that is authorized commits exactly if
every stored name is released before the listing gives it to another
repository. -/
theorem sync_commits_iff {settings : Settings} {db : Database} {now : Timestamp}
    {userId : UserId} {installationId : InstallationId} {installation : GitHubInstallation}
    {externals : List GitHub.Repository} (constrained : Constrained db.repositories)
    (authorized : authorizedInstallation settings db now userId installationId =
      some installation)
    (names : (externals.map (·.fullName)).Nodup) :
    (synchronizeRepositories settings db now userId installationId externals).isSome = true ↔
      NamesFreed installationId db externals := by
  have same := (authorizedInstallation_mem authorized).2
  rw [synchronizeRepositories, authorized]
  simp only [Option.isSome_map, same]
  exact upsertRepositories_isSome_iff constrained names

/-! ### Two names -/

namespace TwoRepositories

def settings : Settings where
  embeddingModelIdentifier := "model"
  embeddingModelRevision := "revision"
  embeddingDimension := 1

def named (number : Nat) (name : String) : GitHub.Repository where
  id := number
  ownerLogin := "octo"
  name := name
  fullName := "octo/" ++ name
  htmlUrl := "https://github.com/octo/" ++ name
  isPrivate := true
  defaultBranch := "main"

/-- One member of an installation with the given repositories. -/
def stored (externals : List GitHub.Repository) : Database where
  repositories := externals.map fun external => newRepository external.id 1 external
  githubInstallations := [{
    id := 1
    githubInstallationId := 10
    accountType := .organization
    accountGithubId := 5
    accountLogin := "octo"
    repositorySelection := .selected }]
  installationMembers := [⟨1, 7, .owner, 0⟩]

theorem stored_constrained {externals : List GitHub.Repository}
    (numbers : (externals.map (·.id)).Nodup)
    (keys : repositoryKeysUnique (stored externals).repositories = true) :
    Constrained (stored externals).repositories where
  primary := by simpa [stored, UniqueKey, newRepository, Function.comp_def] using numbers
  keys := keys
  modes := by
    intro row member
    obtain ⟨external, -, rfl⟩ := List.mem_map.mp member
    exact .inr ⟨rfl, rfl⟩

end TwoRepositories

open TwoRepositories in
/-- A repository that is renamed to a name nobody holds. -/
theorem renamed_sync_commits :
    (synchronizeRepositories settings (stored [named 1 "api", named 2 "web"]) 0 7 1
      [named 1 "gateway", named 2 "web"]).isSome = true := by
  refine (sync_commits_iff (stored_constrained (by decide) (by decide +kernel)) rfl
    (by decide)).mpr fun position external listed row stored _ same other => ?_
  -- the only stored name that is listed again is that of its own repository
  have kept : ∀ external ∈ [named 1 "gateway", named 2 "web"],
      ∀ row ∈ (TwoRepositories.stored [named 1 "api", named 2 "web"]).repositories,
        row.githubFullName = external.fullName → row.githubRepositoryId = external.id := by
    decide +kernel
  exact absurd (kept external (List.mem_of_getElem? listed) row stored same) other

open TwoRepositories in
/-- Two repositories that exchange their names: the first upsert gives the name
of the second one away, and the flush is rejected. -/
theorem exchanged_names_rejected :
    let db := stored [named 1 "api", named 2 "web"]
    let externals := [named 1 "web", named 2 "api"]
    Constrained db.repositories ∧
      (authorizedInstallation settings db 0 7 1).isSome = true ∧
      (externals.map (·.id)).Nodup ∧ (externals.map (·.fullName)).Nodup ∧
      upsertRepository 1 db (named 1 "web") = none ∧
      synchronizeRepositories settings db 0 7 1 externals = none :=
  ⟨stored_constrained (by decide) (by decide +kernel), rfl, by decide, by decide,
    by decide +kernel, by decide +kernel⟩

/-! ## Revocation -/

section Revocation

variable {installationId : InstallationId} {externals : List GitHub.Repository}

/-- After a run of upserts the listed rows of the installation are unrevoked, and
the others are those stored before. -/
theorem upsertRepositories_rows {db stored : Database}
    (constrained : Constrained db.repositories)
    (upserted : externals.foldlM (upsertRepository installationId) db = some stored) :
    ∀ row ∈ stored.repositories, row.installationId = some installationId →
      (row.githubRepositoryId ∈ externals.map (·.id) → row.accessRevokedAt = none) ∧
        (row.githubRepositoryId ∉ externals.map (·.id) → row ∈ db.repositories) := by
  induction externals generalizing db with
  | nil =>
      cases upserted
      intro row member _
      exact ⟨by simp, fun _ => member⟩
  | cons external rest later =>
      rw [List.foldlM_cons, Option.bind_eq_bind, Option.bind_eq_some_iff] at upserted
      obtain ⟨mid, first, remaining⟩ := upserted
      rcases @upsertRepository_refines installationId db external constrained with
        ⟨failed, -⟩ | ⟨_, succeeded, written, kept, -⟩
      · simp [failed] at first
      cases succeeded.symm.trans first
      intro row member owner
      obtain ⟨restored, unlisted⟩ := later kept remaining row member owner
      obtain ⟨listed, -, unrevoked⟩ := @upsertedRow_spec installationId db external
      by_cases again : row.githubRepositoryId ∈ rest.map (·.id)
      · exact ⟨fun _ => restored again, fun absent => absurd (.tail _ again) absent⟩
      · have middle := unlisted again
        rw [written, mem_upsertedRows constrained] at middle
        rcases middle with rfl | ⟨before, different⟩
        · refine ⟨fun _ => unrevoked, fun absent => absurd ?_ absent⟩
          rw [List.map_cons, (isListed_iff.mp listed).2]
          exact .head _
        · have other : row.githubRepositoryId ≠ external.id := by
            simpa [isListed, owner] using different
          exact ⟨by simp [other, again], fun _ => before⟩

/-- A stored repository keeps a row through the upserts. -/
theorem upsertRepositories_keeps {db stored : Database}
    (constrained : Constrained db.repositories)
    (upserted : externals.foldlM (upsertRepository installationId) db = some stored)
    {githubId : Nat}
    (known : ∃ row ∈ db.repositories, isListed installationId githubId row = true) :
    ∃ row ∈ stored.repositories, isListed installationId githubId row = true := by
  induction externals generalizing db with
  | nil =>
      cases upserted
      exact known
  | cons external rest later =>
      rw [List.foldlM_cons, Option.bind_eq_bind, Option.bind_eq_some_iff] at upserted
      obtain ⟨mid, first, remaining⟩ := upserted
      rcases @upsertRepository_refines installationId db external constrained with
        ⟨failed, -⟩ | ⟨_, succeeded, written, kept, -⟩
      · simp [failed] at first
      cases succeeded.symm.trans first
      apply later kept remaining
      rw [written]
      by_cases same : githubId = external.id
      · exact ⟨_, (mem_upsertedRows constrained).mpr (.inl rfl), same ▸ upsertedRow_spec.1⟩
      · obtain ⟨row, member, listed⟩ := known
        refine ⟨row, (mem_upsertedRows constrained).mpr (.inr ⟨member, ?_⟩), listed⟩
        simp [isListed, (isListed_iff.mp listed).2, same]

variable {settings : Settings} {db final : Database} {now : Timestamp} {userId : UserId}

/-- A synchronization revokes what the list it is given leaves out, and adds or
removes no other repository of the installation. -/
theorem synchronizeRepositories_rows (constrained : Constrained db.repositories)
    (synchronized : synchronizeRepositories settings db now userId installationId externals =
      some final) :
    (∀ row ∈ final.repositories, row.installationId = some installationId →
      (row.accessRevokedAt.isSome = true ↔ row.githubRepositoryId ∉ externals.map (·.id)) ∧
        (row.githubRepositoryId ∉ externals.map (·.id) →
          ∃ old ∈ db.repositories, isListed installationId row.githubRepositoryId old = true)) ∧
      ∀ old ∈ db.repositories, old.installationId = some installationId →
        ∃ row ∈ final.repositories,
          isListed installationId old.githubRepositoryId row = true := by
  unfold synchronizeRepositories at synchronized
  cases authorized : authorizedInstallation settings db now userId installationId with
  | none => simp [authorized] at synchronized
  | some installation =>
      have same := (authorizedInstallation_mem authorized).2
      simp only [authorized, same, Option.map_eq_some_iff] at synchronized
      obtain ⟨stored, upserted, rfl⟩ := synchronized
      have rows := upsertRepositories_rows constrained upserted
      constructor
      · intro row member owner
        obtain ⟨before, beforeMember, rfl⟩ := mem_updateWhere.mp member
        by_cases revoked : unlisted installationId externals before = true
        · simp only [revoked, if_true] at owner ⊢
          have absent : before.githubRepositoryId ∉ externals.map (·.id) := by
            simp only [unlisted, Bool.and_eq_true, Bool.not_eq_true', List.contains_eq_mem,
              decide_eq_false_iff_not] at revoked
            exact revoked.2
          refine ⟨⟨fun _ => absent, fun _ => rfl⟩, fun _ => ?_⟩
          exact ⟨before, (rows before beforeMember owner).2 absent,
            isListed_iff.mpr ⟨owner, rfl⟩⟩
        · simp only [revoked, Bool.false_eq_true, if_false] at owner ⊢
          obtain ⟨listed, stayed⟩ := rows before beforeMember owner
          refine ⟨⟨fun held present => ?_, fun absent => ?_⟩, fun absent =>
            ⟨before, stayed absent, isListed_iff.mpr ⟨owner, rfl⟩⟩⟩
          · simp [listed present] at held
          · by_contra held
            apply revoked
            simp only [Option.isSome_iff_ne_none, ne_eq, not_not] at held
            simp only [unlisted, owner, held, beq_self_eq_true, Option.isNone_none, Bool.true_and,
              Bool.not_eq_true', List.contains_eq_mem, decide_eq_false_iff_not]
            exact absent
      · intro old member owner
        obtain ⟨row, rowMember, listed⟩ := upsertRepositories_keeps constrained upserted
          ⟨old, member, isListed_iff.mpr ⟨owner, rfl⟩⟩
        refine ⟨_, mem_updateWhere.mpr ⟨row, rowMember, rfl⟩, ?_⟩
        by_cases revoked : unlisted installationId externals row = true
        · simp only [revoked, if_true]
          exact listed
        · simpa only [revoked, Bool.false_eq_true, if_false] using listed

/-- A synchronization that succeeds leaves exactly the repositories revoked that
the provider does not list, exactly if every stored repository of the
installation that it lists is among the first thousand. -/
theorem sync_revokes_unlisted_iff {earlier : Database} {asked : Timestamp}
    {listing : List GitHub.Repository} {fails : Nat → Bool}
    (constrained : Constrained db.repositories)
    (synchronized : synchronizeListing settings earlier db asked now userId installationId
      (GitHub.listingPage listing fails) = some final) :
    (∀ row ∈ final.repositories, row.installationId = some installationId →
      (row.accessRevokedAt.isSome = true ↔ row.githubRepositoryId ∉ listing.map (·.id))) ↔
      ∀ old ∈ db.repositories, old.installationId = some installationId →
        old.githubRepositoryId ∈ listing.map (·.id) →
        old.githubRepositoryId ∈ (listing.take 1000).map (·.id) := by
  simp only [synchronizeListing, bind, Option.bind_eq_some_iff] at synchronized
  obtain ⟨_, -, externals, listed, committed⟩ := synchronized
  have capped : externals = listing.take 1000 := GitHub.listInstallationRepositories_some listed
  obtain ⟨revoked, kept⟩ := synchronizeRepositories_rows constrained committed
  rw [← capped]
  have contained : ∀ githubId ∈ externals.map (·.id), githubId ∈ listing.map (·.id) := by
    rw [capped, List.map_take]
    exact fun githubId member => List.mem_of_mem_take member
  constructor
  · intro exact_ old member owner present
    obtain ⟨row, rowMember, rowListed⟩ := kept old member owner
    obtain ⟨rowOwner, number⟩ := isListed_iff.mp rowListed
    have unrevoked := mt (exact_ row rowMember rowOwner).mp (by simpa [number] using present)
    have included := mt (revoked row rowMember rowOwner).1.mpr unrevoked
    rw [not_not, number] at included
    exact included
  · intro early row member owner
    obtain ⟨withdrawn, old⟩ := revoked row member owner
    rw [withdrawn]
    constructor
    · intro absent present
      obtain ⟨before, beforeMember, beforeListed⟩ := old absent
      obtain ⟨beforeOwner, number⟩ := isListed_iff.mp beforeListed
      exact absent (number ▸ early before beforeMember beforeOwner (number ▸ present))
    · exact fun absent present => absent (contained _ present)

end Revocation

open TwoRepositories in
/-- One of two stored repositories is no longer listed. -/
theorem removed_repository_revoked :
    let db := stored [named 1 "api", named 2 "web"]
    let listing := [named 2 "web", named 3 "docs"]
    ∃ final, synchronizeListing settings db db 0 0 7 1
        (GitHub.listingPage listing fun _ => false) = some final ∧
      ∀ row ∈ final.repositories, row.installationId = some 1 →
        (row.accessRevokedAt.isSome = true ↔ row.githubRepositoryId ∉ listing.map (·.id)) := by
  intro db listing
  have succeeds : (synchronizeListing settings db db 0 0 7 1
      (GitHub.listingPage listing fun _ => false)).isSome = true := by decide +kernel
  obtain ⟨final, synchronized⟩ := Option.isSome_iff_exists.mp succeeds
  exact ⟨final, synchronized, (sync_revokes_unlisted_iff
    (stored_constrained (by decide) (by decide +kernel)) synchronized).mpr
      fun _ _ _ present => present⟩

/-! ### A long listing -/

namespace TwoRepositories

/-- The first numbers of a listing, each with a name of its own. -/
def numbered (count : Nat) : List GitHub.Repository :=
  (List.range count).map fun number => named (number + 1) (toString number)

theorem numbered_numbers (count : Nat) :
    (numbered count).map (·.id) = (List.range count).map (· + 1) := by
  simp [numbered, named, Function.comp_def]

theorem numbered_distinct (count : Nat) : ((numbered count).map (·.id)).Nodup := by
  rw [numbered_numbers]
  exact List.nodup_range.map fun left right same => Nat.succ.inj same

theorem numbered_take (count taken : Nat) :
    (numbered count).take taken = numbered (min taken count) := by
  rw [numbered, ← List.map_take, List.take_range, numbered]

theorem numbered_names (count : Nat) : ((numbered count).map (·.fullName)).Nodup := by
  rw [numbered, List.map_map]
  refine List.nodup_range.map fun left right same => ?_
  exact Text.toString_injective ((String.append_right_inj "octo/").mp same)

end TwoRepositories

open TwoRepositories in
/-- The last of 1001 repositories, which the client does not ask for. -/
theorem cut_listing_revokes :
    let db := stored [named 1001 "1000"]
    let listing := numbered 1001
    Constrained db.repositories ∧ (listing.map (·.id)).Nodup ∧
      (listing.map (·.fullName)).Nodup ∧
      ∃ final, synchronizeListing settings db db 0 0 7 1
          (GitHub.listingPage listing fun _ => false) = some final ∧
        ∃ row ∈ final.repositories, row.installationId = some 1 ∧
          row.accessRevokedAt.isSome = true ∧ row.githubRepositoryId ∈ listing.map (·.id) := by
  intro db listing
  have constrained : Constrained db.repositories :=
    stored_constrained (by decide) (by decide +kernel)
  have authorized : authorizedInstallation settings db 0 7 1 = some _ := rfl
  have first : listing.take (GitHub.maxPages * GitHub.pageSize) = numbered 1000 :=
    numbered_take 1001 1000
  have absent : 1001 ∉ (numbered 1000).map (·.id) := by
    simp [numbered_numbers]
  have freed : NamesFreed 1 db (numbered 1000) := by
    intro position external found row member owner same different
    obtain rfl : row = newRepository 1001 1 (named 1001 "1000") := List.mem_singleton.mp member
    obtain ⟨number, bounded, rfl⟩ := List.mem_map.mp (List.mem_of_getElem? found)
    have equal : 1000 = number :=
      Text.toString_injective ((String.append_right_inj "octo/").mp same)
    simp [← equal] at bounded
  obtain ⟨stored_, upserted⟩ := Option.isSome_iff_exists.mp
    ((upsertRepositories_isSome_iff constrained (numbered_names 1000)).mpr freed)
  have committed : synchronizeRepositories settings db 0 7 1 (numbered 1000) =
      some (stored_.updateRepositories (unlisted 1 (numbered 1000)) (revokedRepository 0)) :=
    synchronizeRepositories_eq authorized upserted
  have fetched : GitHub.listInstallationRepositories (GitHub.listingPage listing fun _ => false) =
      some (numbered 1000) := by
    rw [GitHub.listInstallationRepositories_eq, first]
  obtain ⟨revoked, kept⟩ := synchronizeRepositories_rows constrained committed
  obtain ⟨row, member, rowListed⟩ := kept _ (List.mem_singleton_self _) rfl
  obtain ⟨owner, number⟩ := isListed_iff.mp rowListed
  have stays : row.githubRepositoryId = 1001 := number
  have withdrawn := (revoked row member owner).1.mpr (stays ▸ absent)
  have present : row.githubRepositoryId ∈ listing.map (·.id) := by
    rw [numbered_numbers, stays]
    exact List.mem_map.mpr ⟨1000, List.mem_range.mpr (by omega), rfl⟩
  exact ⟨constrained, numbered_distinct 1001, numbered_names 1001,
    ⟨_, synchronizeListing_eq authorized fetched committed, row, member, owner, withdrawn, present⟩⟩

end Codenaut.Services
