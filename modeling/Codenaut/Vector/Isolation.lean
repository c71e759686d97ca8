import Codenaut.Vector.Retrieval

/-!
# Tenant isolation

The filter, the upsert check and the hit parser of a scope accept a record
exactly when it was built for the same tenant, repository and version.
-/

set_option autoImplicit false

namespace Codenaut.Vector

open Codenaut.Core Codenaut.Db Codenaut.Embeddings Codenaut.Indexing Codenaut.Relational

/-- What the constructor of a scope leaves possible. -/
theorem VectorScope.source_cases (scope : VectorScope) :
    (scope.accessMode = .publicAccess ∧ scope.installationId = none ∧
      ∃ number, scope.githubRepositoryId = some number) ∨
    (scope.accessMode = .githubInstallation ∧
      ∃ installation, scope.installationId = some installation) := by
  have sourced := scope.sourced
  unfold sourceValid at sourced
  cases mode : scope.accessMode with
  | publicAccess =>
      rw [mode] at sourced
      left
      cases installation : scope.installationId <;> cases number : scope.githubRepositoryId <;>
        simp_all
  | githubInstallation =>
      rw [mode] at sourced
      right
      exact ⟨rfl, Option.isSome_iff_exists.mp sourced⟩

/-- Both source checks read a payload of `other` as the agreement of the sources. -/
theorem payloadMatchesScope_built (scope other : VectorScope) (payload : Payload)
    (installation : payload.installationId = other.installationId)
    (scopeType : payload.sourceScopeType = other.accessMode)
    (scopeId : payload.sourceScopeId = other.sourceScopeId)
    (number : payload.githubRepositoryId = other.githubRepositoryId) :
    payloadMatchesScope scope payload = true ↔
      scope.accessMode = other.accessMode ∧ scope.source = other.source := by
  obtain ⟨mode, absent, own, named⟩ | ⟨mode, own, held⟩ := scope.source_cases <;>
    obtain ⟨otherMode, otherAbsent, theirs, otherNamed⟩ | ⟨otherMode, theirs, otherHeld⟩ :=
      other.source_cases <;>
    simp_all [payloadMatchesScope, VectorScope.source, VectorScope.sourceScopeId]
  all_goals grind

theorem sourceFilter_built (scope other : VectorScope) (record : VectorRecord)
    (scopeType : record.payload.sourceScopeType = other.accessMode)
    (installation : record.payload.installationId = other.installationId)
    (scopeId : record.payload.sourceScopeId = other.sourceScopeId)
    (number : record.payload.githubRepositoryId = other.githubRepositoryId) :
    scopeFilter scope record = recordInScope scope record := by
  obtain ⟨mode, absent, own, named⟩ | ⟨mode, own, held⟩ := scope.source_cases <;>
    obtain ⟨otherMode, otherAbsent, theirs, otherNamed⟩ | ⟨otherMode, theirs, otherHeld⟩ :=
      other.source_cases <;>
    simp_all [scopeFilter, recordInScope, payloadMatchesScope]

section Built

variable (settings : Settings) (platform : Platform) (scope other : VectorScope)
  (prepared : PreparedEmbedding) (vector : Embedding) (policyFingerprint : String)

theorem recordInScope_built :
    recordInScope scope
        (buildVectorRecord settings platform other prepared vector policyFingerprint) = true ↔
      scope.Agrees other := by
  have matched := payloadMatchesScope_built scope other
    (buildVectorRecord settings platform other prepared vector policyFingerprint).payload
    rfl rfl rfl rfl
  simp only [recordInScope, Bool.and_eq_true, beq_iff_eq, matched]
  constructor
  · rintro ⟨⟨⟨mode, source⟩, repository⟩, version⟩
    exact ⟨mode, source, repository.symm, version.symm⟩
  · intro agrees
    exact ⟨⟨⟨agrees.accessMode, agrees.source⟩, agrees.repository.symm⟩, agrees.version.symm⟩

theorem scopeFilter_built :
    scopeFilter scope
        (buildVectorRecord settings platform other prepared vector policyFingerprint) = true ↔
      scope.Agrees other := by
  rw [sourceFilter_built scope other _ rfl rfl rfl rfl]
  exact recordInScope_built settings platform scope other prepared vector policyFingerprint

end Built

/-- The parser accepts a point exactly when its score, its scope, its commit
and fingerprints, and its evidence all pass. -/
theorem parseRetrievalHit_ok_iff (scope : VectorScope) (commitSha : CommitSha)
    (modelFingerprint preprocessingFingerprint : String) (point : ScoredPoint) :
    (parseRetrievalHit scope commitSha modelFingerprint preprocessingFingerprint point).isOk =
        true ↔
      point.score.isSome = true ∧
        (payloadMatchesScope scope point.payload = true ∧
          point.payload.repositoryId = scope.repositoryId ∧
          point.payload.indexVersion = scope.indexVersion) ∧
        (point.payload.commitSha = commitSha ∧
          point.payload.embeddingModelFingerprint = modelFingerprint ∧
          point.payload.preprocessingPolicyFingerprint = preprocessingFingerprint) ∧
        readableEvidence point.payload = true := by
  unfold parseRetrievalHit
  cases scored : point.score with
  | none => simp [Except.isOk, Except.toBool]
  | some score =>
      by_cases named : payloadMatchesScope scope point.payload = true ∧
          point.payload.repositoryId = scope.repositoryId ∧
          point.payload.indexVersion = scope.indexVersion ∧
          point.payload.commitSha = commitSha ∧
          point.payload.embeddingModelFingerprint = modelFingerprint ∧
          point.payload.preprocessingPolicyFingerprint = preprocessingFingerprint
      · obtain ⟨matched, repository, version, commit, model, policy⟩ := named
        by_cases readable : readableEvidence point.payload = true <;>
          simp [matched, repository, version, commit, model, policy, readable, Except.isOk,
            Except.toBool]
      · have refused : (!payloadMatchesScope scope point.payload ||
            point.payload.repositoryId != scope.repositoryId ||
            point.payload.indexVersion != scope.indexVersion ||
            point.payload.commitSha != commitSha ||
            point.payload.embeddingModelFingerprint != modelFingerprint ||
            point.payload.preprocessingPolicyFingerprint != preprocessingFingerprint) = true := by
          by_contra passed
          apply named
          simpa [and_assoc] using passed
        simp only [refused, if_true, Except.isOk, Except.toBool]
        constructor
        · intro impossible
          cases impossible
        · intro ⟨_, ⟨matched, repository, version⟩, ⟨commit, model, policy⟩, _⟩
          exact (named ⟨matched, repository, version, commit, model, policy⟩).elim

theorem mapM_ok_forall {α β : Type} {check : α → Except Failure β} :
    ∀ {items : List α} {results : List β}, items.mapM check = .ok results →
      ∀ item ∈ items, (check item).isOk = true := by
  intro items
  induction items with
  | nil => simp
  | cons item rest ih =>
      intro results accepted other member
      rw [List.mapM_cons] at accepted
      cases checked : check item with
      | error failure =>
          rw [checked] at accepted
          cases accepted
      | ok result =>
          rw [checked] at accepted
          cases later : rest.mapM check with
          | error failure =>
              rw [later] at accepted
              cases accepted
          | ok others =>
              cases member with
              | head => simp [checked, Except.isOk, Except.toBool]
              | tail _ member => exact ih later other member

/-- A search succeeds only when the parser accepts every point it was answered with. -/
theorem search_ok_parsed {settings : Settings} {scope : VectorScope} {queryVector : Embedding}
    {commitSha : CommitSha} {modelFingerprint preprocessingFingerprint : String}
    {points : List ScoredPoint} {hits : List RetrievalHit}
    (found : search settings scope queryVector commitSha modelFingerprint
      preprocessingFingerprint (.ok points) = .ok hits) :
    ∀ point ∈ points, (parseRetrievalHit scope commitSha modelFingerprint
      preprocessingFingerprint point).isOk = true := by
  unfold search at found
  split at found
  · cases found
  · exact mapM_ok_forall found

/-- The four checks of a scope on a record built for another scope: the first
two are the agreement of the scopes, the parser adds nothing but the checks
its own scope makes too, and whatever points a successful search was answered
with were built for scopes that agree. -/
theorem scopes_isolated (settings : Settings) (platform : Platform) (scope : VectorScope) :
    (∀ (other : VectorScope) (prepared : PreparedEmbedding) (vector : Embedding)
      (policyFingerprint : String),
      let record := buildVectorRecord settings platform other prepared vector policyFingerprint
      (scopeFilter scope record = true ↔ scope.Agrees other) ∧
      (recordInScope scope record = true ↔ scope.Agrees other) ∧
      (∀ score : Rat,
        (parseRetrievalHit scope prepared.chunk.commitSha
          (embeddingModelFingerprint settings platform policyFingerprint) policyFingerprint
          { score := some score, payload := record.payload }).isOk = true ↔
            scope.Agrees other ∧ readableEvidence record.payload = true) ∧
      (∀ (score : Option Rat) (commitSha : CommitSha)
        (modelFingerprint preprocessingFingerprint : String),
        (parseRetrievalHit scope commitSha modelFingerprint preprocessingFingerprint
          { score := score, payload := record.payload }).isOk = true ↔
            scope.Agrees other ∧
              (parseRetrievalHit other commitSha modelFingerprint preprocessingFingerprint
                { score := score, payload := record.payload }).isOk = true)) ∧
    (∀ (queryVector : Embedding) (commitSha : CommitSha)
      (modelFingerprint preprocessingFingerprint : String) (points : List ScoredPoint)
      (hits : List RetrievalHit),
      search settings scope queryVector commitSha modelFingerprint preprocessingFingerprint
        (.ok points) = .ok hits →
      ∀ point ∈ points, ∀ (builder : Settings) (other : VectorScope)
        (prepared : PreparedEmbedding) (vector : Embedding) (policyFingerprint : String),
        point.payload = (buildVectorRecord builder platform other prepared vector
          policyFingerprint).payload → scope.Agrees other) := by
  constructor
  · intro other prepared vector policyFingerprint record
    have filtered := scopeFilter_built settings platform scope other prepared vector
      policyFingerprint
    have checked := recordInScope_built settings platform scope other prepared vector
      policyFingerprint
    have owned := recordInScope_built settings platform other other prepared vector
      policyFingerprint
    have placed (of : VectorScope) : recordInScope of record = true ↔
        payloadMatchesScope of record.payload = true ∧
          record.payload.repositoryId = of.repositoryId ∧
          record.payload.indexVersion = of.indexVersion := by
      simp [recordInScope, and_assoc]
    refine ⟨filtered, checked, ?_, ?_⟩
    · intro score
      rw [parseRetrievalHit_ok_iff, ← placed, checked]
      constructor
      · rintro ⟨_, agrees, _, readable⟩
        exact ⟨agrees, readable⟩
      · rintro ⟨agrees, readable⟩
        exact ⟨rfl, agrees, ⟨rfl, rfl, rfl⟩, readable⟩
    · intro score commitSha modelFingerprint preprocessingFingerprint
      rw [parseRetrievalHit_ok_iff, parseRetrievalHit_ok_iff, ← placed scope, ← placed other,
        checked, owned]
      constructor
      · rintro ⟨scored, agrees, current, readable⟩
        exact ⟨agrees, scored, ⟨rfl, rfl, rfl, rfl⟩, current, readable⟩
      · rintro ⟨agrees, scored, _, current, readable⟩
        exact ⟨scored, agrees, current, readable⟩
  · intro queryVector commitSha modelFingerprint preprocessingFingerprint points hits found point
      member builder other prepared vector policyFingerprint built
    have accepted := search_ok_parsed found point member
    rw [parseRetrievalHit_ok_iff, built] at accepted
    obtain ⟨_, ⟨matched, repository, version⟩, _⟩ := accepted
    apply (recordInScope_built builder platform scope other prepared vector policyFingerprint).mp
    simp [recordInScope, matched, repository, version]

/-! ## One private repository -/

namespace PrivateRepository

def settings : Settings where
  embeddingModelIdentifier := "model"
  embeddingModelRevision := "revision"
  embeddingDimension := 1

def platform : Platform where
  sha256Hex := fun _ => "digest"
  uuid5 := fun _ _ => 0
  textLe := fun _ _ => true

def chunk : ContentChunk where
  repositoryId := 2
  indexVersion := 3
  ordinal := 0
  filePath := "app/main.py"
  language := "python"
  chunkType := .function
  startLine := 1
  endLine := 2
  commitSha := "commit"
  contentHash := "0123456789abcdef0123456789abcdef0123456789abcdef0123456789abcdef"
  content := "def main(): ..."

def prepared : PreparedEmbedding where
  itemId := "0"
  text := "main"
  fingerprint := "fingerprint"
  chunk := chunk

/-- A private scope need not name the repository's number on GitHub. -/
def scope (number : Option Nat) : VectorScope where
  installationId := some 1
  repositoryId := 2
  indexVersion := 3
  accessMode := .githubInstallation
  githubRepositoryId := number
  versioned := by decide
  sourced := rfl

def record : VectorRecord :=
  buildVectorRecord settings platform (scope (some 7)) prepared [1] "policy"

/-- The answer of the provider to a query under the scope. -/
def answered : List ScoredPoint :=
  [{ score := some 1, payload := record.payload }]

end PrivateRepository

open PrivateRepository in
theorem private_hit_isolated : (scope none).Agrees (scope (some 7)) := by
  have accepted : (search settings (scope none) [1] "commit" "digest" "policy"
      (.ok answered)).isOk = true := by decide +kernel
  cases found : search settings (scope none) [1] "commit" "digest" "policy" (.ok answered) with
  | error failure =>
      rw [found] at accepted
      cases accepted
  | ok hits =>
      exact (scopes_isolated settings platform (scope none)).2 [1] "commit" "digest" "policy"
        answered hits found _ (.head _) settings (scope (some 7)) prepared [1] "policy" rfl

end Codenaut.Vector
