import Codenaut.Vector.Batches
import Mathlib.Logic.Equiv.List

/-!
# Exactness of the vector store

After the points of a scope were deleted and its records stored, in any batches
and with any retries, the scope holds exactly these records, no other scope has
changed, and the validation accepts the scope. What the validation accepts has
the expected number of points, all of the expected commit and model.
-/

set_option autoImplicit false

namespace Codenaut.Vector

open Codenaut.Core Codenaut.Db Codenaut.Embeddings Codenaut.Indexing Codenaut.Relational
open Codenaut.Text

/-! ## Identities -/

/-- The identifiers of a scope are UUIDs. -/
structure VectorScope.Addressed (scope : VectorScope) : Prop where
  repository : IsUuid scope.repositoryId
  installation : ∀ installation, scope.installationId = some installation → IsUuid installation

/-- A record that was built for some scope. -/
def Built (platform : Platform) (record : VectorRecord) : Prop :=
  ∃ (settings : Settings) (scope : VectorScope) (prepared : PreparedEmbedding)
    (vector : Embedding) (policyFingerprint : String), scope.Addressed ∧
      record = buildVectorRecord settings platform scope prepared vector policyFingerprint

theorem PointId.toList_identity (id : PointId) :
    id.identity.toList = id.accessMode.value.toList ++ '\x1f' ::
      ((sourceScopeText id.accessMode id.sourceScopeId).toList ++ '\x1f' ::
        ((uuidText id.repositoryId).toList ++ '\x1f' ::
          ((toString id.indexVersion).toList ++ '\x1f' ::
            (id.filePath.toList ++ '\x1f' :: (id.contentHash.toList ++ '\x1f' ::
              (id.chunkType.value.toList ++ '\x1f' :: (toString id.ordinal).toList)))))) := by
  simp [PointId.identity]

theorem accessMode_value_free (accessMode : RepositoryAccessMode) :
    '\x1f' ∉ accessMode.value.toList := by
  cases accessMode <;> decide

theorem chunkType_value_free (chunkType : ChunkType) : '\x1f' ∉ chunkType.value.toList := by
  cases chunkType <;> decide

theorem sourceScopeText_free (accessMode : RepositoryAccessMode) (source : Nat) :
    '\x1f' ∉ (sourceScopeText accessMode source).toList := by
  cases accessMode with
  | publicAccess => exact not_mem_toString rfl source
  | githubInstallation => exact not_mem_uuidText (by decide) source

/-- The identity names the source, the repository and the version. -/
theorem PointId.place_of_identity {left right : PointId}
    (same : left.identity = right.identity) :
    left.accessMode.value = right.accessMode.value ∧
      sourceScopeText left.accessMode left.sourceScopeId =
        sourceScopeText right.accessMode right.sourceScopeId ∧
      uuidText left.repositoryId = uuidText right.repositoryId ∧
      left.indexVersion = right.indexVersion := by
  have lists := congrArg String.toList same
  rw [PointId.toList_identity, PointId.toList_identity] at lists
  obtain ⟨modes, lists⟩ :=
    cut_first (accessMode_value_free _) (accessMode_value_free _) lists
  obtain ⟨sources, lists⟩ :=
    cut_first (sourceScopeText_free _ _) (sourceScopeText_free _ _) lists
  obtain ⟨repositories, lists⟩ :=
    cut_first (not_mem_uuidText (by decide) _) (not_mem_uuidText (by decide) _) lists
  obtain ⟨versions, _⟩ := cut_first (not_mem_toString rfl _) (not_mem_toString rfl _) lists
  exact ⟨String.toList_inj.mp modes, String.toList_inj.mp sources,
    String.toList_inj.mp repositories, toString_injective (String.toList_inj.mp versions)⟩

/-- The identity ends in the ordinal of the chunk. -/
theorem PointId.ordinal_of_identity {left right : PointId}
    (same : left.identity = right.identity) : left.ordinal = right.ordinal := by
  have lists := congrArg String.toList same
  rw [PointId.toList_identity, PointId.toList_identity] at lists
  simp only [← List.cons_append, ← List.append_assoc] at lists
  obtain ⟨_, ordinals⟩ := cut_last (not_mem_toString rfl _) (not_mem_toString rfl _) lists
  exact toString_injective (String.toList_inj.mp ordinals)

/-- Between the version and the ordinal stand the path, the hash and the type. -/
theorem PointId.chunk_of_identity {left right : PointId}
    (leftPlain : '\x1f' ∉ left.contentHash.toList)
    (rightPlain : '\x1f' ∉ right.contentHash.toList)
    (same : left.identity = right.identity) :
    left.filePath = right.filePath ∧ left.contentHash = right.contentHash ∧
      left.chunkType.value = right.chunkType.value := by
  have lists := congrArg String.toList same
  rw [PointId.toList_identity, PointId.toList_identity] at lists
  obtain ⟨_, lists⟩ := cut_first (accessMode_value_free _) (accessMode_value_free _) lists
  obtain ⟨_, lists⟩ := cut_first (sourceScopeText_free _ _) (sourceScopeText_free _ _) lists
  obtain ⟨_, lists⟩ :=
    cut_first (not_mem_uuidText (by decide) _) (not_mem_uuidText (by decide) _) lists
  obtain ⟨_, lists⟩ := cut_first (not_mem_toString rfl _) (not_mem_toString rfl _) lists
  simp only [← List.cons_append, ← List.append_assoc] at lists
  obtain ⟨lists, _⟩ := cut_last (not_mem_toString rfl _) (not_mem_toString rfl _) lists
  obtain ⟨lists, types⟩ := cut_last (chunkType_value_free _) (chunkType_value_free _) lists
  obtain ⟨paths, hashes⟩ := cut_last leftPlain rightPlain lists
  exact ⟨String.toList_inj.mp paths, String.toList_inj.mp hashes, String.toList_inj.mp types⟩

theorem accessMode_of_value {left right : RepositoryAccessMode}
    (same : left.value = right.value) : left = right := by
  revert same
  cases left <;> cases right <;> decide

theorem chunkType_of_value {left right : ChunkType} (same : left.value = right.value) :
    left = right := by
  revert same
  cases left <;> cases right <;> decide

theorem sourceScopeId_eq_source (scope : VectorScope) :
    scope.sourceScopeId = scope.source.getD 0 := by
  unfold VectorScope.sourceScopeId VectorScope.source
  cases scope.accessMode <;> rfl

/-- Scopes whose points could share an identity agree. -/
theorem agrees_of_identity {scope other : VectorScope} (addressed : scope.Addressed)
    (otherAddressed : other.Addressed) {prepared otherPrepared : PreparedEmbedding}
    (same : (deterministicPointId scope prepared).identity =
      (deterministicPointId other otherPrepared).identity) : scope.Agrees other := by
  obtain ⟨modes, sources, repositories, versions⟩ := PointId.place_of_identity same
  have mode : scope.accessMode = other.accessMode := accessMode_of_value modes
  refine ⟨mode, ?_, (uuidText_inj addressed.repository otherAddressed.repository).mp repositories,
    versions⟩
  have sourceTexts : sourceScopeText scope.accessMode scope.sourceScopeId =
      sourceScopeText other.accessMode other.sourceScopeId := sources
  obtain ⟨own, _, number, held⟩ | ⟨own, installation, held⟩ := scope.source_cases
  · obtain ⟨theirs, _, otherNumber, otherHeld⟩ | ⟨theirs, _⟩ := other.source_cases
    · have numbers : number = otherNumber := by
        apply toString_injective
        simpa [sourceScopeText, VectorScope.sourceScopeId, own, theirs, held, otherHeld]
          using sourceTexts
      simp [VectorScope.source, own, theirs, held, otherHeld, numbers]
    · simp [own, theirs] at mode
  · obtain ⟨theirs, _⟩ | ⟨theirs, otherInstallation, otherHeld⟩ := other.source_cases
    · simp [own, theirs] at mode
    · have installations : installation = otherInstallation := by
        apply (uuidText_inj (addressed.installation _ held)
          (otherAddressed.installation _ otherHeld)).mp
        simpa [sourceScopeText, VectorScope.sourceScopeId, own, theirs, held, otherHeld]
          using sourceTexts
      simp [VectorScope.source, own, theirs, held, otherHeld, installations]

/-! ## Retries -/

/-- A call whose failed attempts the answered one makes up for. -/
theorem runCall_ok {State : Type} {code : String} {perform : State → State}
    {failed : List Nat → State → State}
    (absorbs : ∀ positions state, perform (failed positions state) = perform state)
    {attempts : Nat} {replies : List Reply} {state : State}
    (answered : (runCall code perform failed attempts replies state).1 = .ok ()) :
    (runCall code perform failed attempts replies state).2.1 = perform state := by
  induction attempts generalizing replies state with
  | zero => cases answered
  | succ attempts ih =>
      cases replies with
      | nil => cases answered
      | cons reply rest =>
          cases reply with
          | answered => rfl
          | rejected status positions =>
              unfold runCall at answered ⊢
              split at answered
              · cases answered
              · split at answered
                · cases answered
                · rename_i permitted retried
                  rw [if_neg permitted, if_neg retried]
                  exact (ih answered).trans (absorbs positions state)
          | lost positions =>
              unfold runCall at answered ⊢
              split at answered
              · cases answered
              · rename_i retried
                rw [if_neg retried]
                exact (ih answered).trans (absorbs positions state)

theorem deleteScopePoints_ok {settings : Settings} {scope : VectorScope} {replies : List Reply}
    {points : List VectorRecord}
    (answered : (deleteScopePoints settings scope replies points).1 = .ok ()) :
    (deleteScopePoints settings scope replies points).2.1 =
      deleteWhere (scopeFilter scope) points := by
  apply runCall_ok _ answered
  intro positions stored
  by_cases nothing : positions = []
  · simp [nothing]
  · simp [nothing, deleteWhere, List.filter_filter]

theorem mem_of_written {α : Type} {batch : List α} {positions : List Nat} {item : α}
    (member : item ∈ written batch positions) : item ∈ batch := by
  obtain ⟨position, _, found⟩ := List.mem_filterMap.mp member
  exact List.mem_of_getElem? found

theorem upsertBatches_ok {settings : Settings} {platform : Platform}
    {groups : List (List VectorRecord)} {replies : List Reply} {points : List VectorRecord}
    (distinct : (groups.flatten.map (pointUuid platform)).Nodup)
    (answered : (upsertBatches settings platform groups replies points).1 = .ok ()) :
    (upsertBatches settings platform groups replies points).2.1 =
      putAll (pointUuid platform) points groups.flatten := by
  induction groups generalizing replies points with
  | nil => rfl
  | cons batch rest ih =>
      rw [List.flatten_cons, List.map_append, List.nodup_append] at distinct
      cases outcome : upsertBatch settings platform batch replies points with
      | mk result following =>
          obtain ⟨stored, later⟩ := following
          simp only [upsertBatches, outcome] at answered ⊢
          cases result with
          | error failure => cases answered
          | ok _ =>
              have succeeded : (upsertBatch settings platform batch replies points).1 = .ok () := by
                rw [outcome]
              have batched : stored = putAll (pointUuid platform) points batch := by
                have performed := runCall_ok (fun positions stored => putAll_putAll
                  (pointUuid platform) distinct.1 (fun _ => mem_of_written) stored) succeeded
                rw [← performed]
                exact (congrArg (·.2.1) outcome).symm
              have following := ih distinct.2.1 answered
              rw [List.flatten_cons, putAll_append, ← batched]
              exact following

/-! ## Batches -/

theorem flatten_slices {α : Type} (size : Nat) (records : List α) (count : Nat) :
    ((List.range count).map fun index => (records.drop (index * size)).take size).flatten =
      records.take (count * size) := by
  induction count with
  | zero => simp
  | succ count ih =>
      rw [List.range_succ, List.map_append, List.flatten_append, ih, Nat.succ_mul, List.take_add]
      simp

theorem flatten_batches {α : Type} {size : Nat} (positive : 0 < size) (records : List α) :
    (batches size records).flatten = records := by
  have enough : records.length ≤ (records.length + size - 1) / size * size := by
    have remainder := Nat.mod_lt (records.length + size - 1) positive
    have division := Nat.div_add_mod (records.length + size - 1) size
    rw [Nat.mul_comm] at division
    omega
  rw [batches, flatten_slices, List.take_of_length_le enough]

/-! ## Validation -/

section Validation

variable {settings : Settings} {platform : Platform} {scope : VectorScope} {commitSha : CommitSha}
  {modelFingerprint : String} {points : List VectorRecord}

/-- The scan from an offset reads the points that remain there, and no others. -/
theorem scanPages_eq (batching : 0 < settings.qdrantUpsertBatchSize)
    (keyed : UniqueKey (pointUuid platform) points) {pages : Nat} {offset : Option Nat} {seen : Nat}
    (enough : (remaining (pointUuid platform) offset (scopePoints scope points)).length < pages) :
    scanPages settings platform scope commitSha modelFingerprint points pages offset seen =
      if (remaining (pointUuid platform) offset (scopePoints scope points)).all
          (recordCurrent scope commitSha modelFingerprint) then
        .ok (seen + (remaining (pointUuid platform) offset (scopePoints scope points)).length)
      else .error metadataMismatch := by
  have selected : UniqueKey (pointUuid platform) (scopePoints scope points) :=
    keyed.sublist (List.filter_sublist.map _)
  induction pages generalizing offset seen with
  | zero => omega
  | succ pages ih =>
      have read := List.take_append_drop (min settings.qdrantUpsertBatchSize 256)
        (remaining (pointUuid platform) offset (scopePoints scope points))
      unfold scanPages
      cases next : (page (pointUuid platform) (min settings.qdrantUpsertBatchSize 256) offset
          (scopePoints scope points)).2 with
      | none =>
          have last := remaining_last (pointUuid platform) next
          unfold scopePoints at last next
          simp only [scroll, last, next]
          rfl
      | some start =>
          have rest := remaining_next (pointUuid platform) selected next
          have shorter : (remaining (pointUuid platform) (some start)
              (scopePoints scope points)).length < pages := by
            rw [rest, List.length_drop]
            have nonempty : remaining (pointUuid platform) offset (scopePoints scope points) ≠ [] := by
              intro empty
              simp [page, empty] at next
            have positive := List.length_pos_iff.mpr nonempty
            omega
          have following := @ih (some start)
            (seen + ((remaining (pointUuid platform) offset (scopePoints scope points)).take
              (min settings.qdrantUpsertBatchSize 256)).length) shorter
          have first : (page (pointUuid platform) (min settings.qdrantUpsertBatchSize 256) offset
              (scopePoints scope points)).1 = (remaining (pointUuid platform) offset
                (scopePoints scope points)).take (min settings.qdrantUpsertBatchSize 256) := rfl
          rw [rest] at following
          unfold scopePoints at first next following ⊢
          simp only [scroll, first, next, following]
          unfold scopePoints at read
          have counted := congrArg List.length read
          rw [List.length_append] at counted
          have checked := congrArg
            (fun records => List.all records (recordCurrent scope commitSha modelFingerprint)) read
          simp only [List.all_append] at checked
          rw [← checked, ← counted, Nat.add_assoc]
          cases List.all _ _ <;> simp

/-- Page by page the validation gives the verdict of the scoped call. -/
theorem validateScopePages_eq_validateScope (batching : 0 < settings.qdrantUpsertBatchSize)
    (keyed : UniqueKey (pointUuid platform) points) (expectedCount : Nat) :
    validateScopePages settings platform scope expectedCount commitSha modelFingerprint points =
      validateScope .answered scope expectedCount commitSha modelFingerprint points := by
  have perm := inOrder_perm (pointUuid platform) (scopePoints scope points)
  have enough : (remaining (pointUuid platform) none (scopePoints scope points)).length <
      points.length + 1 := by
    rw [remaining_none, perm.length_eq]
    exact Nat.lt_succ_of_le (List.length_filter_le _ _)
  have scanned : (inOrder (pointUuid platform) (scopePoints scope points)).all
      (recordCurrent scope commitSha modelFingerprint) =
      (scopePoints scope points).all (recordCurrent scope commitSha modelFingerprint) := by
    rw [Bool.eq_iff_iff]
    simp only [List.all_eq_true, perm.mem_iff]
  unfold validateScopePages validateScope
  rw [scanPages_eq batching keyed enough, remaining_none, perm.length_eq, scanned]
  by_cases sized : (scopePoints scope points).length = expectedCount
  · simp only [sized, ne_eq, not_true_eq_false, if_false]
    by_cases current : (scopePoints scope points).all
        (recordCurrent scope commitSha modelFingerprint) = true
    · rw [if_pos current]
      unfold recordCurrent at current
      simp [current]
    · rw [if_neg current]
      unfold recordCurrent at current
      simp only [current]
      rfl
  · simp [sized, countMismatch]

/-- The validation accepts exactly the scopes of the expected size whose points
are all of the expected commit and model. -/
theorem validateScopePages_ok_iff (batching : 0 < settings.qdrantUpsertBatchSize)
    (keyed : UniqueKey (pointUuid platform) points) (expectedCount : Nat) :
    validateScopePages settings platform scope expectedCount commitSha modelFingerprint points =
        .ok () ↔
      (scopePoints scope points).length = expectedCount ∧
        ∀ record ∈ scopePoints scope points,
          recordCurrent scope commitSha modelFingerprint record = true := by
  rw [validateScopePages_eq_validateScope batching keyed]
  unfold validateScope
  by_cases sized : (scopePoints scope points).length = expectedCount
  · simp only [sized, ne_eq, not_true_eq_false, if_false, true_and, ← List.all_eq_true]
    unfold recordCurrent
    split <;> simp_all
  · simp [sized]

end Validation

/-! ## Replacement -/

/-- The records of a build: each prepared chunk with its vector. -/
def buildRecords (settings : Settings) (platform : Platform) (scope : VectorScope)
    (policyFingerprint : String) (documents : List (PreparedEmbedding × Embedding)) :
    List VectorRecord :=
  documents.map fun (prepared, vector) =>
    buildVectorRecord settings platform scope prepared vector policyFingerprint

section Replacement

variable {settings : Settings} {platform : Platform} {scope : VectorScope}
  {policyFingerprint : String} {documents : List (PreparedEmbedding × Embedding)}

theorem recordInScope_buildRecords :
    ∀ record ∈ buildRecords settings platform scope policyFingerprint documents,
      scopeFilter scope record = true ∧ recordInScope scope record = true := by
  intro record member
  obtain ⟨⟨prepared, vector⟩, _, rfl⟩ := List.mem_map.mp member
  have own : scope.Agrees scope := ⟨rfl, rfl, rfl, rfl⟩
  exact ⟨(scopeFilter_built settings platform scope scope prepared vector policyFingerprint).mpr own,
    (recordInScope_built settings platform scope scope prepared vector policyFingerprint).mpr own⟩

/-- Distinct ordinals give distinct identifiers. -/
theorem buildRecords_keyed
    (uuidInjective : ∀ uuidNamespace, Function.Injective (platform.uuid5 uuidNamespace))
    (ordinals : (documents.map fun document => document.1.chunk.ordinal).Nodup) :
    ((buildRecords settings platform scope policyFingerprint documents).map
      (pointUuid platform)).Nodup := by
  rw [buildRecords, List.map_map]
  apply List.pairwise_map.mpr
  apply (List.pairwise_map.mp ordinals).imp
  intro left right different same
  exact different (PointId.ordinal_of_identity (uuidInjective _ same))

/-- A point outside the scope shares no identifier with a record of the scope. -/
theorem apart_of_unselected
    (uuidInjective : ∀ uuidNamespace, Function.Injective (platform.uuid5 uuidNamespace))
    (addressed : scope.Addressed) {point : VectorRecord} (built : Built platform point)
    (unselected : scopeFilter scope point = false) :
    pointUuid platform point ∉ (buildRecords settings platform scope policyFingerprint
      documents).map (pointUuid platform) := by
  intro member
  obtain ⟨record, recordMember, same⟩ := List.mem_map.mp member
  obtain ⟨⟨prepared, vector⟩, _, rfl⟩ := List.mem_map.mp recordMember
  obtain ⟨builder, other, otherPrepared, otherVector, policy, otherAddressed, rfl⟩ := built
  have agrees : scope.Agrees other :=
    agrees_of_identity addressed otherAddressed (uuidInjective _ same)
  have selected := (scopeFilter_built builder platform scope other otherPrepared otherVector
    policy).mpr agrees
  rw [unselected] at selected
  cases selected

/-- What deletion and upsert leave: the other points in their order, then the records. -/
theorem replaced_eq
    (uuidInjective : ∀ uuidNamespace, Function.Injective (platform.uuid5 uuidNamespace))
    (addressed : scope.Addressed) (batching : 0 < settings.qdrantUpsertBatchSize)
    (ordinals : (documents.map fun document => document.1.chunk.ordinal).Nodup)
    {points : List VectorRecord} (built : ∀ point ∈ points, Built platform point)
    {deletions upserts : List Reply}
    (deleted : (deleteScopePoints settings scope deletions points).1 = .ok ())
    (stored : (upsertRecords settings platform scope
      (buildRecords settings platform scope policyFingerprint documents) upserts
      (deleteScopePoints settings scope deletions points).2.1).1 = .ok ()) :
    (upsertRecords settings platform scope
      (buildRecords settings platform scope policyFingerprint documents) upserts
      (deleteScopePoints settings scope deletions points).2.1).2.1 =
    deleteWhere (scopeFilter scope) points ++
      buildRecords settings platform scope policyFingerprint documents := by
  have keyed := @buildRecords_keyed settings platform scope policyFingerprint documents
    uuidInjective ordinals
  have cleared := deleteScopePoints_ok deleted
  unfold upsertRecords at stored ⊢
  cases checked : validateRecords settings scope
      (buildRecords settings platform scope policyFingerprint documents) with
  | error failure => simp [checked] at stored
  | ok _ =>
      simp only [checked] at stored ⊢
      have flattened := flatten_batches batching
        (buildRecords settings platform scope policyFingerprint documents)
      have written := upsertBatches_ok (flattened.symm ▸ keyed) stored
      rw [written, flattened, putAll_eq _ keyed, cleared]
      congr 1
      apply List.filter_eq_self.mpr
      intro point member
      obtain ⟨kept, unselected⟩ := mem_deleteWhere.mp member
      have apart := @apart_of_unselected settings platform scope policyFingerprint documents
        uuidInjective addressed point (built point kept) unselected
      simpa using apart

/-- Under the UUIDs of their identities the provider keeps built records apart
as the identifiers do, so an upsert that succeeds is the scoped call. -/
theorem upsertRecords_eq_upsert
    (uuidInjective : ∀ uuidNamespace, Function.Injective (platform.uuid5 uuidNamespace))
    (batching : 0 < settings.qdrantUpsertBatchSize) {records points : List VectorRecord}
    (built : ∀ point ∈ points ++ records, Built platform point)
    (plain : ∀ point ∈ points ++ records, '\x1f' ∉ point.pointId.contentHash.toList)
    (distinct : (records.map (·.pointId)).Nodup) {replies : List Reply}
    (succeeded : (upsertRecords settings platform scope records replies points).1 = .ok ()) :
    (upsertRecords settings platform scope records replies points).2.1 =
      (upsert settings .answered scope records points).2 := by
  have told : ∀ left ∈ points ++ records, ∀ right ∈ points ++ records,
      pointUuid platform left = pointUuid platform right ↔ left.pointId = right.pointId := by
    intro left leftMember right rightMember
    constructor
    · intro same
      have identities := uuidInjective _ same
      obtain ⟨paths, hashes, types⟩ := PointId.chunk_of_identity (plain left leftMember)
        (plain right rightMember) identities
      have ordinals := PointId.ordinal_of_identity identities
      obtain ⟨_, leftScope, leftPrepared, _, _, leftAddressed, rfl⟩ := built left leftMember
      obtain ⟨_, rightScope, rightPrepared, _, _, rightAddressed, rfl⟩ := built right rightMember
      have agrees := agrees_of_identity leftAddressed rightAddressed identities
      have sources : leftScope.sourceScopeId = rightScope.sourceScopeId := by
        rw [sourceScopeId_eq_source, sourceScopeId_eq_source, agrees.source]
      simp only [buildVectorRecord, deterministicPointId, PointId.mk.injEq]
      exact ⟨agrees.accessMode, sources, agrees.repository, agrees.version, paths, hashes,
        chunkType_of_value types, ordinals⟩
    · intro same
      unfold pointUuid
      rw [same]
  have keyed : (records.map (pointUuid platform)).Nodup := by
    apply List.pairwise_map.mpr
    apply (List.pairwise_map.mp distinct).imp_of_mem
    intro left right leftMember rightMember different same
    exact different ((told left (List.mem_append_right _ leftMember) right
      (List.mem_append_right _ rightMember)).mp same)
  unfold upsertRecords upsert at *
  cases checked : validateRecords settings scope records with
  | error failure => simp [checked] at succeeded
  | ok _ =>
      simp only [checked] at succeeded ⊢
      have flattened := flatten_batches batching records
      rw [upsertBatches_ok (flattened.symm ▸ keyed) succeeded, flattened]
      apply putAll_congr
      intro left leftMember right rightMember
      exact told left leftMember right (List.mem_append_right _ rightMember)

/-- Points of a scope that does not agree pass no filter of the scope. -/
theorem unselected_of_other {other : VectorScope} (different : ¬ scope.Agrees other)
    {point : VectorRecord} (built : Built platform point)
    (selected : scopeFilter other point = true) : scopeFilter scope point = false := by
  obtain ⟨builder, owner, prepared, vector, policy, _, rfl⟩ := built
  have owned := (scopeFilter_built builder platform other owner prepared vector policy).mp selected
  rw [← Bool.not_eq_true, scopeFilter_built]
  intro agrees
  exact different ⟨agrees.accessMode.trans owned.accessMode.symm,
    agrees.source.trans owned.source.symm, agrees.repository.trans owned.repository.symm,
    agrees.version.trans owned.version.symm⟩

section Replaced

variable (points : List VectorRecord)

theorem scopePoints_replaced :
    scopePoints scope (deleteWhere (scopeFilter scope) points ++
      buildRecords settings platform scope policyFingerprint documents) =
    buildRecords settings platform scope policyFingerprint documents := by
  have emptied : (deleteWhere (scopeFilter scope) points).filter (scopeFilter scope) = [] := by
    simp [deleteWhere, List.filter_filter]
  have kept : (buildRecords settings platform scope policyFingerprint documents).filter
      (scopeFilter scope) = buildRecords settings platform scope policyFingerprint documents :=
    List.filter_eq_self.mpr fun record member => (recordInScope_buildRecords record member).1
  rw [scopePoints, List.filter_append, emptied, kept, List.nil_append]

theorem deleteWhere_replaced :
    deleteWhere (scopeFilter scope) (deleteWhere (scopeFilter scope) points ++
      buildRecords settings platform scope policyFingerprint documents) =
    deleteWhere (scopeFilter scope) points := by
  have removed : (buildRecords settings platform scope policyFingerprint documents).filter
      (fun record => !scopeFilter scope record) = [] := by
    apply List.filter_eq_nil_iff.mpr
    intro record member
    simp [(recordInScope_buildRecords record member).1]
  rw [deleteWhere, List.filter_append, removed, List.append_nil]
  simp [deleteWhere, List.filter_filter]

variable {points}

theorem replaced_keyed
    (uuidInjective : ∀ uuidNamespace, Function.Injective (platform.uuid5 uuidNamespace))
    (addressed : scope.Addressed)
    (ordinals : (documents.map fun document => document.1.chunk.ordinal).Nodup)
    (built : ∀ point ∈ points, Built platform point)
    (unique : UniqueKey (pointUuid platform) points) :
    UniqueKey (pointUuid platform) (deleteWhere (scopeFilter scope) points ++
      buildRecords settings platform scope policyFingerprint documents) := by
  unfold UniqueKey
  rw [List.map_append]
  apply List.Nodup.append (unique.sublist (List.filter_sublist.map _))
    (buildRecords_keyed uuidInjective ordinals)
  intro uuid before after
  obtain ⟨point, member, rfl⟩ := List.mem_map.mp before
  obtain ⟨kept, unselected⟩ := mem_deleteWhere.mp member
  exact apart_of_unselected uuidInjective addressed (built point kept) unselected after

/-- A replacement does not change what a scope that does not agree holds. -/
theorem scopePoints_replaced_other {other : VectorScope} (different : ¬ scope.Agrees other)
    (built : ∀ point ∈ points, Built platform point) :
    scopePoints other (deleteWhere (scopeFilter scope) points ++
      buildRecords settings platform scope policyFingerprint documents) =
    scopePoints other points := by
  have kept : (deleteWhere (scopeFilter scope) points).filter (scopeFilter other) =
      points.filter (scopeFilter other) := by
    rw [deleteWhere, List.filter_filter]
    apply List.filter_congr
    intro point member
    cases selected : scopeFilter other point with
    | false => simp
    | true => simp [unselected_of_other different (built point member) selected]
  have new : (buildRecords settings platform scope policyFingerprint documents).filter
      (scopeFilter other) = [] := by
    apply List.filter_eq_nil_iff.mpr
    intro record member selected
    obtain ⟨⟨prepared, vector⟩, _, rfl⟩ := List.mem_map.mp member
    have agrees := (scopeFilter_built settings platform other scope prepared vector
      policyFingerprint).mp selected
    exact different ⟨agrees.accessMode.symm, agrees.source.symm, agrees.repository.symm,
      agrees.version.symm⟩
  rw [scopePoints, List.filter_append, kept, new, List.append_nil, scopePoints]

end Replaced

/-- After deletion and upsert the scope holds exactly the records, every point
outside the scope and every scope that does not agree is as before, and the
validation accepts the state. It refuses any state of the scope with another
number of points or a point of another commit or model. -/
theorem vector_store_exact
    (uuidInjective : ∀ uuidNamespace, Function.Injective (platform.uuid5 uuidNamespace))
    (addressed : scope.Addressed) (batching : 0 < settings.qdrantUpsertBatchSize)
    (ordinals : (documents.map fun document => document.1.chunk.ordinal).Nodup)
    {commitSha : CommitSha} (cloned : ∀ document ∈ documents, document.1.chunk.commitSha = commitSha)
    {points : List VectorRecord} (built : ∀ point ∈ points, Built platform point)
    (unique : UniqueKey (pointUuid platform) points) {deletions upserts : List Reply}
    (deleted : (deleteScopePoints settings scope deletions points).1 = .ok ())
    (upserted : (upsertRecords settings platform scope
      (buildRecords settings platform scope policyFingerprint documents) upserts
      (deleteScopePoints settings scope deletions points).2.1).1 = .ok ()) :
    let records := buildRecords settings platform scope policyFingerprint documents
    let stored := (upsertRecords settings platform scope records upserts
      (deleteScopePoints settings scope deletions points).2.1).2.1
    (scopePoints scope stored = records ∧ UniqueKey (pointUuid platform) stored) ∧
    (deleteWhere (scopeFilter scope) stored = deleteWhere (scopeFilter scope) points ∧
      ∀ other : VectorScope, ¬ scope.Agrees other →
        scopePoints other stored = scopePoints other points) ∧
    validateScopePages settings platform scope records.length commitSha
      (embeddingModelFingerprint settings platform policyFingerprint) stored = .ok () ∧
    ∀ (state : List VectorRecord) (expectedCount : Nat) (expectedCommit : CommitSha)
      (modelFingerprint : String), UniqueKey (pointUuid platform) state →
      ((scopePoints scope state).length ≠ expectedCount ∨
        ∃ record ∈ scopePoints scope state, record.payload.commitSha ≠ expectedCommit ∨
          record.payload.embeddingModelFingerprint ≠ modelFingerprint) →
      validateScopePages settings platform scope expectedCount expectedCommit modelFingerprint
        state ≠ .ok () := by
  intro records stored
  have replaced : stored = deleteWhere (scopeFilter scope) points ++ records :=
    replaced_eq uuidInjective addressed batching ordinals built deleted upserted
  have held : scopePoints scope stored = records := by
    rw [replaced]
    exact scopePoints_replaced points
  have others : deleteWhere (scopeFilter scope) stored =
      deleteWhere (scopeFilter scope) points := by
    rw [replaced]
    exact deleteWhere_replaced points
  have keyed : UniqueKey (pointUuid platform) stored := by
    rw [replaced]
    exact replaced_keyed uuidInjective addressed ordinals built unique
  refine ⟨⟨held, keyed⟩, ⟨others, ?_⟩, ?_, ?_⟩
  · intro other different
    rw [replaced]
    exact scopePoints_replaced_other different built
  · rw [validateScopePages_ok_iff batching keyed, held]
    refine ⟨rfl, ?_⟩
    intro record member
    have inScope := (recordInScope_buildRecords record member).2
    obtain ⟨⟨prepared, vector⟩, documentMember, rfl⟩ := List.mem_map.mp member
    have commit := cloned _ documentMember
    simp only [recordCurrent, inScope, Bool.true_and, Bool.and_eq_true, beq_iff_eq]
    exact ⟨commit, rfl⟩
  · intro state expectedCount expectedCommit modelFingerprint stateKeyed wrong accepted
    obtain ⟨sized, current⟩ := (validateScopePages_ok_iff batching stateKeyed _).mp accepted
    cases wrong with
    | inl count => exact count sized
    | inr mixed =>
        obtain ⟨record, member, different⟩ := mixed
        have matched := current record member
        simp only [recordCurrent, Bool.and_eq_true, beq_iff_eq] at matched
        cases different with
        | inl commit => exact commit matched.1.2
        | inr model => exact model matched.2

end Replacement

/-! ## A rebuilt version -/

namespace PrivateRepository

/-- Identities under their code points. -/
def keyedPlatform : Platform where
  sha256Hex := fun _ => "digest"
  uuid5 := fun _ text => Encodable.encode (text.toList.map Char.toNat)
  textLe := fun _ _ => true

def second : PreparedEmbedding :=
  { prepared with itemId := "1", chunk := { chunk with ordinal := 1, content := "main()" } }

/-- What an earlier attempt left in the scope. -/
def leftover : VectorRecord :=
  buildVectorRecord settings keyedPlatform (scope none) { prepared with fingerprint := "old" } [1]
    "policy"

end PrivateRepository

open PrivateRepository in
/-- One batch of two points, whose first attempt is lost after one of them was written. -/
theorem rebuilt_scope_exact :
    let records := buildRecords settings keyedPlatform (scope none) "policy"
      [(prepared, [1]), (second, [-1])]
    let stored := (upsertRecords settings keyedPlatform (scope none) records
      [.lost [1], .answered] (deleteScopePoints settings (scope none) [.answered] [leftover]).2.1).2.1
    scopePoints (scope none) stored = records ∧
      validateScopePages settings keyedPlatform (scope none) 2 "commit" "digest" stored = .ok () := by
  have uuidInjective (uuidNamespace : Nat) :
      Function.Injective (keyedPlatform.uuid5 uuidNamespace) := by
    intro left right same
    have points := Encodable.encode_injective same
    have chars := List.map_injective_iff.mpr (fun _ _ equal => Char.toNat_inj.mp equal) points
    exact String.toList_inj.mp chars
  have addressed : (scope none).Addressed := by
    refine ⟨by unfold IsUuid; decide, ?_⟩
    rintro installation ⟨⟩
    unfold IsUuid
    decide
  have built : ∀ point ∈ [leftover], Built keyedPlatform point := by
    intro point member
    rw [List.mem_singleton.mp member]
    exact ⟨settings, scope none, _, [1], "policy", addressed, rfl⟩
  have deleted : (deleteScopePoints settings (scope none) [.answered] [leftover]).1 = .ok () := rfl
  have upserted : (upsertRecords settings keyedPlatform (scope none)
      (buildRecords settings keyedPlatform (scope none) "policy" [(prepared, [1]), (second, [-1])])
      [.lost [1], .answered]
      (deleteScopePoints settings (scope none) [.answered] [leftover]).2.1).1 = .ok () := by
    decide +kernel
  have commits : ∀ document ∈ [(prepared, ([1] : Embedding)), (second, [-1])],
      document.1.chunk.commitSha = "commit" := by decide
  have replaced := vector_store_exact uuidInjective addressed (by decide : 0 < 128)
    (by decide) commits built (List.nodup_singleton _) deleted upserted
  exact ⟨replaced.1.1, replaced.2.2.1⟩

end Codenaut.Vector
