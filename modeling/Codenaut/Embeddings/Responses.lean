import Codenaut.Embeddings.Requests
import Codenaut.Http.Transport
import Codenaut.Vector.Exactness

/-!
# Embedding responses

What `EmbeddingServiceClient.embed_documents` (`app/embeddings/client.py`) makes of
the responses of the service, which may answer anything. Results are matched to
the documents by identifier, within the batch that asked for them.
-/

set_option autoImplicit false

namespace Codenaut.Embeddings

open Codenaut.Core Codenaut.Http Codenaut.Indexing Codenaut.Vector

/-! ## Responses -/

/-- A `float` of a response. -/
inductive ResponseNumber where
  | finite (value : Rat)
  | infinite (negative : Bool)
  | nan
  deriving DecidableEq, Repr

/-- The number of a value that passes `math.isfinite`. -/
def ResponseNumber.finite? : ResponseNumber → Option Rat
  | .finite value => some value
  | .infinite _ | .nan => none

structure EmbeddingResult where
  id : String
  embedding : List ResponseNumber
  deriving DecidableEq, Repr

/-- `_EmbeddingResponse`. -/
structure EmbeddingResponse where
  model : String
  revision : String
  dimension : Int
  normalized : Bool
  results : List EmbeddingResult
  deriving DecidableEq, Repr

/-- The responses to one request, attempt by attempt. A body is `none` if it is
no JSON or not of the schema. -/
abbrev ServiceOutcomes : Type := Nat → Outcome (Option EmbeddingResponse)

/-- The end of `_request_with_retry` in `_embed_batch`. -/
def serviceReply (retries : RetrySettings) (outcomes : ServiceOutcomes) :
    Except Failure (Option EmbeddingResponse) :=
  match (embeddingRequestWithRetry retries outcomes).ending with
  | .returned response => .ok response.body
  | .raised error => .error (.indexing error)
  | .escaped | .exhausted => .error .internal

/-! ## The client -/

section Client

-- `math.isclose` of the norm and 1, in the rounding of the platform.
variable (settings : ClientSettings) (retries : RetrySettings) (unitNorm : Embedding → Bool)

/-- The checks of `_embed_batch` on one result. -/
def acceptResult (expectedIds : List String) (results : VectorMap) (result : EmbeddingResult) :
    Except Failure VectorMap :=
  if result.id ∈ results ∨ result.id ∉ expectedIds then
    .error (invalidResponse "unexpected_embedding_result")
  else if result.embedding.length ≠ settings.embeddingDimension then
    .error (invalidResponse "embedding_dimension_mismatch")
  else
    match result.embedding.mapM ResponseNumber.finite? with
    | none => .error (invalidResponse "non_finite_embedding")
    | some vector =>
        if unitNorm vector then .ok (results.insert result.id vector)
        else .error (invalidResponse "embedding_normalization_mismatch")

/-- `_embed_batch` on a response of the schema. -/
def readResponse (expectedIds : List String) (response : EmbeddingResponse) :
    Except Failure VectorMap :=
  if response.model ≠ settings.embeddingModelIdentifier ∨
      response.revision ≠ settings.embeddingModelRevision ∨
      response.dimension ≠ settings.embeddingDimension ∨ response.normalized = false then
    .error (invalidResponse "embedding_model_mismatch")
  else if response.results.length ≠ expectedIds.length then
    .error (invalidResponse "embedding_result_count_mismatch")
  else do
    let results ← response.results.foldlM (acceptResult settings unitNorm expectedIds) ∅
    if expectedIds.all (· ∈ results) && results.keys.all (· ∈ expectedIds) then pure results
    else .error (invalidResponse "missing_embedding_result")

/-- `_embed_batch`. -/
def embedBatch (kind : EmbeddingKind) (batch : List PreparedEmbedding)
    (outcomes : ServiceOutcomes) : Except Failure VectorMap := do
  let _ ← batchRequest kind batch
  match ← serviceReply retries outcomes with
  | none => .error (invalidResponse "malformed_embedding_response")
  | some response => readResponse settings unitNorm (batch.map (·.itemId)) response

/-- The loop of `embed_documents` over the batches that are left. -/
def embedBatches (outcomes : Nat → ServiceOutcomes) :
    List (List PreparedEmbedding) → Nat → VectorMap → Except Failure VectorMap
  | [], _, results => .ok results
  | batch :: rest, index, results => do
      let batchResults ← embedBatch settings retries unitNorm .document batch (outcomes index)
      if results.keys.any (· ∈ batchResults) then
        .error (invalidResponse "duplicate_embedding_result")
      else embedBatches outcomes rest (index + 1) (batchResults ∪ results)

/-- `embed_documents`. -/
def embedDocuments (documents : List PreparedEmbedding) (outcomes : Nat → ServiceOutcomes) :
    Except Failure VectorMap :=
  embedBatches settings retries unitNorm outcomes
    (batches settings.embeddingBatchSize documents) 0 ∅

end Client

/-! ## Matching -/

/-- The reply holds one result under the identifier: the vector, which has the
dimension of the settings. -/
def Supplies (settings : Settings) (reply : Except Failure (Option EmbeddingResponse))
    (id : String) (vector : Embedding) : Prop :=
  vector.length = settings.embeddingDimension ∧
    ∃ response, reply = .ok (some response) ∧
      response.results.filter (·.id == id) = [⟨id, vector.map .finite⟩]

/-- The results hold a vector for each document of a batch and no other. -/
structure BatchMatched (settings : Settings) (reply : Except Failure (Option EmbeddingResponse))
    (batch : List PreparedEmbedding) (results : VectorMap) : Prop where
  distinct : (batch.map (·.itemId)).Nodup
  members : ∀ id, id ∈ results ↔ id ∈ batch.map (·.itemId)
  supplied : ∀ document ∈ batch, ∃ vector, results.lookup document.itemId = some vector ∧
    Supplies settings reply document.itemId vector

section Matching

variable {settings : ClientSettings} {retries : RetrySettings} {unitNorm : Embedding → Bool}

theorem finite?_eq_some {number : ResponseNumber} {value : Rat} :
    number.finite? = some value ↔ number = .finite value := by
  cases number <;> simp [ResponseNumber.finite?]

theorem mapM_finite? {numbers : List ResponseNumber} {vector : Embedding}
    (finite : numbers.mapM ResponseNumber.finite? = some vector) :
    numbers = vector.map .finite := by
  induction numbers generalizing vector with
  | nil => simpa using finite
  | cons number rest later =>
      simp only [List.mapM_cons, bind, Option.bind_eq_some_iff, pure, Option.some.injEq] at finite
      obtain ⟨value, first, values, others, rfl⟩ := finite
      rw [List.map_cons, later others, finite?_eq_some.mp first]

/-- An accepted result is new and requested, and its vector is stored under its
identifier. -/
theorem acceptResult_ok {expectedIds : List String} {results extended : VectorMap}
    {result : EmbeddingResult}
    (accepted : acceptResult settings unitNorm expectedIds results result = .ok extended) :
    result.id ∉ results ∧ result.id ∈ expectedIds ∧
      ∃ vector : Embedding, vector.length = settings.embeddingDimension ∧
        result.embedding = vector.map .finite ∧ extended = results.insert result.id vector := by
  unfold acceptResult at accepted
  split at accepted
  case isTrue => cases accepted
  case isFalse known =>
    split at accepted
    case isTrue => cases accepted
    case isFalse sized =>
      cases numbers : result.embedding.mapM ResponseNumber.finite? with
      | none => simp [numbers] at accepted
      | some vector =>
          simp only [numbers] at accepted
          split at accepted
          case isFalse => cases accepted
          case isTrue =>
            have stored := mapM_finite? numbers
            simp only [not_or, not_not] at known sized
            refine ⟨known.1, known.2, vector, ?_, stored, by simpa using accepted.symm⟩
            rw [← sized, stored, List.length_map]

/-- The run over the results of a response: they are new, distinct and
requested, each is stored under its identifier, and nothing else is stored. -/
theorem acceptResults_ok {expectedIds : List String} {collected results : VectorMap}
    {received : List EmbeddingResult}
    (accepted : received.foldlM (acceptResult settings unitNorm expectedIds) collected =
      .ok results) :
    (received.map (·.id)).Nodup ∧
      (∀ id, id ∈ results ↔ id ∈ collected ∨ id ∈ received.map (·.id)) ∧
      (∀ id ∈ collected, id ∉ received.map (·.id) ∧ results.lookup id = collected.lookup id) ∧
      ∀ result ∈ received, result.id ∈ expectedIds ∧
        ∃ vector : Embedding, vector.length = settings.embeddingDimension ∧
          result.embedding = vector.map .finite ∧ results.lookup result.id = some vector := by
  induction received generalizing collected with
  | nil =>
      cases accepted
      simp
  | cons result rest later =>
      simp only [List.foldlM_cons, bind, Except.bind] at accepted
      cases first : acceptResult settings unitNorm expectedIds collected result with
      | error failure => simp [first] at accepted
      | ok extended =>
          simp only [first] at accepted
          obtain ⟨fresh, requested, vector, sized, numbers, rfl⟩ := acceptResult_ok first
          obtain ⟨distinct, members, kept, stored⟩ := later accepted
          have own := kept result.id (by simp)
          refine ⟨List.nodup_cons.mpr ⟨own.1, distinct⟩, ?_, ?_, ?_⟩
          · intro id
            rw [members id, AList.mem_insert, List.map_cons, List.mem_cons]
            tauto
          · intro id known
            have other : id ≠ result.id := fun same => fresh (same ▸ known)
            obtain ⟨unlisted, unchanged⟩ := kept id (by simp [known])
            refine ⟨by simp [other, unlisted], ?_⟩
            rw [unchanged, AList.lookup_insert_ne other]
          · intro listed member
            rcases List.mem_cons.mp member with rfl | member
            · refine ⟨requested, vector, sized, numbers, ?_⟩
              rw [own.2, AList.lookup_insert]
            · exact stored listed member

/-- Under distinct identifiers the one result with an identifier is found alone. -/
theorem filter_id_eq {received : List EmbeddingResult}
    (distinct : (received.map (·.id)).Nodup) {result : EmbeddingResult}
    (member : result ∈ received) :
    received.filter (·.id == result.id) = [result] := by
  induction received with
  | nil => simp at member
  | cons first rest later =>
      obtain ⟨fresh, distinct⟩ := List.nodup_cons.mp distinct
      rcases List.mem_cons.mp member with rfl | member
      · have none : rest.filter (·.id == result.id) = [] := by
          simp only [List.filter_eq_nil_iff, beq_iff_eq]
          exact fun other listed same =>
            fresh (List.mem_map.mpr ⟨other, listed, same⟩)
        simp [none]
      · have other : first.id ≠ result.id := fun same =>
          fresh (List.mem_map.mpr ⟨result, member, same.symm⟩)
        simp [other, later distinct member]

/-- A response that is read holds one result for each requested identifier. -/
theorem readResponse_ok {expectedIds : List String} {response : EmbeddingResponse}
    {results : VectorMap}
    (read : readResponse settings unitNorm expectedIds response = .ok results) :
    (∀ id, id ∈ results ↔ id ∈ expectedIds) ∧
      ∀ id ∈ expectedIds, ∃ vector, results.lookup id = some vector ∧
        Supplies settings.toSettings (.ok (some response)) id vector := by
  unfold readResponse at read
  split at read
  case isTrue => cases read
  case isFalse =>
    split at read
    case isTrue => cases read
    case isFalse =>
      simp only [bind, Except.bind] at read
      cases accepted : response.results.foldlM (acceptResult settings unitNorm expectedIds) ∅ with
      | error failure => simp [accepted] at read
      | ok collected =>
          simp only [accepted] at read
          split at read
          case isFalse => cases read
          case isTrue covered =>
            simp only [pure, Except.pure, Except.ok.injEq] at read
            subst read
            simp only [Bool.and_eq_true, List.all_eq_true, decide_eq_true_eq] at covered
            obtain ⟨distinct, members, -, stored⟩ := acceptResults_ok accepted
            refine ⟨fun id => ⟨covered.2 id, covered.1 id⟩, fun id requested => ?_⟩
            have found := (members id).mp (covered.1 id requested)
            obtain ⟨result, received, rfl⟩ :=
              List.mem_map.mp (found.resolve_left (AList.notMem_empty _))
            obtain ⟨-, vector, sized, numbers, lookedUp⟩ := stored result received
            refine ⟨vector, lookedUp, sized, response, rfl, ?_⟩
            rw [filter_id_eq distinct received, ← numbers]

theorem embedBatch_matched {kind : EmbeddingKind} {batch : List PreparedEmbedding}
    {outcomes : ServiceOutcomes} {results : VectorMap}
    (embedded : embedBatch settings retries unitNorm kind batch outcomes = .ok results) :
    BatchMatched settings.toSettings (serviceReply retries outcomes) batch results := by
  simp only [embedBatch, bind, Except.bind] at embedded
  cases requested : batchRequest kind batch with
  | error failure => simp [requested] at embedded
  | ok request =>
      have distinct : (batch.map (·.itemId)).Nodup := by
        by_contra repeated
        simp [batchRequest, repeated] at requested
      cases reply : serviceReply retries outcomes with
      | error failure => simp [requested, reply] at embedded
      | ok body =>
          cases body with
          | none => simp [requested, reply] at embedded
          | some response =>
              simp only [requested, reply] at embedded
              obtain ⟨members, supplied⟩ := readResponse_ok embedded
              exact ⟨distinct, members, fun document listed =>
                supplied document.itemId (List.mem_map_of_mem listed)⟩

/-- The run over the batches: every batch is matched by its own reply in the
results, which hold no other document. -/
theorem embedBatches_matched {outcomes : Nat → ServiceOutcomes}
    {pending : List (List PreparedEmbedding)} {index : Nat} {collected results : VectorMap}
    (embedded : embedBatches settings retries unitNorm outcomes pending index collected =
      .ok results) :
    (pending.flatten.map (·.itemId)).Nodup ∧
      (∀ id, id ∈ results ↔ id ∈ collected ∨ id ∈ pending.flatten.map (·.itemId)) ∧
      (∀ id ∈ collected, id ∉ pending.flatten.map (·.itemId) ∧
        results.lookup id = collected.lookup id) ∧
      ∀ position batch, pending[position]? = some batch → ∀ document ∈ batch,
        ∃ vector, results.lookup document.itemId = some vector ∧
          Supplies settings.toSettings (serviceReply retries (outcomes (index + position)))
            document.itemId vector := by
  induction pending generalizing index collected with
  | nil =>
      cases embedded
      simp
  | cons batch rest later =>
      simp only [embedBatches, bind, Except.bind] at embedded
      cases first : embedBatch settings retries unitNorm .document batch (outcomes index) with
      | error failure => simp [first] at embedded
      | ok batchResults =>
          simp only [first] at embedded
          split at embedded
          case isTrue => cases embedded
          case isFalse separate =>
            obtain ⟨distinct, members, supplied⟩ := embedBatch_matched first
            obtain ⟨others, all, kept, matched⟩ := later embedded
            have apart (id : String) (known : id ∈ collected) : id ∉ batchResults := by
              intro own
              exact separate (List.any_eq_true.mpr ⟨id, known, by simpa using own⟩)
            rw [List.flatten_cons, List.map_append]
            refine ⟨?_, ?_, ?_, ?_⟩
            · rw [List.nodup_append]
              refine ⟨distinct, others, fun id own other elsewhere same => ?_⟩
              have stored : id ∈ batchResults ∪ collected :=
                AList.mem_union.mpr (.inl ((members id).mpr own))
              exact (kept id stored).1 (same ▸ elsewhere)
            · intro id
              rw [all id, AList.mem_union, members id, List.mem_append]
              tauto
            · intro id known
              obtain ⟨unlisted, unchanged⟩ := kept id (AList.mem_union.mpr (.inr known))
              have unrequested := mt (members id).mpr (apart id known)
              refine ⟨by simp only [List.mem_append, not_or]; exact ⟨unrequested, unlisted⟩, ?_⟩
              rw [unchanged, AList.lookup_union_right (apart id known)]
            · intro position other found document listed
              cases position with
              | zero =>
                  simp only [List.getElem?_cons_zero, Option.some.injEq] at found
                  subst found
                  obtain ⟨vector, lookedUp, own⟩ := supplied document listed
                  have stored : document.itemId ∈ batchResults :=
                    (members _).mpr (List.mem_map_of_mem listed)
                  refine ⟨vector, ?_, own⟩
                  rw [(kept _ (AList.mem_union.mpr (.inl stored))).2,
                    AList.lookup_union_left stored, lookedUp]
              | succ position =>
                  rw [List.getElem?_cons_succ] at found
                  have shifted : index + 1 + position = index + (position + 1) := by omega
                  exact shifted ▸ matched position other found document listed

end Matching

/-! ## Documents -/

/-- The results hold one vector for each document and no other: the one that the
reply to the document's batch holds under its identifier. -/
structure MatchedExactly (settings : ClientSettings) (retries : RetrySettings)
    (documents : List PreparedEmbedding) (outcomes : Nat → ServiceOutcomes)
    (results : VectorMap) : Prop where
  keys : results.keys.Perm (documents.map (·.itemId))
  dimension : ∀ id vector, results.lookup id = some vector →
    vector.length = settings.embeddingDimension
  supplied : ∀ index batch, (batches settings.embeddingBatchSize documents)[index]? = some batch →
    ∀ document ∈ batch, ∃ vector, results.lookup document.itemId = some vector ∧
      Supplies settings.toSettings (serviceReply retries (outcomes index)) document.itemId vector

/-- Whatever the service answers, `embed_documents` raises or matches every
document with the vector that came back under its identifier in its batch. -/
theorem embed_documents_matched (settings : ClientSettings) (retries : RetrySettings)
    (unitNorm : Embedding → Bool) (documents : List PreparedEmbedding)
    (outcomes : Nat → ServiceOutcomes) :
    (∃ failure, embedDocuments settings retries unitNorm documents outcomes = .error failure) ∨
      ∃ results, embedDocuments settings retries unitNorm documents outcomes = .ok results ∧
        MatchedExactly settings retries documents outcomes results := by
  cases embedded : embedDocuments settings retries unitNorm documents outcomes with
  | error failure => exact .inl ⟨failure, rfl⟩
  | ok results =>
      obtain ⟨distinct, members, -, matched⟩ := embedBatches_matched embedded
      simp only [Nat.zero_add] at matched
      rw [flatten_batches settings.batchSize.1] at distinct members
      simp only [AList.notMem_empty, false_or] at members
      refine .inr ⟨results, rfl, ?_, fun id vector lookedUp => ?_, matched⟩
      · exact (List.perm_ext_iff_of_nodup results.keys_nodup distinct).mpr members
      · have stored : id ∈ results := by
          rw [← AList.lookup_isSome, lookedUp]
          rfl
        obtain ⟨document, listed, rfl⟩ := List.mem_map.mp ((members id).mp stored)
        rw [← flatten_batches settings.batchSize.1 documents] at listed
        obtain ⟨batch, batched, own⟩ := List.mem_flatten.mp listed
        obtain ⟨index, found⟩ := List.mem_iff_getElem?.mp batched
        obtain ⟨other, same, sized, -⟩ := matched index batch found document own
        rw [lookedUp, Option.some.injEq] at same
        exact same ▸ sized

open PrivateRepository in
/-- A response in another order than the request, after an attempt that the
service refused. -/
example :
    let response : EmbeddingResponse :=
      { model := "model", revision := "revision", dimension := 1, normalized := true
        results := [⟨second.itemId, [.finite (-1)]⟩, ⟨prepared.itemId, [.finite 1]⟩] }
    let outcomes : Nat → ServiceOutcomes := fun _ attempt =>
      .answered (if attempt = 0 then ⟨503, none⟩ else ⟨200, some response⟩)
    (embedDocuments { settings with } {} (fun _ => true) [prepared, second] outcomes).toOption.map
        (fun results => [prepared, second].map fun document => results.lookup document.itemId) =
      some [some [1], some [-1]] := by
  decide +kernel

end Codenaut.Embeddings
