import Codenaut.Indexing.Analyzer
import Codenaut.Indexing.Worker
import Codenaut.Interaction.Answers
import Codenaut.Text.Separated

/-!
# Incremental refresh

The embedding half of a run under an embedding service whose answers depend on
the text of a document only. Whatever the comparison said and whatever points
the active version holds, a run asks to store the records a full rebuild asks
to store.
-/

set_option autoImplicit false

namespace Codenaut.Indexing

open Codenaut.Core Codenaut.Db Codenaut.Embeddings Codenaut.Interaction Codenaut.Services
open Codenaut.Vector

/-! ## Embedding service -/

/-- A service that embeds a text, or refuses it. -/
abbrev EmbeddingService : Type := String → Except Failure Embedding

def invalidEmbedding (category : String) : Failure :=
  .indexing
    { code := category
      safeMessage := "The embedding service returned an invalid response"
      retryable := false }

/-- The checks of one returned embedding. -/
def acceptEmbedding (settings : Settings) (vector : Embedding) : Except Failure Embedding :=
  if vector.length ≠ settings.embeddingDimension then
    .error (invalidEmbedding "embedding_dimension_mismatch")
  else if !validVector settings vector then
    .error (invalidEmbedding "embedding_normalization_mismatch")
  else .ok vector

def embedDocument (settings : Settings) (service : EmbeddingService) (results : VectorMap)
    (document : PreparedEmbedding) : Except Failure VectorMap := do
  let vector ← service document.text
  let accepted ← acceptEmbedding settings vector
  pure (results.insert document.itemId accepted)

/-- `embed_documents`. -/
def embedDocuments (settings : Settings) (service : EmbeddingService)
    (documents : List PreparedEmbedding) : Except Failure VectorMap :=
  if (documents.map (·.itemId)).Nodup then documents.foldlM (embedDocument settings service) ∅
  else .error (invalidEmbedding "duplicate_embedding_request_id")

/-- The vector that the service gives for a text, if the client accepts it. -/
def textVector (settings : Settings) (service : EmbeddingService) (text : String) :
    Option Embedding :=
  match service text with
  | .ok vector => if validVector settings vector then some vector else none
  | .error _ => none

theorem acceptEmbedding_eq (settings : Settings) (vector : Embedding) :
    acceptEmbedding settings vector = .ok vector ∧ validVector settings vector = true ∨
      (∃ failure, acceptEmbedding settings vector = .error failure) ∧
        validVector settings vector = false := by
  unfold acceptEmbedding
  by_cases sized : vector.length = settings.embeddingDimension
  · cases valid : validVector settings vector <;> simp [sized]
  · right
    simp [sized, validVector]

section Service

variable {settings : Settings} {service : EmbeddingService}

theorem embedDocument_some {results : VectorMap} {document : PreparedEmbedding}
    {vector : Embedding} (embedded : textVector settings service document.text = some vector) :
    embedDocument settings service results document =
      .ok (results.insert document.itemId vector) := by
  unfold textVector at embedded
  unfold embedDocument
  cases answered : service document.text with
  | error failure => simp [answered] at embedded
  | ok given =>
      rw [answered] at embedded
      obtain ⟨accepted, valid⟩ | ⟨_, invalid⟩ := acceptEmbedding_eq settings given
      · simp only [valid, if_true, Option.some.injEq] at embedded
        rw [← embedded]
        simp only [bind, Except.bind, accepted]
        rfl
      · simp [invalid] at embedded

theorem embedDocument_none {results : VectorMap} {document : PreparedEmbedding}
    (refused : textVector settings service document.text = none) :
    ∃ failure, embedDocument settings service results document = .error failure := by
  unfold textVector at refused
  unfold embedDocument
  cases answered : service document.text with
  | error failure => exact ⟨failure, rfl⟩
  | ok given =>
      rw [answered] at refused
      obtain ⟨_, valid⟩ | ⟨⟨failure, rejected⟩, _⟩ := acceptEmbedding_eq settings given
      · simp [valid] at refused
      · refine ⟨failure, ?_⟩
        simp only [bind, Except.bind, rejected]

/-- Documents of unlisted items that the service embeds are listed, and nothing else changes. -/
theorem foldlM_embedDocument {documents : List PreparedEmbedding} {start : VectorMap}
    (distinct : (documents.map (·.itemId)).Nodup)
    (fresh : ∀ document ∈ documents, document.itemId ∉ start)
    (embedded : ∀ document ∈ documents,
      (textVector settings service document.text).isSome = true) :
    ∃ results, documents.foldlM (embedDocument settings service) start = .ok results ∧
      results.keys.length = start.keys.length + documents.length ∧
      (∀ document ∈ documents,
        results.lookup document.itemId = textVector settings service document.text) ∧
      ∀ item, item ∉ documents.map (·.itemId) → results.lookup item = start.lookup item := by
  induction documents generalizing start with
  | nil => exact ⟨start, rfl, rfl, by simp, fun _ _ => rfl⟩
  | cons document rest ih =>
      rw [List.map_cons, List.nodup_cons] at distinct
      obtain ⟨vector, given⟩ := Option.isSome_iff_exists.mp (embedded document (.head _))
      have absent := fresh document (.head _)
      have unlisted : ∀ other ∈ rest, other.itemId ∉ start.insert document.itemId vector := by
        intro other member listed
        cases (AList.mem_insert _).mp listed with
        | inl same => exact distinct.1 (same ▸ List.mem_map_of_mem member)
        | inr earlier => exact fresh other (.tail _ member) earlier
      obtain ⟨results, run, counted, found, kept⟩ := ih distinct.2 unlisted
        fun other member => embedded other (.tail _ member)
      refine ⟨results, ?_, ?_, ?_, ?_⟩
      · rw [List.foldlM_cons, embedDocument_some given]
        exact run
      · have added : (start.insert document.itemId vector).keys.length =
            start.keys.length + 1 := by
          rw [AList.keys_insert, List.length_cons,
            List.erase_of_not_mem (fun listed => absent listed)]
        rw [counted, added, List.length_cons]
        omega
      · intro other member
        cases member with
        | head => rw [kept _ distinct.1, AList.lookup_insert, given]
        | tail _ later => exact found other later
      · intro item outside
        rw [List.map_cons, List.mem_cons, not_or] at outside
        rw [kept item outside.2, AList.lookup_insert_ne outside.1]

theorem embedDocuments_all {documents : List PreparedEmbedding}
    (items : (documents.map (·.itemId)).Nodup)
    (embedded : ∀ document ∈ documents,
      (textVector settings service document.text).isSome = true) :
    ∃ results, embedDocuments settings service documents = .ok results ∧
      results.keys.length = documents.length ∧
      ∀ document ∈ documents,
        results.lookup document.itemId = textVector settings service document.text := by
  obtain ⟨results, run, counted, found, _⟩ := foldlM_embedDocument items
    (fun _ _ => AList.notMem_empty _) embedded
  refine ⟨results, ?_, ?_, found⟩
  · rw [embedDocuments, if_pos items, run]
  · simpa using counted

theorem foldlM_embedDocument_refused {documents : List PreparedEmbedding}
    {document : PreparedEmbedding} (member : document ∈ documents)
    (refused : textVector settings service document.text = none) (start : VectorMap) :
    ∃ failure, documents.foldlM (embedDocument settings service) start = .error failure := by
  induction documents generalizing start with
  | nil => cases member
  | cons first rest ih =>
      rw [List.foldlM_cons]
      cases step : embedDocument settings service start first with
      | error failure => exact ⟨failure, rfl⟩
      | ok next =>
          cases member with
          | head =>
              obtain ⟨failure, failed⟩ := @embedDocument_none settings service start document refused
              rw [step] at failed
              cases failed
          | tail _ later => exact ih later next

theorem embedDocuments_refused {documents : List PreparedEmbedding} {document : PreparedEmbedding}
    (member : document ∈ documents)
    (refused : textVector settings service document.text = none) :
    ∃ failure, embedDocuments settings service documents = .error failure := by
  unfold embedDocuments
  by_cases items : (documents.map (·.itemId)).Nodup
  · rw [if_pos items]
    exact foldlM_embedDocument_refused member refused ∅
  · exact ⟨_, if_neg items⟩

end Service

/-! ## Prepared documents -/

section Prepared

variable {settings : Settings} {platform : Platform}

theorem prepareChunk_ok {chunk : ContentChunk} {document : PreparedEmbedding}
    (prepared : prepareChunk settings platform chunk = .ok document) :
    document.itemId = toString chunk.ordinal ∧
      document.fingerprint =
        platform.sha256Hex (policyFingerprint settings platform ++ "\n" ++ document.text) := by
  simp only [prepareChunk] at prepared
  split at prepared
  · cases prepared
  · cases prepared
    exact ⟨rfl, rfl⟩

/-- Every document comes from its chunk, in the order of the chunks. -/
theorem prepareChunks_ok {chunks : List ContentChunk} {documents : List PreparedEmbedding}
    (prepared : chunks.mapM (prepareChunk settings platform) = .ok documents) :
    documents.map (·.itemId) = chunks.map (fun chunk => toString chunk.ordinal) ∧
      ∀ document ∈ documents, document.fingerprint =
        platform.sha256Hex (policyFingerprint settings platform ++ "\n" ++ document.text) := by
  induction chunks generalizing documents with
  | nil =>
      cases prepared
      exact ⟨rfl, by simp⟩
  | cons chunk rest ih =>
      rw [List.mapM_cons] at prepared
      cases first : prepareChunk settings platform chunk with
      | error failure =>
          rw [first] at prepared
          cases prepared
      | ok document =>
          rw [first] at prepared
          cases later : rest.mapM (prepareChunk settings platform) with
          | error failure =>
              rw [later] at prepared
              cases prepared
          | ok others =>
              rw [later] at prepared
              cases prepared
              obtain ⟨item, fingerprint⟩ := prepareChunk_ok first
              obtain ⟨items, fingerprints⟩ := ih later
              refine ⟨by rw [List.map_cons, List.map_cons, item, items], ?_⟩
              intro other member
              cases member with
              | head => exact fingerprint
              | tail _ member => exact fingerprints other member

theorem prepareChunks_items {chunks : List ContentChunk} {documents : List PreparedEmbedding}
    (prepared : chunks.mapM (prepareChunk settings platform) = .ok documents)
    (ordinals : (chunks.map (·.ordinal)).Nodup) : (documents.map (·.itemId)).Nodup := by
  rw [(prepareChunks_ok prepared).1]
  apply List.pairwise_map.mpr
  apply (List.pairwise_map.mp ordinals).imp
  intro left right different same
  exact different (Text.toString_injective same)

end Prepared

/-! ## Reuse -/

theorem wantedItems_lookup {documents : List PreparedEmbedding} {key : ReuseKey} {item : String}
    (found : (wantedItems documents).lookup key = some item) :
    ∃ document ∈ documents, wantedKey document = key ∧ document.itemId = item := by
  have folded : ∀ (rest : List PreparedEmbedding) (start : AList fun _ : ReuseKey => String),
      (rest.foldl (fun wanted document => wanted.insert (wantedKey document) document.itemId)
        start).lookup key = some item →
      (∃ document ∈ rest, wantedKey document = key ∧ document.itemId = item) ∨
        start.lookup key = some item := by
    intro rest
    induction rest with
    | nil => exact fun start found => .inr found
    | cons document rest ih =>
        intro start found
        cases ih _ found with
        | inl later =>
            obtain ⟨other, member, named⟩ := later
            exact .inl ⟨other, .tail _ member, named⟩
        | inr earlier =>
            by_cases same : key = wantedKey document
            · rw [same, AList.lookup_insert, Option.some.injEq] at earlier
              exact .inl ⟨document, .head _, same.symm, earlier⟩
            · rw [AList.lookup_insert_ne same] at earlier
              exact .inr earlier
  cases folded documents ∅ found with
  | inl named => exact named
  | inr impossible => cases impossible

/-- The points of the active version hold the embeddings of the texts they were built from. -/
def HoldsEmbeddings (settings : Settings) (platform : Platform) (service : EmbeddingService)
    (active : VectorScope) (commitSha : CommitSha) (points : List VectorRecord) : Prop :=
  ∀ record ∈ points, retrievalFilter active commitSha (modelFingerprint settings platform)
      (policyFingerprint settings platform) record = true →
    ∃ text, record.payload.preprocessingFingerprint =
        platform.sha256Hex (policyFingerprint settings platform ++ "\n" ++ text) ∧
      service text = .ok record.vector

section Reuse

variable {settings : Settings} {platform : Platform} {service : EmbeddingService}
  {documents : List PreparedEmbedding}

/-- A vector that is kept is the one the service gives for the document's text. -/
theorem stored_textVector (sha256Injective : Function.Injective platform.sha256Hex)
    {document : PreparedEmbedding} {record : VectorRecord} {text : String}
    (fingerprint : document.fingerprint =
      platform.sha256Hex (policyFingerprint settings platform ++ "\n" ++ document.text))
    (same : wantedKey document = storedKey record.payload)
    (built : record.payload.preprocessingFingerprint =
      platform.sha256Hex (policyFingerprint settings platform ++ "\n" ++ text))
    (embedded : service text = .ok record.vector) :
    textVector settings service document.text =
      if validVector settings record.vector then some record.vector else none := by
  have fingerprints : document.fingerprint = record.payload.preprocessingFingerprint :=
    congrArg ReuseKey.fingerprint same
  rw [fingerprint, built] at fingerprints
  have texts := String.append_right_inj _ |>.mp (sha256Injective fingerprints)
  unfold textVector
  rw [texts, embedded]

/-- What the scan of the active version keeps, or why it fails. -/
theorem foldlM_reuseRecord (sha256Injective : Function.Injective platform.sha256Hex)
    (fingerprints : ∀ document ∈ documents, document.fingerprint =
      platform.sha256Hex (policyFingerprint settings platform ++ "\n" ++ document.text))
    {records : List VectorRecord}
    (held : ∀ record ∈ records, ∃ text, record.payload.preprocessingFingerprint =
        platform.sha256Hex (policyFingerprint settings platform ++ "\n" ++ text) ∧
      service text = .ok record.vector) {start : VectorMap}
    (sound : ∀ item vector, start.lookup item = some vector → ∃ document ∈ documents,
      document.itemId = item ∧ textVector settings service document.text = some vector) :
    match records.foldlM (reuseRecord settings (wantedItems documents)) start with
    | .ok reused => ∀ item vector, reused.lookup item = some vector → ∃ document ∈ documents,
        document.itemId = item ∧ textVector settings service document.text = some vector
    | .error _ => ∃ document ∈ documents, textVector settings service document.text = none := by
  induction records generalizing start with
  | nil => exact sound
  | cons record rest ih =>
      rw [List.foldlM_cons]
      have later := @ih fun other member => held other (.tail _ member)
      unfold reuseRecord
      cases wanted : (wantedItems documents).lookup (storedKey record.payload) with
      | none => exact later sound
      | some item =>
          obtain ⟨document, member, key, named⟩ := wantedItems_lookup wanted
          obtain ⟨text, built, embedded⟩ := held record (.head _)
          have vector := stored_textVector sha256Injective (fingerprints document member) key built
            embedded
          cases valid : validVector settings record.vector with
          | false =>
              rw [valid] at vector
              exact ⟨document, member, vector⟩
          | true =>
              rw [valid] at vector
              apply later
              intro other found listed
              by_cases same : other = item
              · rw [same, AList.lookup_insert, Option.some.injEq] at listed
                exact ⟨document, member, named.trans same.symm, listed ▸ vector⟩
              · rw [AList.lookup_insert_ne same] at listed
                exact sound other found listed

theorem reusableVectors_outcome (sha256Injective : Function.Injective platform.sha256Hex)
    (fingerprints : ∀ document ∈ documents, document.fingerprint =
      platform.sha256Hex (policyFingerprint settings platform ++ "\n" ++ document.text))
    {active : VectorScope} {commitSha : CommitSha} {points : List VectorRecord}
    (held : HoldsEmbeddings settings platform service active commitSha points) :
    match reusableVectors settings .answered active documents commitSha
      (modelFingerprint settings platform) (policyFingerprint settings platform) points with
    | .ok reused => ∀ item vector, reused.lookup item = some vector → ∃ document ∈ documents,
        document.itemId = item ∧ textVector settings service document.text = some vector
    | .error _ => ∃ document ∈ documents, textVector settings service document.text = none := by
  apply foldlM_reuseRecord sha256Injective fingerprints
  · intro record member
    obtain ⟨stored, selected⟩ := List.mem_filter.mp member
    exact held record stored selected
  · intro item vector impossible
    cases impossible

end Reuse

/-! ## Upserts of a run -/

/-- The records a run asks to store, with their scopes. -/
def upserts (requests : List Request) : List (VectorScope × List VectorRecord) :=
  requests.filterMap fun
    | .upsert scope records => some (scope, records)
    | _ => none

@[simp] theorem upserts_append (left right : List Request) :
    upserts (left ++ right) = upserts left ++ upserts right :=
  List.filterMap_append

@[simp] theorem upserts_nil : upserts [] = [] :=
  rfl

/-- The services a run asks: the embedding service, the points of the active
version, and a job store that takes the plan a run falls back to. -/
structure Answering (settings : Settings) (platform : Platform) (service : EmbeddingService)
    (points : List VectorRecord) (answers : (request : Request) → request.Reply) : Prop where
  embedded : ∀ documents, answers (.embedDocuments documents) =
    embedDocuments settings service documents
  reused : ∀ scope documents commitSha model preprocessing,
    answers (.reusableVectors scope documents commitSha model preprocessing) =
      reusableVectors settings .answered scope documents commitSha model preprocessing points
  recorded : ∀ actualMode fallbackReason counts files,
    answers (.store (.recordFreshnessPlan actualMode fallbackReason counts files)) = .ok ()

/-- `_embed_and_store` from the reused vectors on. -/
def embedRest (settings : Settings) (platform : Platform) (context : JobContext)
    (cloned : ClonedRepository) (prepared : List PreparedEmbedding) (reused : VectorMap) :
    Work Nat := do
  let toEmbed := prepared.filter fun document => document.itemId ∉ reused
  let embeddings ← raising (← Task.ask (.embedDocuments toEmbed))
  if embeddings.keys.length = toEmbed.length then
    storeVectors settings platform context cloned prepared toEmbed reused embeddings
  else
    throw (workerError "embedding_result_count_mismatch"
      "The embedding service returned an invalid response" false)

section Run

variable {settings : Settings} {platform : Platform} {context : JobContext}
  {cloned : ClonedRepository} {answers : (request : Request) → request.Reply}

theorem requests_store (call : StoreCall) (state : RunState) :
    (store call).requests answers state = [.store call] := by
  simp only [store, Task.requests_bind, Task.requests_ask, Task.outcome_ask]
  cases answers (.store call) <;> rfl

theorem outcome_store (call : StoreCall) (state : RunState) :
    (store call).outcome answers state =
      (match answers (.store call) with
        | .ok reply => .ok reply
        | .error failure => .error failure, state) := by
  simp only [store, Task.outcome_bind, Task.outcome_ask]
  cases answers (.store call) <;> rfl

/-- Runs with one beginning store the same records if their rests do. -/
theorem upserts_bind_congr {First Result : Type} {first : Work First}
    {left right : First → Work Result} {state : RunState}
    (same : ∀ value state', first.outcome answers state = (.ok value, state') →
      upserts ((left value).requests answers state') =
        upserts ((right value).requests answers state')) :
    upserts ((first >>= left).requests answers state) =
      upserts ((first >>= right).requests answers state) := by
  rw [Task.requests_bind, Task.requests_bind, upserts_append, upserts_append]
  cases ended : first.outcome answers state with
  | mk result state' =>
      cases result with
      | error failure => rfl
      | ok value => exact congrArg _ (same value state' ended)

theorem upserts_store_pure {Result : Type} (call : StoreCall) (value : Result) (state : RunState) :
    upserts ((store call >>= fun _ => (pure value : Work Result)).requests answers state) = [] := by
  rw [Task.requests_bind, requests_store, outcome_store, upserts_append]
  cases answers (.store call) <;> rfl

/-- Only the vectors of the documents decide what is stored. -/
theorem upserts_storeVectors {prepared embedded embedded' : List PreparedEmbedding}
    {reused reused' embeddings embeddings' : VectorMap}
    (same : prepared.map (vectorOf reused embeddings) = prepared.map (vectorOf reused' embeddings'))
    (state : RunState) :
    upserts ((storeVectors settings platform context cloned prepared embedded reused
        embeddings).requests answers state) =
      upserts ((storeVectors settings platform context cloned prepared embedded' reused'
        embeddings').requests answers state) := by
  have records (scope : VectorScope) :
      (prepared.map fun document => buildVectorRecord settings platform scope document
        (vectorOf reused embeddings document) (policyFingerprint settings platform)) =
      prepared.map fun document => buildVectorRecord settings platform scope document
        (vectorOf reused' embeddings' document) (policyFingerprint settings platform) := by
    apply List.map_congr_left
    intro document member
    rw [List.map_inj_left.mp same document member]
  unfold storeVectors
  apply upserts_bind_congr
  intro _ state _
  apply upserts_bind_congr
  intro scope state _
  apply upserts_bind_congr
  intro eligible state _
  cases eligible with
  | false => simp only [Bool.false_eq_true, if_false]
  | true =>
      simp only [if_true]
      apply upserts_bind_congr
      intro _ state _
      apply upserts_bind_congr
      intro _ state _
      apply upserts_bind_congr
      intro _ state _
      apply upserts_bind_congr
      intro _ state _
      rw [records scope]
      apply upserts_bind_congr
      intro _ state _
      apply upserts_bind_congr
      intro _ state _
      rw [upserts_store_pure, upserts_store_pure]

theorem upserts_embedRest_ok {prepared : List PreparedEmbedding} {reused embeddings : VectorMap}
    {state : RunState}
    (answered : answers (.embedDocuments
      (prepared.filter fun document => document.itemId ∉ reused)) = .ok embeddings)
    (counted : embeddings.keys.length =
      (prepared.filter fun document => document.itemId ∉ reused).length) :
    upserts ((embedRest settings platform context cloned prepared reused).requests answers state) =
      upserts ((storeVectors settings platform context cloned prepared
        (prepared.filter fun document => document.itemId ∉ reused) reused embeddings).requests
          answers state) := by
  simp only [embedRest, Task.requests_bind, Task.requests_ask, Task.outcome_ask, answered]
  simp only [raising, Task.requests_pure, Task.outcome_pure, if_pos counted]
  rfl

theorem upserts_embedRest_error {prepared : List PreparedEmbedding} {reused : VectorMap}
    {state : RunState} {failure : Failure}
    (answered : answers (.embedDocuments
      (prepared.filter fun document => document.itemId ∉ reused)) = .error failure) :
    upserts ((embedRest settings platform context cloned prepared reused).requests answers state) =
      [] := by
  simp only [embedRest, Task.requests_bind, Task.requests_ask, Task.outcome_ask, answered]
  rfl

/-- A document that the service refuses is embedded, so nothing is stored. -/
theorem upserts_embedRest_refused {service : EmbeddingService} {points : List VectorRecord}
    (answering : Answering settings platform service points answers)
    {prepared : List PreparedEmbedding} {document : PreparedEmbedding}
    (member : document ∈ prepared)
    (refused : textVector settings service document.text = none) {kept : VectorMap}
    (unlisted : document.itemId ∉ kept) (state : RunState) :
    upserts ((embedRest settings platform context cloned prepared kept).requests answers state) =
      [] := by
  obtain ⟨failure, failed⟩ := @embedDocuments_refused settings service
    (prepared.filter fun document => document.itemId ∉ kept) document
    (List.mem_filter.mpr ⟨member, by simpa using unlisted⟩) refused
  exact upserts_embedRest_error (answering.embedded _ ▸ failed)

/-- Keeping vectors that the service would give changes nothing that is stored. -/
theorem upserts_embedRest {service : EmbeddingService} {points : List VectorRecord}
    (answering : Answering settings platform service points answers)
    {prepared : List PreparedEmbedding} (items : (prepared.map (·.itemId)).Nodup)
    {reused : VectorMap} (sound : ∀ document ∈ prepared, ∀ vector,
      reused.lookup document.itemId = some vector →
        textVector settings service document.text = some vector) (state : RunState) :
    upserts ((embedRest settings platform context cloned prepared reused).requests answers state) =
      upserts ((embedRest settings platform context cloned prepared ∅).requests answers state) := by
  by_cases embedded : ∀ document ∈ prepared,
      (textVector settings service document.text).isSome = true
  · have stored : ∀ kept : VectorMap, (∀ document ∈ prepared, ∀ vector,
        kept.lookup document.itemId = some vector →
          textVector settings service document.text = some vector) →
        ∃ embeddings, embedDocuments settings service
            (prepared.filter fun document => document.itemId ∉ kept) = .ok embeddings ∧
          embeddings.keys.length =
            (prepared.filter fun document => document.itemId ∉ kept).length ∧
          ∀ document ∈ prepared, vectorOf kept embeddings document =
            (textVector settings service document.text).getD [] := by
      intro kept keptSound
      obtain ⟨embeddings, run, counted, found⟩ := embedDocuments_all
        (items.sublist (List.filter_sublist.map _))
        fun document member => embedded document (List.mem_filter.mp member).1
      refine ⟨embeddings, run, counted, ?_⟩
      intro document member
      unfold vectorOf
      cases listed : kept.lookup document.itemId with
      | some vector => rw [keptSound document member vector listed, Option.getD_some, Option.getD_some]
      | none =>
          have unlisted : document.itemId ∉ kept := AList.lookup_eq_none.mp listed
          rw [Option.getD_none, found document (List.mem_filter.mpr ⟨member, by simpa using unlisted⟩)]
    obtain ⟨embeddings, run, counted, vectors⟩ := stored reused sound
    obtain ⟨embeddings', run', counted', vectors'⟩ := stored ∅ fun _ _ _ impossible => by
      cases impossible
    have same : prepared.map (vectorOf reused embeddings) = prepared.map (vectorOf ∅ embeddings') := by
      apply List.map_congr_left
      intro document member
      rw [vectors document member, vectors' document member]
    rw [upserts_embedRest_ok (answering.embedded _ ▸ run) counted,
      upserts_embedRest_ok (answering.embedded _ ▸ run') counted']
    exact upserts_storeVectors same state
  · obtain ⟨document, member, refused⟩ : ∃ document ∈ prepared,
        textVector settings service document.text = none := by
      by_contra every
      apply embedded
      intro document member
      rw [Option.isSome_iff_ne_none]
      exact fun absent => every ⟨document, member, absent⟩
    have unlisted : document.itemId ∉ reused := by
      intro listed
      obtain ⟨vector, found⟩ := Option.isSome_iff_exists.mp (AList.lookup_isSome.mpr listed)
      rw [sound document member vector found] at refused
      cases refused
    rw [upserts_embedRest_refused answering member refused unlisted,
      upserts_embedRest_refused answering member refused (AList.notMem_empty _)]

theorem make?_eq_none {installationId : Option InstallationId} {repositoryId : RepositoryId}
    {indexVersion : Nat} {accessMode : RepositoryAccessMode} {githubRepositoryId : Option Nat} :
    VectorScope.make? installationId repositoryId indexVersion accessMode githubRepositoryId =
        none ↔
      ¬ (1 ≤ indexVersion ∧ sourceValid accessMode installationId githubRepositoryId = true) := by
  unfold VectorScope.make?
  by_cases valid : 1 ≤ indexVersion ∧
      sourceValid accessMode installationId githubRepositoryId = true
  · simp [valid]
  · rw [dif_neg valid]
    simp [valid]

/-- Whether a scope is valid depends on its version only through its being positive. -/
theorem contextScope_none {indexVersion : Nat} (positive : 0 < indexVersion)
    (invalid : contextScope context indexVersion = none) (other : Nat) :
    contextScope context other = none := by
  unfold contextScope at invalid ⊢
  rw [make?_eq_none] at invalid ⊢
  exact fun valid => invalid ⟨positive, valid.2⟩

theorem upserts_storeVectors_unscoped {prepared embedded : List PreparedEmbedding}
    {reused embeddings : VectorMap} (invalid : contextScope context context.indexVersion = none)
    (state : RunState) :
    upserts ((storeVectors settings platform context cloned prepared embedded reused
      embeddings).requests answers state) = [] := by
  have unscoped : upserts ((storeVectors settings platform context cloned prepared embedded reused
      embeddings).requests answers state) =
      upserts ((store (.stage .finalizing "storing_vectors" 92 (some cloned.commitSha)) >>=
        fun _ => (throw .internal : Work Nat)).requests answers state) := by
    unfold storeVectors scopeAt
    apply upserts_bind_congr
    intro _ state _
    simp only [invalid]
    rfl
  rw [unscoped, Task.requests_bind, upserts_append, requests_store]
  cases (store (.stage .finalizing "storing_vectors" 92
    (some cloned.commitSha))).outcome answers state with
  | mk result left => cases result <;> rfl

theorem upserts_embedRest_unscoped {prepared : List PreparedEmbedding} {reused : VectorMap}
    (invalid : contextScope context context.indexVersion = none) (state : RunState) :
    upserts ((embedRest settings platform context cloned prepared reused).requests answers state) =
      [] := by
  cases answered : answers (.embedDocuments
      (prepared.filter fun document => document.itemId ∉ reused)) with
  | error failure => exact upserts_embedRest_error answered
  | ok embeddings =>
      by_cases counted : embeddings.keys.length =
          (prepared.filter fun document => document.itemId ∉ reused).length
      · rw [upserts_embedRest_ok answered counted]
        exact upserts_storeVectors_unscoped invalid state
      · simp only [embedRest, Task.requests_bind, Task.requests_ask, Task.outcome_ask, answered]
        simp only [raising, Task.requests_pure, Task.outcome_pure, if_neg counted]
        rfl

theorem upserts_recordPlan (plan : FreshnessPlan) (actualMode : IndexingMode)
    (fallbackReason : Option String) (state : RunState) :
    upserts ((recordPlan plan actualMode fallbackReason).requests answers state) = [] :=
  congrArg upserts (requests_store _ state)

theorem outcome_recordPlan {service : EmbeddingService} {points : List VectorRecord}
    (answering : Answering settings platform service points answers) (plan : FreshnessPlan)
    (actualMode : IndexingMode) (fallbackReason : Option String) (state : RunState) :
    (recordPlan plan actualMode fallbackReason).outcome answers state = (.ok (), state) := by
  refine (outcome_store _ state).trans ?_
  rw [answering.recorded]

/-- Whatever a plan lets a run keep, it stores what a run that keeps nothing stores. -/
theorem upserts_reuse {service : EmbeddingService} {points : List VectorRecord}
    (answering : Answering settings platform service points answers)
    (sha256Injective : Function.Injective platform.sha256Hex)
    (held : ∀ active, contextScope context context.activeIndexVersion = some active →
      HoldsEmbeddings settings platform service active (context.activeCommitSha.getD "") points)
    {prepared : List PreparedEmbedding} (items : (prepared.map (·.itemId)).Nodup)
    (fingerprints : ∀ document ∈ prepared, document.fingerprint =
      platform.sha256Hex (policyFingerprint settings platform ++ "\n" ++ document.text))
    (plan : FreshnessPlan) (state : RunState) :
    upserts ((reuseVectors settings platform context plan prepared >>=
        embedRest settings platform context cloned prepared).requests answers state) =
      upserts ((embedRest settings platform context cloned prepared ∅).requests answers state) := by
  have reusableOf : ∀ document ∈ reusableDocuments plan prepared, document ∈ prepared :=
    fun document member => (List.mem_filter.mp member).1
  unfold reuseVectors
  by_cases incremental : plan.actualMode = .incremental ∧ 0 < context.activeIndexVersion
  · rw [if_pos incremental]
    unfold scopeAt
    cases placed : contextScope context context.activeIndexVersion with
    | none =>
        rw [upserts_embedRest_unscoped (contextScope_none incremental.2 placed _)]
        rfl
    | some active =>
        have outcome := reusableVectors_outcome sha256Injective
          (fun document member => fingerprints document (reusableOf document member))
          (held active placed)
        simp only [Task.requests_bind, Task.outcome_bind, Task.requests_pure, Task.outcome_pure,
          Task.requests_ask, Task.outcome_ask, answering.reused]
        cases kept : reusableVectors settings .answered active (reusableDocuments plan prepared)
            (context.activeCommitSha.getD "") (modelFingerprint settings platform)
            (policyFingerprint settings platform) points with
        | error failure =>
            rw [kept] at outcome
            obtain ⟨document, member, refused⟩ := outcome
            rw [upserts_embedRest_refused answering (reusableOf document member) refused
              (AList.notMem_empty _)]
            rfl
        | ok reused =>
            rw [kept] at outcome
            have sound : ∀ document ∈ prepared, ∀ vector,
                reused.lookup document.itemId = some vector →
                  textVector settings service document.text = some vector := by
              intro document member vector listed
              obtain ⟨other, otherMember, named, embedded⟩ := outcome _ _ listed
              rw [← List.inj_on_of_nodup_map items (reusableOf other otherMember) member named]
              exact embedded
            have rest := @upserts_embedRest settings platform context cloned answers service points
              answering prepared items reused sound state
            by_cases complete : reused.keys.length = (reusableDocuments plan prepared).length
            · simp only [raising, Task.requests_pure, Task.outcome_pure, if_pos complete]
              rw [upserts_append]
              exact rest
            · have recorded := @outcome_recordPlan settings platform answers service points answering
                plan .full (some "previous_artifact_missing") state
              simp only [raising, Task.requests_pure, Task.outcome_pure, if_neg complete,
                Task.requests_bind, Task.outcome_bind, recorded, upserts_append,
                upserts_recordPlan]
              rfl
  · rw [if_neg incremental]
    rfl

/-- The plan of a run does not show in what it stores. -/
theorem upserts_any_plan {service : EmbeddingService} {points : List VectorRecord}
    (answering : Answering settings platform service points answers)
    (sha256Injective : Function.Injective platform.sha256Hex)
    (held : ∀ active, contextScope context context.activeIndexVersion = some active →
      HoldsEmbeddings settings platform service active (context.activeCommitSha.getD "") points)
    {processing : ProcessingResult} (ordinals : (processing.chunks.map (·.ordinal)).Nodup)
    (first second : FreshnessPlan) (state : RunState) :
    upserts ((embedAndStore settings platform context cloned processing first).requests
        answers state) =
      upserts ((embedAndStore settings platform context cloned processing second).requests
        answers state) := by
  unfold embedAndStore
  apply upserts_bind_congr
  intro _ state _
  apply upserts_bind_congr
  intro prepared state ended
  have accepted : processing.chunks.mapM (prepareChunk settings platform) = .ok prepared := by
    cases prepareds : processing.chunks.mapM (prepareChunk settings platform) with
    | error failure =>
        rw [prepareds] at ended
        cases ended
    | ok documents =>
        rw [prepareds] at ended
        cases ended
        rfl
  have items := prepareChunks_items accepted ordinals
  have fingerprints := (prepareChunks_ok accepted).2
  have kept (plan : FreshnessPlan) := @upserts_reuse settings platform context cloned answers service
    points answering sha256Injective held prepared items fingerprints plan state
  exact (kept first).trans (kept second).symm

/-- For one analysis result, any two plans store the same records: an
incremental refresh those of a full rebuild, whatever files its comparison
named. The analyzer numbers its chunks. -/
theorem incremental_stores_full {service : EmbeddingService} {points : List VectorRecord}
    (answering : Answering settings platform service points answers)
    (sha256Injective : Function.Injective platform.sha256Hex)
    (held : ∀ active, contextScope context context.activeIndexVersion = some active →
      HoldsEmbeddings settings platform service active (context.activeCommitSha.getD "") points)
    {processing : ProcessingResult} (ordinals : (processing.chunks.map (·.ordinal)).Nodup)
    (incremental full : FreshnessPlan) (state : RunState) :
    upserts ((embedAndStore settings platform context cloned processing incremental).requests
        answers state) =
      upserts ((embedAndStore settings platform context cloned processing full).requests
        answers state) :=
  upserts_any_plan answering sha256Injective held ordinals incremental full state

/-- In particular for the result of an analysis, whose chunks are numbered. -/
theorem analyzed_stores_full {service : EmbeddingService} {points : List VectorRecord}
    (answering : Answering settings platform service points answers)
    (sha256Injective : Function.Injective platform.sha256Hex)
    (held : ∀ active, contextScope context context.activeIndexVersion = some active →
      HoldsEmbeddings settings platform service active (context.activeCommitSha.getD "") points)
    {limits : ParserLimits} {tools : AnalysisTools} {discovery : DiscoveryResult}
    {scope : GraphScope} {processing : ProcessingResult}
    (analyzed : RepositoryAnalyzer.analyze limits tools discovery scope = .ok processing)
    (incremental full : FreshnessPlan) (state : RunState) :
    upserts ((embedAndStore settings platform context cloned processing incremental).requests
        answers state) =
      upserts ((embedAndStore settings platform context cloned processing full).requests
        answers state) :=
  upserts_any_plan answering sha256Injective held (RepositoryAnalyzer.analyze_ordinals analyzed)
    incremental full state

end Run

/-! ## A refresh of one unchanged chunk -/

namespace UnchangedChunk

def settings : Settings where
  embeddingModelIdentifier := "model"
  embeddingModelRevision := "revision"
  embeddingDimension := 1

def platform : Platform where
  sha256Hex := id
  uuid5 := fun _ _ => 0
  textLe := fun _ _ => true

def service : EmbeddingService :=
  fun _ => .ok [1]

def context : JobContext where
  jobId := 1
  repositoryId := 1
  installationId := some 1
  githubInstallationId := some 11
  owner := "acme"
  name := "app"
  defaultBranch := "main"
  indexVersion := 2
  activeIndexVersion := 1
  activeCommitSha := some "first"

def cloned : ClonedRepository where
  checkout := "checkout"
  commitSha := "second"

def chunk (indexVersion : Nat) (commitSha : CommitSha) : ContentChunk where
  repositoryId := 1
  indexVersion := indexVersion
  ordinal := 0
  filePath := "main.py"
  language := "python"
  chunkType := .moduleChunk
  startLine := 1
  endLine := 1
  commitSha := commitSha
  contentHash := "hash"
  content := "x = 1"

def processing : ProcessingResult where
  repositoryId := 1
  indexVersion := 2
  commitSha := "second"
  chunkCount := 1
  chunks := [chunk 2 "second"]
  chunksCounted := List.length_singleton.symm
  edgesStamped := no_edges_stamped "second"

def activeScope : VectorScope where
  installationId := some 1
  repositoryId := 1
  indexVersion := 1
  accessMode := .githubInstallation
  githubRepositoryId := none
  versioned := by decide
  sourced := rfl

/-- The chunk as the active version stored it. -/
def stored : VectorRecord :=
  buildVectorRecord settings platform activeScope
    { itemId := "0"
      text := chunkText settings (chunk 1 "first")
      fingerprint := policyFingerprint settings platform ++ "\n" ++
        chunkText settings (chunk 1 "first")
      chunk := chunk 1 "first" }
    [1] (policyFingerprint settings platform)

def builtScope : VectorScope :=
  { activeScope with indexVersion := 2, versioned := by decide }

/-- The chunk as the new version stores it. -/
def restored : VectorRecord :=
  buildVectorRecord settings platform builtScope
    { itemId := "0"
      text := chunkText settings (chunk 2 "second")
      fingerprint := policyFingerprint settings platform ++ "\n" ++
        chunkText settings (chunk 2 "second")
      chunk := chunk 2 "second" }
    [1] (policyFingerprint settings platform)

def answers : (request : Request) → request.Reply
  | .embedDocuments documents => embedDocuments settings service documents
  | .reusableVectors scope documents commitSha model preprocessing =>
      reusableVectors settings .answered scope documents commitSha model preprocessing [stored]
  | .store (.recordFreshnessPlan _ _ _ _) => .ok ()
  | .store (.stage _ _ _ _) => .ok ()
  | .store (.canCleanupInactive _ _) => .ok true
  | .store (.recordVectorCounts _ _ _ _) => .ok ()
  | .store _ => .error .internal
  | .ensureCollection => .ok ()
  | .deleteScope _ => .ok ()
  | .upsert _ _ => .ok ()
  | .publicRepository _ _ => .error .internal
  | .installationToken _ _ => .error .internal
  | .clone _ _ _ _ => .error .internal
  | .comparePublic _ _ _ _ => .error .internal
  | .compare _ _ _ _ _ => .error .internal
  | .discover _ => .error .internal
  | .chunking _ => .error .internal
  | .graphing _ => .error .internal
  | .analysisResult _ => .error .internal
  | .validateScope _ _ _ _ => .error .internal

/-- The records stored under a plan that names no changed file. -/
def storedUnder (actualMode : IndexingMode) : List (VectorScope × List VectorRecord) :=
  upserts ((embedAndStore settings platform context cloned processing
    ⟨actualMode, none, {}⟩).requests answers {})

end UnchangedChunk

open UnchangedChunk in
/-- The incremental run keeps the vector, and stores it under the new version. -/
theorem unchanged_chunk_stored : storedUnder .incremental = storedUnder .full ∧
    storedUnder .incremental = [(builtScope, [restored])] := by
  have answering : Answering settings platform service [stored] answers :=
    ⟨fun _ => rfl, fun _ _ _ _ _ => rfl, fun _ _ _ _ => rfl⟩
  have held : ∀ active, contextScope context context.activeIndexVersion = some active →
      HoldsEmbeddings settings platform service active (context.activeCommitSha.getD "")
        [stored] := by
    intro active _ record member _
    rw [List.mem_singleton.mp member]
    exact ⟨chunkText settings (chunk 1 "first"), rfl, rfl⟩
  have same : storedUnder .incremental = storedUnder .full :=
    incremental_stores_full answering Function.injective_id held (by decide) _ _ _
  refine ⟨same, same.trans ?_⟩
  decide +kernel

end Codenaut.Indexing
