import Codenaut.Embeddings.PreparedSizes
import Codenaut.Embeddings.Requests
import Codenaut.Indexing.IncrementalRefresh
import Mathlib.Algebra.Order.BigOperators.Group.List

/-!
# Sizes of embedding requests

The bytes of a request, character by character, and the checks of the service. A
batch of prepared documents passes every check on texts where the limits of the
two sides agree. The limit on the body counts escapes and keys as well.
-/

set_option autoImplicit false

namespace Codenaut.Embeddings

open Codenaut.Core Codenaut.Indexing Codenaut.Text Codenaut.Vector

/-! ## Encoded sizes -/

/-- The bytes that escaping adds to a character. -/
def escapeBytes (char : Char) : Nat :=
  if char ∈ ['\x22', '\x5c', '\n', '\r', '\t', '\x08', '\x0c'] then 1
  else if char.toNat < 32 then 5
  else 0

/-- The bytes of a text between its quotes. -/
def escapedBytes (text : String) : Nat :=
  text.utf8ByteSize + (text.toList.map escapeBytes).sum

/-- The bytes of the body: its keys and quotes, and for each document those of
the keys and quotes, of the identifier and of the text. -/
def encodedBytes (request : EmbeddingRequest) : Nat :=
  33 + (request.documents.map fun document =>
    20 + escapedBytes document.id + escapedBytes document.text).sum

section Encoding

theorem byteLength_control : ∀ number < 32,
    byteLength (['\x5c', 'u'] ++ hexDigits 4 number) = 6 := by
  decide

theorem byteLength_escapeChar (char : Char) :
    byteLength (escapeChar char) = char.utf8Size + escapeBytes char := by
  unfold escapeBytes
  by_cases short : char ∈ ['\x22', '\x5c', '\n', '\r', '\t', '\x08', '\x0c']
  · rw [if_pos short]
    simp only [List.mem_cons, List.not_mem_nil, or_false] at short
    rcases short with rfl | rfl | rfl | rfl | rfl | rfl | rfl <;> rfl
  · rw [if_neg short]
    simp only [List.mem_cons, List.not_mem_nil, or_false, not_or] at short
    obtain ⟨quote, slash, feed, carriage, tab, backspace, page⟩ := short
    unfold escapeChar
    simp only [quote, slash, feed, carriage, tab, backspace, page, if_false]
    split
    case isTrue control =>
      rw [byteLength_control _ control]
      have single : char.utf8Size = 1 := by
        have small : char.val ≤ 0x7f := by
          have number : char.val.toNat < 32 := control
          rw [UInt32.le_iff_toNat_le]
          exact Nat.le_of_lt (Nat.lt_of_lt_of_le number (by decide))
        unfold Char.utf8Size
        exact if_pos small
      omega
    case isFalse => simp [byteLength]

/-- An escape takes at most six bytes for a character. -/
theorem escapedBytes_le (text : String) : escapedBytes text ≤ 6 * text.utf8ByteSize := by
  have added := List.sum_le_card_nsmul (text.toList.map escapeBytes) 5 (by
    intro bytes member
    obtain ⟨char, -, rfl⟩ := List.mem_map.mp member
    unfold escapeBytes
    split
    · decide
    · split <;> decide)
  have chars := length_le_utf8ByteSize text
  rw [List.length_map, String.length_toList] at added
  have added : (text.toList.map escapeBytes).sum ≤ text.length * 5 := added
  unfold escapedBytes
  omega

theorem byteLength_escaped (text : List Char) :
    byteLength (text.flatMap escapeChar) = byteLength text + (text.map escapeBytes).sum := by
  induction text with
  | nil => rfl
  | cons char rest ih =>
      rw [List.flatMap_cons, byteLength_append, ih, byteLength_escapeChar, byteLength_cons,
        List.map_cons, List.sum_cons]
      omega

theorem jsonText_size (text : String) :
    (jsonText text).utf8ByteSize = escapedBytes text + 2 := by
  have quote : "\"".utf8ByteSize = 1 := by decide +kernel
  have own := utf8ByteSize_ofList text.toList
  rw [String.ofList_toList] at own
  have inner := utf8ByteSize_ofList (text.toList.flatMap escapeChar)
  rw [byteLength_escaped, ← own] at inner
  rw [jsonText, String.utf8ByteSize_append, String.utf8ByteSize_append, inner, quote, escapedBytes]
  omega

theorem documentJson_size (document : EmbeddingDocument) :
    (documentJson document).utf8ByteSize =
      19 + escapedBytes document.id + escapedBytes document.text := by
  have opening : "\x7b".utf8ByteSize = 1 := by decide +kernel
  have closing : "\x7d".utf8ByteSize = 1 := by decide +kernel
  have colon : ":".utf8ByteSize = 1 := by decide +kernel
  have comma : ",".utf8ByteSize = 1 := by decide +kernel
  have id : (jsonText "id").utf8ByteSize = 4 := by decide +kernel
  have text : (jsonText "text").utf8ByteSize = 6 := by decide +kernel
  simp only [documentJson, jsonObject, List.map_cons, List.map_nil, String.intercalate_cons_cons,
    String.intercalate_singleton, String.utf8ByteSize_append, jsonText_size document.id,
    jsonText_size document.text, opening, closing, colon, comma, id, text]
  omega

theorem intercalate_size {texts : List String} (some : texts ≠ []) :
    (String.intercalate "," texts).utf8ByteSize + 1 =
      (texts.map fun text => text.utf8ByteSize + 1).sum := by
  have comma : ",".utf8ByteSize = 1 := by decide +kernel
  induction texts with
  | nil => exact absurd rfl some
  | cons first rest ih =>
      cases rest with
      | nil => simp
      | cons next rest =>
          have later := ih (List.cons_ne_nil next rest)
          rw [String.intercalate_cons_cons, String.utf8ByteSize_append, String.utf8ByteSize_append,
            comma, List.map_cons, List.sum_cons, ← later]
          omega

theorem requestBody_size {request : EmbeddingRequest} (kind : request.kind = .document)
    (some : request.documents ≠ []) :
    (requestBody request).utf8ByteSize = encodedBytes request := by
  have opening : "\x7b".utf8ByteSize = 1 := by decide +kernel
  have closing : "\x7d".utf8ByteSize = 1 := by decide +kernel
  have first : "[".utf8ByteSize = 1 := by decide +kernel
  have last : "]".utf8ByteSize = 1 := by decide +kernel
  have colon : ":".utf8ByteSize = 1 := by decide +kernel
  have comma : ",".utf8ByteSize = 1 := by decide +kernel
  have kindKey : (jsonText "kind").utf8ByteSize = 6 := by decide +kernel
  have kindValue : (jsonText "document").utf8ByteSize = 10 := by decide +kernel
  have documentsKey : (jsonText "documents").utf8ByteSize = 11 := by decide +kernel
  have listed := @intercalate_size (request.documents.map documentJson) (by simpa using some)
  have sizes : (fun document => (documentJson document).utf8ByteSize + 1) =
      fun document => 20 + escapedBytes document.id + escapedBytes document.text := by
    funext document
    rw [documentJson_size]
    omega
  have mapped : ((request.documents.map documentJson).map fun text => text.utf8ByteSize + 1) =
      request.documents.map fun document =>
        20 + escapedBytes document.id + escapedBytes document.text := by
    rw [List.map_map, ← sizes]
    rfl
  rw [mapped] at listed
  simp only [requestBody, jsonObject, kind, EmbeddingKind.value, List.map_cons, List.map_nil,
    String.intercalate_cons_cons, String.intercalate_singleton, String.utf8ByteSize_append, opening,
    closing, first, last, colon, comma, kindKey, kindValue, documentsKey, encodedBytes]
  omega

end Encoding

/-! ## Requests of the client -/

/-- The limits of the service are no lower than what the client may send. -/
structure Agreed (client : ClientSettings) (service : ServiceSettings) : Prop where
  documents : client.embeddingBatchSize ≤ service.maxDocumentsPerRequest
  documentBytes : client.embeddingMaxDocumentBytes ≤ service.maxTextBytesPerDocument
  totalBytes : client.embeddingBatchSize * client.embeddingMaxDocumentBytes ≤
    service.maxTotalTextBytes

/-- Every document was prepared under the settings of the client. -/
def Prepared (client : ClientSettings) (platform : Platform)
    (documents : List PreparedEmbedding) : Prop :=
  ∀ document ∈ documents, ∃ chunk, prepareChunk client.toSettings platform chunk = .ok document

section Requests

variable {client : ClientSettings} {service : ServiceSettings} {platform : Platform}
  {documents batch : List PreparedEmbedding} {request : EmbeddingRequest}

theorem prepareChunk_size {settings : Settings} {chunk : ContentChunk}
    {document : PreparedEmbedding}
    (prepared : prepareChunk settings platform chunk = .ok document) :
    document.text.utf8ByteSize ≤ settings.embeddingMaxDocumentBytes := by
  unfold prepareChunk at prepared
  dsimp only at prepared
  split at prepared
  · cases prepared
  case isFalse fits =>
    cases prepared
    exact Nat.not_lt.mp fits

/-- A batch is a part of the documents, of the batch size at most. -/
theorem batches_bounded {size : Nat} (positive : 1 ≤ size)
    (member : batch ∈ batches size documents) :
    batch ≠ [] ∧ batch.length ≤ size ∧ ∀ document ∈ batch, document ∈ documents := by
  obtain ⟨index, listed, rfl⟩ := List.mem_map.mp member
  rw [List.mem_range] at listed
  refine ⟨?_, List.length_take_le _ _, fun document inside =>
    List.mem_of_mem_drop (List.mem_of_mem_take inside)⟩
  have rounded := (Nat.le_div_iff_mul_le positive).mp listed
  rw [Nat.succ_mul] at rounded
  have within : index * size < documents.length := by omega
  rw [← List.length_pos_iff, List.length_take, List.length_drop]
  omega

/-- What the client demands before it sends a request. -/
structure SentRequest (batch : List PreparedEmbedding) (request : EmbeddingRequest) : Prop where
  kind : request.kind = .document
  documents : request.documents = batch.map fun prepared => ⟨prepared.itemId, prepared.text⟩
  distinct : (request.documents.map (·.id)).Nodup
  measured : request.documents.all (·.measured) = true

theorem batchRequest_sent (made : batchRequest .document batch = .ok request) :
    SentRequest batch request := by
  unfold batchRequest at made
  dsimp only at made
  split at made
  · cases made
  case isFalse distinct =>
    split at made
    case isTrue measured =>
      cases made
      refine ⟨rfl, rfl, ?_, measured⟩
      rw [List.map_map]
      exact Decidable.not_not.mp distinct
    · cases made

theorem isIdChar_of_digit {number : Nat} :
    ∀ char ∈ (toString number).toList, isIdChar char = true := by
  intro char member
  have digits : char ∈ Nat.toDigits 10 number := by
    simpa [Nat.toList_repr] using (show char ∈ (Nat.repr number).toList from member)
  have digit := Nat.isDigit_of_mem_toDigits (by decide) (by decide) digits
  simp [isIdChar, Char.isAlphanum, digit]

/-- A batch of prepared documents passes every check on its texts. -/
theorem SentRequest.checked (sent : SentRequest batch request) (agreed : Agreed client service)
    (prepared : Prepared client platform batch) (some : batch ≠ [])
    (bounded : batch.length ≤ client.embeddingBatchSize) :
    validateRequest request = .ok () ∧ checkRequest service request = .ok () := by
  have listed : ∀ document ∈ request.documents, ∃ source ∈ batch,
      document = ⟨source.itemId, source.text⟩ := by
    rw [sent.documents]
    exact fun document member => (List.mem_map.mp member).imp fun _ both => ⟨both.1, both.2.symm⟩
  have filled : request.documents ≠ [] := by simpa [sent.documents] using some
  have counted : request.documents.length = batch.length := by simp [sent.documents]
  have ids : ∀ document ∈ request.documents, document.id.toList.all isIdChar = true := by
    intro document member
    obtain ⟨source, inBatch, rfl⟩ := listed document member
    obtain ⟨chunk, made⟩ := prepared source inBatch
    rw [List.all_eq_true, (prepareChunk_ok made).1]
    exact isIdChar_of_digit
  have sizes : ∀ bytes ∈ request.documents.map (·.text.utf8ByteSize),
      bytes ≤ client.embeddingMaxDocumentBytes := by
    intro bytes member
    obtain ⟨document, inRequest, rfl⟩ := List.mem_map.mp member
    obtain ⟨source, inBatch, rfl⟩ := listed document inRequest
    obtain ⟨chunk, made⟩ := prepared source inBatch
    exact prepareChunk_size made
  have total : (request.documents.map (·.text.utf8ByteSize)).sum ≤ service.maxTotalTextBytes := by
    calc (request.documents.map (·.text.utf8ByteSize)).sum
        ≤ (request.documents.map (·.text.utf8ByteSize)).length •
          client.embeddingMaxDocumentBytes := List.sum_le_card_nsmul _ _ sizes
      _ = batch.length * client.embeddingMaxDocumentBytes := by
          rw [List.length_map, counted]
          rfl
      _ ≤ client.embeddingBatchSize * client.embeddingMaxDocumentBytes :=
          Nat.mul_le_mul_right _ bounded
      _ ≤ service.maxTotalTextBytes := agreed.totalBytes
  have single : (request.documents.map (·.text.utf8ByteSize)).any
      (· > service.maxTextBytesPerDocument) = false := by
    rw [List.any_eq_false]
    intro bytes member
    have small := (sizes bytes member).trans agreed.documentBytes
    simpa using small
  have few : ¬request.documents.length > service.maxDocumentsPerRequest := by
    have limit := agreed.documents
    omega
  constructor
  · refine if_pos ⟨filled, List.all_eq_true.mpr fun document member => ?_⟩
    rw [List.all_eq_true.mp sent.measured document member, ids document member]
    rfl
  · unfold checkRequest
    dsimp only
    rw [if_neg few, if_neg (by simp [sent.kind]), if_neg (not_not.mpr sent.distinct), single,
      if_neg Bool.false_ne_true, if_neg (Nat.not_lt.mpr total)]

end Requests

/-- The service takes a request of the client just where its encoded bytes are
within the limit of the body. -/
theorem request_received_iff (client : ClientSettings) (service : ServiceSettings)
    (platform : Platform) (documents : List PreparedEmbedding) (request : EmbeddingRequest)
    (agreed : Agreed client service) (prepared : Prepared client platform documents)
    (sent : request ∈ documentRequests client documents) :
    receive service request = .ok () ↔ encodedBytes request ≤ service.maxRequestBytes := by
  obtain ⟨batch, listed, made⟩ := List.mem_filterMap.mp sent
  obtain ⟨filled, bounded, inside⟩ := batches_bounded client.batchSize.1 listed
  have requested : batchRequest .document batch = .ok request := by
    cases result : batchRequest .document batch with
    | error failure =>
        rw [result] at made
        cases made
    | ok request =>
        rw [result] at made
        cases made
        rfl
  have sentRequest := batchRequest_sent requested
  obtain ⟨validated, checked⟩ := sentRequest.checked agreed
    (fun document member => prepared document (inside document member)) filled bounded
  have size := requestBody_size sentRequest.kind (by simpa [sentRequest.documents] using filled)
  unfold receive limitBody
  rw [size, validated, checked]
  by_cases fits : encodedBytes request ≤ service.maxRequestBytes
  · simp [fits, Nat.not_lt.mpr fits, bind, Except.bind]
  · simp [fits, Nat.not_le.mp fits, bind, Except.bind]

namespace RequestSamples

open ReceiverSamples DocumentSamples PreparedSamples

def smallClient : ClientSettings where
  toSettings := tightSettings.toSettings
  embeddingBatchSize := 1

/-- The limits of the client, and a body no larger than a document. -/
def smallService : ServiceSettings where
  batchSize := 1
  maxDocumentsPerRequest := 1
  maxTextBytesPerDocument := 1024
  maxTotalTextBytes := 1024
  maxRequestBytes := 1024
  documentBytes := tightSettings.embeddingDocumentBytes
  totalBytes := tightSettings.embeddingDocumentBytes
  requestBytes := tightSettings.embeddingDocumentBytes
  batchInRequest := Nat.one_pos
  documentInTotal := tightSettings.embeddingDocumentBytes
  totalInRequest := tightSettings.embeddingDocumentBytes

theorem small_agreed : Agreed smallClient smallService :=
  ⟨by decide, by decide, by decide⟩

/-- The same limits, and a body with room for escapes. -/
def wideService : ServiceSettings :=
  { smallService with
    maxRequestBytes := 4096
    requestBytes := by decide
    totalInRequest := by decide }

theorem wide_agreed : Agreed smallClient wideService :=
  ⟨by decide, by decide, by decide⟩

/-- A line of notes whose text takes all but a few bytes of a document. -/
def fullChunk : ContentChunk :=
  (notesChunk 660).head (by decide +kernel)

def preparedChunk (chunk : ContentChunk) : PreparedEmbedding where
  itemId := toString chunk.ordinal
  text := chunkText smallClient.toSettings chunk
  fingerprint := platform.sha256Hex
    (policyFingerprint smallClient.toSettings platform ++ "\n" ++
      chunkText smallClient.toSettings chunk)
  chunk := chunk

def chunkRequest (chunk : ContentChunk) : EmbeddingRequest where
  kind := .document
  documents := [⟨toString chunk.ordinal, chunkText smallClient.toSettings chunk⟩]

theorem preparedChunk_prepared {chunk : ContentChunk}
    (fits : chunk.content.utf8ByteSize + addedBytes smallClient.toSettings chunk ≤
      smallClient.embeddingMaxDocumentBytes) :
    Prepared smallClient platform [preparedChunk chunk] := by
  intro document member
  rw [List.mem_singleton.mp member]
  rw [← chunkText_size] at fits
  refine ⟨chunk, ?_⟩
  unfold prepareChunk
  dsimp only
  rw [if_neg (Nat.not_lt.mpr fits)]
  rfl

/-- One prepared chunk is sent alone. -/
theorem chunkRequest_sent {chunk : ContentChunk}
    (named : 1 ≤ (toString chunk.ordinal).length ∧ (toString chunk.ordinal).length ≤ 128) :
    chunkRequest chunk ∈ documentRequests smallClient [preparedChunk chunk] := by
  have text : 1 ≤ (chunkText smallClient.toSettings chunk).length := by
    rw [Nat.one_le_iff_ne_zero, ne_eq, String.length_eq_zero_iff]
    intro blank
    have size := chunkText_size smallClient.toSettings chunk
    rw [blank, String.utf8ByteSize_empty] at size
    unfold addedBytes at size
    omega
  have alone : batches smallClient.embeddingBatchSize [preparedChunk chunk] =
      [[preparedChunk chunk]] := by simp [batches, smallClient]
  have made : batchRequest .document [preparedChunk chunk] = .ok (chunkRequest chunk) := by
    unfold batchRequest
    have measured : EmbeddingDocument.measured ⟨toString chunk.ordinal,
        chunkText smallClient.toSettings chunk⟩ = true :=
      decide_eq_true ⟨named.1, named.2, text⟩
    simp only [List.map_cons, List.map_nil, preparedChunk, chunkRequest, List.all_cons,
      List.all_nil, measured, List.nodup_singleton]
    rfl
  unfold documentRequests
  rw [alone, List.filterMap_cons, made]
  exact List.mem_cons_self

/-- The keys and quotes of the body come on top of the text. -/
theorem chunkRequest_bytes (chunk : ContentChunk) :
    chunk.content.utf8ByteSize + addedBytes smallClient.toSettings chunk + 53 ≤
      encodedBytes (chunkRequest chunk) := by
  rw [← chunkText_size]
  simp only [encodedBytes, chunkRequest, escapedBytes, List.map_cons, List.map_nil, List.sum_cons,
    List.sum_nil]
  omega

theorem chunkRequest_le (chunk : ContentChunk) : encodedBytes (chunkRequest chunk) ≤
    53 + 6 * ((toString chunk.ordinal).utf8ByteSize +
      (chunk.content.utf8ByteSize + addedBytes smallClient.toSettings chunk)) := by
  have number := escapedBytes_le (toString chunk.ordinal)
  have text := escapedBytes_le (chunkText smallClient.toSettings chunk)
  rw [chunkText_size] at text
  simp only [encodedBytes, chunkRequest, List.map_cons, List.map_nil, List.sum_cons, List.sum_nil]
  omega

end RequestSamples

open ReceiverSamples PreparedSamples RequestSamples in
theorem short_request_received : receive wideService (chunkRequest shortChunk) = .ok () := by
  refine (request_received_iff smallClient wideService platform [preparedChunk shortChunk]
    (chunkRequest shortChunk) wide_agreed (preparedChunk_prepared (by decide +kernel))
    (chunkRequest_sent (by decide +kernel))).mpr ((chunkRequest_le shortChunk).trans ?_)
  decide +kernel

open ReceiverSamples PreparedSamples RequestSamples in
/-- The prepared text fits into every limit on texts, its request into no body. -/
theorem full_request_refused : ¬ ∀ (client : ClientSettings) (service : ServiceSettings)
    (platform : Platform) (documents : List PreparedEmbedding) (request : EmbeddingRequest),
    Agreed client service → Prepared client platform documents →
      request ∈ documentRequests client documents → receive service request = .ok () := by
  intro received
  have taken := received smallClient smallService platform [preparedChunk fullChunk]
    (chunkRequest fullChunk) small_agreed (preparedChunk_prepared (by decide +kernel))
    (chunkRequest_sent (by decide +kernel))
  have bytes := chunkRequest_bytes fullChunk
  have full : 1024 < fullChunk.content.utf8ByteSize +
      addedBytes smallClient.toSettings fullChunk + 53 := by decide +kernel
  have body : (requestBody (chunkRequest fullChunk)).utf8ByteSize =
      encodedBytes (chunkRequest fullChunk) := requestBody_size rfl (List.cons_ne_nil _ _)
  have large : (requestBody (chunkRequest fullChunk)).utf8ByteSize >
      smallService.maxRequestBytes := by
    rw [body]
    exact Nat.lt_of_lt_of_le full bytes
  unfold receive limitBody at taken
  rw [if_pos large] at taken
  cases taken

end Codenaut.Embeddings
