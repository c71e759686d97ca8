import Codenaut.Rag.Evidence
import Codenaut.Spans.Greedy

/-!
# What the selector selects

`select` is a greedy choice from the ranked hits. The evidence keeps every limit,
and a hit is left out only for what was selected above it.
-/

set_option autoImplicit false

namespace Codenaut.Rag

open Codenaut.Core Codenaut.Relational Codenaut.Spans Codenaut.Vector

/-! ## The rules -/

/-- Settings whose evidence limits passed their fields. -/
structure EvidenceSettings extends Settings where
  topK : 1 ≤ ragRetrievalTopK ∧ ragRetrievalTopK ≤ 20 := by decide
  perFile : 1 ≤ ragMaxEvidencePerFile ∧ ragMaxEvidencePerFile ≤ 10 := by decide
  totalBytes : 1024 ≤ ragMaxEvidenceBytes ∧ ragMaxEvidenceBytes ≤ 256 * 1024 := by decide
  itemBytes : 512 ≤ ragMaxEvidenceItemBytes ∧ ragMaxEvidenceItemBytes ≤ 64 * 1024 := by decide
  itemInTotal : ragMaxEvidenceItemBytes ≤ ragMaxEvidenceBytes := by decide

/-- The order of the hits: the best score first, ties by place and hash. -/
abbrev Rank : Type := Rat ×ₗ String ×ₗ Nat ×ₗ Nat ×ₗ String

def rank (hit : RetrievalHit) : Rank :=
  toLex (-hit.score, toLex (hit.filePath,
    toLex (hit.startLine, toLex (hit.endLine, hit.stableChunkHash))))

def hitBytes (hit : RetrievalHit) : Nat :=
  hit.content.utf8ByteSize

/-- The hits show a common line of one file. -/
def Overlapping (left right : RetrievalHit) : Prop :=
  left.filePath = right.filePath ∧ left.startLine ≤ right.endLine ∧
    right.startLine ≤ left.endLine

/-- What the selected hits keep. -/
structure WithinLimits (settings : Settings) (chosen : List RetrievalHit) : Prop where
  distinct : (chosen.map (·.stableChunkHash)).Nodup
  apart : chosen.Pairwise fun left right => ¬Overlapping left right
  files : ∀ filePath, chosen.countP (·.filePath == filePath) ≤ settings.ragMaxEvidencePerFile
  items : ∀ hit ∈ chosen, hitBytes hit ≤ settings.ragMaxEvidenceItemBytes
  total : (chosen.map hitBytes).sum ≤ settings.ragMaxEvidenceBytes
  count : chosen.length ≤ settings.ragRetrievalTopK

/-- Why a hit does not go with the selected ones above it. -/
inductive Refused (settings : Settings) (above : List RetrievalHit) (hit : RetrievalHit) : Prop where
  | repeated {item : RetrievalHit} : item ∈ above →
      item.stableChunkHash = hit.stableChunkHash → Refused settings above hit
  | overlaps {item : RetrievalHit} : item ∈ above → Overlapping hit item →
      Refused settings above hit
  | file : settings.ragMaxEvidencePerFile ≤ above.countP (·.filePath == hit.filePath) →
      Refused settings above hit
  | item : settings.ragMaxEvidenceItemBytes < hitBytes hit → Refused settings above hit
  | total : settings.ragMaxEvidenceBytes < (above.map hitBytes).sum + hitBytes hit →
      Refused settings above hit
  | full : settings.ragRetrievalTopK ≤ above.length → Refused settings above hit

/-- The loop passes over the hit, or has stopped. -/
def refuses (settings : Settings) (above : List RetrievalHit) (hit : RetrievalHit) : Bool :=
  passedOver settings above hit || decide (settings.ragRetrievalTopK ≤ above.length)

section Refusals

variable {settings : Settings} {above : List RetrievalHit} {hit : RetrievalHit}

theorem overlapsSelected_iff :
    overlapsSelected hit above = true ↔ ∃ item ∈ above, Overlapping hit item := by
  simp [overlapsSelected, Overlapping, and_assoc]

theorem refuses_iff : refuses settings above hit = true ↔ Refused settings above hit := by
  simp only [refuses, passedOver, Bool.or_eq_true, decide_eq_true_eq, overlapsSelected_iff,
    List.contains_iff_mem]
  constructor
  · rintro (((((repeated | item) | file) | total) | ⟨item, member, common⟩) | full)
    · obtain ⟨item, member, same⟩ := List.mem_map.mp repeated
      exact .repeated member same
    · exact .item item
    · exact .file file
    · exact .total total
    · exact .overlaps member common
    · exact .full full
  · intro refused
    cases refused with
    | @repeated item member same =>
        exact .inl (.inl (.inl (.inl (.inl (List.mem_map.mpr ⟨item, member, same⟩)))))
    | @overlaps item member common => exact .inl (.inr ⟨item, member, common⟩)
    | file many => exact .inl (.inl (.inl (.inr many)))
    | item large => exact .inl (.inl (.inl (.inl (.inr large))))
    | total large => exact .inl (.inl (.inr large))
    | full many => exact .inr many

theorem not_refused (free : refuses settings above hit = false) : ¬Refused settings above hit := by
  rw [← refuses_iff, free]
  exact Bool.false_ne_true

theorem withinLimits_nil : WithinLimits settings [] where
  distinct := List.nodup_nil
  apart := .nil
  files := fun _ => Nat.zero_le _
  items := by simp
  total := Nat.zero_le _
  count := Nat.zero_le _

/-- A hit that nothing above refuses keeps the limits. -/
theorem WithinLimits.snoc (within : WithinLimits settings above)
    (free : ¬Refused settings above hit) : WithinLimits settings (above ++ [hit]) where
  distinct := by
    rw [List.map_append, List.map_singleton, List.nodup_append]
    refine ⟨within.distinct, List.nodup_singleton _, ?_⟩
    rintro hash member _ single rfl
    obtain ⟨item, inside, same⟩ := List.mem_map.mp member
    exact free (.repeated inside (same.trans (List.mem_singleton.mp single)))
  apart := by
    rw [List.pairwise_append]
    refine ⟨within.apart, List.pairwise_singleton _ _, ?_⟩
    rintro item member _ single common
    rw [List.mem_singleton.mp single] at common
    exact free (.overlaps member ⟨common.1.symm, common.2.2, common.2.1⟩)
  files := by
    intro filePath
    rw [List.countP_append, List.countP_singleton]
    split
    case isTrue same =>
      have path : hit.filePath = filePath := by simpa using same
      subst path
      exact Nat.lt_of_not_le fun many => free (.file many)
    case isFalse => exact within.files filePath
  items := by
    refine List.forall_mem_append.mpr ⟨within.items, List.forall_mem_singleton.mpr ?_⟩
    exact Nat.le_of_not_lt fun large => free (.item large)
  total := by
    rw [List.map_append, List.sum_append, List.map_singleton, List.sum_singleton]
    exact Nat.le_of_not_lt fun large => free (.total large)
  count := by
    rw [List.length_append, List.length_singleton]
    exact Nat.lt_of_not_le fun many => free (.full many)

end Refusals

/-! ## The loop -/

/-- The loop with its early end takes what the greedy choice takes. -/
theorem selectFrom_greedy (settings : Settings) (rest : List RetrievalHit) :
    ∀ selected : List RetrievalHit, selected.length < settings.ragRetrievalTopK →
      selectFrom settings rest selected = greedy (refuses settings) selected rest := by
  induction rest with
  | nil => exact fun selected _ => rfl
  | cons hit rest ih =>
      intro selected room
      unfold selectFrom greedy
      have looked : refuses settings selected hit = passedOver settings selected hit := by
        rw [refuses, decide_eq_false (Nat.not_le.mpr room), Bool.or_false]
      rw [looked]
      split
      case isTrue => exact ih selected room
      case isFalse =>
        dsimp only
        split
        case isTrue last =>
          -- the list is full, and a full list refuses every later hit
          have full : settings.ragRetrievalTopK ≤ (selected ++ [hit]).length :=
            Nat.le_of_eq (beq_iff_eq.mp last).symm
          refine (greedy_full fun item => ?_).symm
          rw [refuses, decide_eq_true full, Bool.or_true]
        case isFalse more =>
          apply ih
          have short : (selected ++ [hit]).length ≠ settings.ragRetrievalTopK := by
            simpa using more
          rw [List.length_append, List.length_singleton] at short ⊢
          omega

def ranked (hits : List RetrievalHit) : List RetrievalHit :=
  sortOn rank hits

/-- The evidence of the hits, numbered from one. -/
def numbered (chosen : List RetrievalHit) : List Evidence :=
  chosen.zipIdx.map fun (hit, index) => hitEvidence ("E" ++ toString (index + 1)) hit

/-- The hits that the evidence shows. -/
def selected (settings : Settings) (hits : List RetrievalHit) : List RetrievalHit :=
  greedy (refuses settings) [] (ranked hits)

theorem select_eq (settings : EvidenceSettings) (hits : List RetrievalHit) :
    select settings.toSettings hits = numbered (selected settings.toSettings hits) := by
  rw [selected, ← selectFrom_greedy _ _ [] settings.topK.1]
  rfl

theorem rank_score {left right : RetrievalHit} (before : rank left ≤ rank right) :
    right.score ≤ left.score := by
  rcases Prod.Lex.le_iff.mp before with lower | ⟨same, -⟩
  · exact le_of_lt (neg_lt_neg_iff.mp lower)
  · exact le_of_eq (neg_inj.mp same).symm

/-- Distinct ranks leave one order of the hits. -/
theorem ranked_eq {hits other : List RetrievalHit} (perm : other.Perm hits)
    (distinct : (hits.map rank).Nodup) : ranked other = ranked hits := by
  have same : (ranked other).Perm (ranked hits) :=
    (sortOn_perm rank other).trans (perm.trans (sortOn_perm rank hits).symm)
  apply same.eq_of_pairwise _ (sortOn_pairwise rank other) (sortOn_pairwise rank hits)
  intro left right leftMember rightMember forward backward
  have leftHit : left ∈ hits := perm.mem_iff.mp (mem_sortOn.mp leftMember)
  have rightHit : right ∈ hits := mem_sortOn.mp rightMember
  exact List.inj_on_of_nodup_map distinct leftHit rightHit (le_antisymm forward backward)

theorem numbered_ids (chosen : List RetrievalHit) :
    (numbered chosen).map (·.evidenceId) =
      (List.range' 1 chosen.length).map fun number => "E" ++ toString number := by
  apply List.ext_getElem
  · simp [numbered]
  · intro index _ _
    simp [numbered, hitEvidence, Nat.add_comm]

/-- What selection promises of the hits that it chose. -/
structure Selection (settings : Settings) (hits chosen : List RetrievalHit)
    (evidence : List Evidence) : Prop where
  numbered : evidence = numbered chosen
  ids : evidence.map (·.evidenceId) =
    (List.range' 1 chosen.length).map fun number => "E" ++ toString number
  among : chosen.Subperm hits
  ordered : chosen.Pairwise fun left right => rank left ≤ rank right
  descending : chosen.Pairwise fun left right => right.score ≤ left.score
  within : WithinLimits settings chosen
  maximal : ∀ before hit after, ranked hits = before ++ hit :: after →
    ∃ above below, above.Sublist before ∧ below.Sublist after ∧
      (chosen = above ++ hit :: below ∧ ¬Refused settings above hit ∨
        chosen = above ++ below ∧ Refused settings above hit)
  settled : ∀ other : List RetrievalHit, other.Perm hits → (hits.map rank).Nodup →
    select settings other = evidence

/-- The selected evidence is a ranked choice within every limit, and the only
hits left out are those that something selected above them refuses. -/
theorem evidence_selected (settings : EvidenceSettings) (hits : List RetrievalHit) :
    Selection settings.toSettings hits (selected settings.toSettings hits)
      (select settings.toSettings hits) := by
  have sublist : (selected settings.toSettings hits).Sublist (ranked hits) := greedy_sublist
  have sorted : (selected settings.toSettings hits).Pairwise fun left right =>
      rank left ≤ rank right := (sortOn_pairwise rank hits).sublist sublist
  constructor
  · exact select_eq settings hits
  · rw [select_eq]
    exact numbered_ids _
  · exact sublist.subperm.trans (sortOn_perm rank hits).subperm
  · exact sorted
  · exact sorted.imp rank_score
  · exact greedy_keeps withinLimits_nil fun _ _ within free => within.snoc (not_refused free)
  · intro before hit after listed
    cases greedy_decided (ranked hits) before after hit listed with
    | taken parts higher lower free =>
        exact ⟨_, _, higher, lower, .inl ⟨parts, not_refused free⟩⟩
    | refused parts higher lower taken =>
        exact ⟨_, _, higher, lower, .inr ⟨parts, refuses_iff.mp taken⟩⟩
  · intro other perm distinct
    rw [select_eq, select_eq, selected, selected, ranked_eq perm distinct]

end Codenaut.Rag
