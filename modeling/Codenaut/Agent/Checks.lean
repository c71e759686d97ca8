import Codenaut.Agent.Service
import Codenaut.Agent.ToolsProperties

/-!
# Checks of the caller's access

A check asks for the authorized repository and then for its active index. What
a path sends to the provider, or returns with evidence, is admitted by a check.
-/

set_option autoImplicit false

namespace Codenaut.Agent

open Codenaut.Core Codenaut.Db Codenaut.Interaction Codenaut.Rag

/-- The events of a check that loaded a build. -/
def passed (call : QuestionCall) (site : CheckSite) (repository : Repository)
    (build : RepositoryIndexBuild) : List QuestionEvent :=
  [⟨.authorize site call.userId call.repositoryId, .ok repository⟩,
    ⟨.loadBuild site repository, .ok (some build)⟩]

/-- The repository of the caller tool's check, which loads no index, differs. -/
def callersDiffer (repository : Repository) (active : ActiveIndex) (current : Repository) : Prop :=
  current.id ≠ repository.id ∨ current.indexVersion ≠ active.indexVersion ∨
    current.lastIndexedCommitSha ≠ some active.commitSha

/-- A check of a path that started with `repository` and `active` raises or
differs at this event. -/
def Fails (repository : Repository) (active : ActiveIndex) : QuestionEvent → Prop
  | ⟨.authorize _ _ _, .error _⟩ => True
  | ⟨.authorize .initial _ _, .ok _⟩ => False
  | ⟨.authorize .callers _ _, .ok current⟩ => callersDiffer repository active current
  | ⟨.authorize _ _ _, .ok current⟩ => unindexed current = true
  | ⟨.loadBuild _ _, .error _⟩ => True
  | ⟨.loadBuild _ current, .ok build⟩ =>
      current.id ≠ repository.id ∨ build.map loadedIndex ≠ some active
  | _ => False

/-- The exceptions of a check that its tool step records as a failed call. -/
def toleratedAt : CheckSite → Raised → Bool
  | .tool, .timeout | .tool, .tool _ | .tool, .indexing _ => true
  | .callers, .timeout | .callers, .tool _ | .callers, .indexing _ | .callers, .access => true
  | _, _ => false

/-- The check belongs to a tool step that records its failure. -/
def Tolerated : QuestionEvent → Prop
  | ⟨.authorize site _ _, .error raised⟩ => toleratedAt site raised = true
  | ⟨.authorize site _ _, .ok _⟩ => site = .callers
  | ⟨.loadBuild site _, .error raised⟩ => toleratedAt site raised = true
  | _ => False

def Refuses (repository : Repository) (active : ActiveIndex) (event : QuestionEvent) : Prop :=
  Fails repository active event ∧ ¬ Tolerated event

/-- The last events are a check of the repository and the index that the path
started with, and no check before it failed as `failed` says. -/
def Admitted (failed : Repository → ActiveIndex → QuestionEvent → Prop) (call : QuestionCall)
    (events : List QuestionEvent) : Prop :=
  ∃ repository build between site current currentBuild,
    events = passed call .initial repository build ++ between ++
        passed call site current currentBuild ∧
      current.id = repository.id ∧ loadedIndex currentBuild = loadedIndex build ∧
      ∀ event ∈ events, ¬ failed repository (loadedIndex build) event

/-- Requests that carry evidence to the model provider. -/
def Sends : QuestionRequest → Prop
  | .decide payload => payload.evidence ≠ []
  | .generate _ _ => True
  | _ => False

/-- What is sent, and what is returned if the result discloses evidence or
citations, is admitted by the events before it; after a check that failed
nothing is sent or disclosed. -/
structure Gated (failed : Repository → ActiveIndex → QuestionEvent → Prop) (call : QuestionCall)
    (events : List QuestionEvent) (discloses : Prop) : Prop where
  sent : ∀ before request reply after, events = before ++ ⟨request, reply⟩ :: after →
    Sends request → Admitted failed call before
  returned : discloses → Admitted failed call events
  ended : ∀ repository build rest before event after,
    events = passed call .initial repository build ++ rest → events = before ++ event :: after →
      failed repository (loadedIndex build) event →
        (∀ later ∈ after, ¬ Sends later.1) ∧ ¬ discloses

section Gates

variable {failed : Repository → ActiveIndex → QuestionEvent → Prop} {call : QuestionCall}
  {events : List QuestionEvent}

/-- The start of a path is read off its first events. -/
theorem Admitted.unfailed {front rest back : List QuestionEvent} {repository : Repository}
    {build : RepositoryIndexBuild} (admitted : Admitted failed call front)
    (same : front ++ back = passed call .initial repository build ++ rest) :
    ∀ event ∈ front, ¬ failed repository (loadedIndex build) event := by
  obtain ⟨first, firstBuild, between, site, current, currentBuild, rfl, -, -, unfailed⟩ := admitted
  simp only [passed, List.cons_append, List.nil_append, List.cons.injEq, Sigma.mk.injEq,
    heq_eq_eq, Except.ok.injEq, Option.some.injEq, true_and, QuestionRequest.loadBuild.injEq]
    at same
  obtain ⟨rfl, ⟨-, builds⟩, -⟩ := same
  obtain rfl : firstBuild = build := by simpa using builds
  exact unfailed

theorem Gated.of_admitted {discloses : Prop}
    (sent : ∀ before request reply after, events = before ++ ⟨request, reply⟩ :: after →
      Sends request → Admitted failed call before)
    (returned : discloses → Admitted failed call events) :
    Gated failed call events discloses := by
  refine ⟨sent, returned, ?_⟩
  intro repository build rest before event after start split fails
  constructor
  · rintro ⟨request, reply⟩ member sends
    obtain ⟨middle, last, rfl⟩ := List.append_of_mem member
    have admitted := sent (before ++ event :: middle) request reply last
      (by rw [split, List.append_assoc, List.cons_append]) sends
    have whole : (before ++ event :: middle) ++ ⟨request, reply⟩ :: last =
        passed call .initial repository build ++ rest := by
      rw [← start, split, List.append_assoc, List.cons_append]
    exact admitted.unfailed whole event (by simp) fails
  · intro disclosed
    have whole : events ++ [] = passed call .initial repository build ++ rest := by
      rw [List.append_nil, start]
    exact (returned disclosed).unfailed whole event (by simp [split]) fails

end Gates

/-! ## Histories of checks -/

/-- What is asked, newest event first, with what is sent admitted. -/
def SendsAdmitted (call : QuestionCall) (history : List QuestionEvent)
    (request : QuestionRequest) : Prop :=
  Sends request → Admitted Refuses call history.reverse

abbrev disclosureContract (call : QuestionCall) :
    Contract (List QuestionEvent) QuestionRequest QuestionReply :=
  historyContract (SendsAdmitted call)

/-- The path started with this check, and no check has refused. -/
structure Clear (call : QuestionCall) (repository : Repository) (build : RepositoryIndexBuild)
    (history : List QuestionEvent) : Prop where
  started : ∃ later, history = later ++ (passed call .initial repository build).reverse
  unrefused : ∀ event ∈ history, ¬ Refuses repository (loadedIndex build) event

/-- The newest events are a check that passed. -/
def Checked (call : QuestionCall) (repository : Repository) (build : RepositoryIndexBuild)
    (history : List QuestionEvent) : Prop :=
  ∃ site current currentBuild earlier,
    history = (passed call site current currentBuild).reverse ++ earlier ∧
      current.id = repository.id ∧ loadedIndex currentBuild = loadedIndex build ∧
      Clear call repository build history ∧ Clear call repository build earlier

section Checks

variable {call : QuestionCall} {repository : Repository} {build : RepositoryIndexBuild}
  {history : List QuestionEvent}

theorem Clear.snoc (clear : Clear call repository build history) {event : QuestionEvent}
    (unrefused : ¬ Refuses repository (loadedIndex build) event) :
    Clear call repository build (event :: history) := by
  obtain ⟨later, rfl⟩ := clear.started
  refine ⟨⟨event :: later, rfl⟩, ?_⟩
  intro other member
  rcases List.mem_cons.mp member with rfl | earlier
  · exact unrefused
  · exact clear.unrefused other earlier

theorem Clear.extend {seen : List QuestionEvent} {permitted : QuestionRequest → Prop}
    (clear : Clear call repository build history) (grown : Extends permitted history seen)
    (silent : ∀ event : QuestionEvent, permitted event.1 →
      ¬ Refuses repository (loadedIndex build) event) :
    Clear call repository build seen := by
  obtain ⟨events, rfl, all⟩ := grown
  obtain ⟨later, rfl⟩ := clear.started
  refine ⟨⟨events ++ later, (List.append_assoc _ _ _).symm⟩, ?_⟩
  intro event member
  rcases List.mem_append.mp member with recent | earlier
  · exact silent event (all event recent)
  · exact clear.unrefused event earlier

/-- What a check that tolerates its exception adds to the history. -/
theorem Clear.tolerated (clear : Clear call repository build history) {event : QuestionEvent}
    (tolerated : Tolerated event) : Clear call repository build (event :: history) :=
  clear.snoc fun refuses => refuses.2 tolerated

theorem Clear.start (call : QuestionCall) (repository : Repository)
    (build : RepositoryIndexBuild) :
    Clear call repository build (passed call .initial repository build).reverse := by
  refine ⟨⟨[], rfl⟩, ?_⟩
  intro event member
  simp only [passed, List.reverse_cons, List.reverse_nil, List.nil_append, List.cons_append,
    List.mem_cons, List.not_mem_nil, or_false] at member
  rcases member with rfl | rfl
  · rintro ⟨differs | differs, -⟩
    · exact differs rfl
    · exact differs rfl
  · exact fun refuses => refuses.1

/-- A check goes on to its build without refusing. -/
theorem Clear.opened (clear : Clear call repository build history) {site : CheckSite}
    {current : Repository} (indexed : unindexed current = false) :
    Clear call repository build
      (⟨.authorize site call.userId call.repositoryId, .ok current⟩ :: history) := by
  apply clear.snoc
  rintro ⟨fails, untolerated⟩
  cases site with
  | initial => exact fails
  | callers => exact untolerated rfl
  | evidence | tool | final => exact Bool.false_ne_true (indexed.symm.trans fails)

/-- A check before which the path was clear, and which passes. -/
theorem Clear.checked (clear : Clear call repository build history) {site : CheckSite}
    {current : Repository} {currentBuild : RepositoryIndexBuild}
    (indexed : unindexed current = false) (sameId : current.id = repository.id)
    (sameIndex : loadedIndex currentBuild = loadedIndex build) :
    Checked call repository build ((passed call site current currentBuild).reverse ++ history) := by
  refine ⟨site, current, currentBuild, history, rfl, sameId, sameIndex, ?_, clear⟩
  apply (clear.opened indexed).snoc
  rintro ⟨differs | differs, -⟩
  · exact differs sameId
  · exact differs (congrArg some sameIndex)

theorem Checked.clear (checked : Checked call repository build history) :
    Clear call repository build history := by
  obtain ⟨_, _, _, _, _, _, _, clear, _⟩ := checked
  exact clear

theorem Checked.admitted (checked : Checked call repository build history) :
    Admitted Refuses call history.reverse := by
  obtain ⟨site, current, currentBuild, earlier, same, sameId, sameIndex, clear, before⟩ := checked
  obtain ⟨later, rfl⟩ := before.started
  refine ⟨repository, build, later.reverse, site, current, currentBuild, ?_, sameId, sameIndex, ?_⟩
  · rw [same]
    simp
  · intro event member
    exact clear.unrefused event (List.mem_reverse.mp member)

end Checks

/-! ## The requests of a check -/

section Requests

variable {Locals : Type} {call : QuestionCall} {history : List QuestionEvent} {locals : Locals}

theorem authorizedRepository_holds {site : CheckSite}
    {post : List QuestionEvent → Locals → Except Raised Repository → Prop}
    (ends : ∀ reply : Except Raised Repository,
      post (⟨.authorize site call.userId call.repositoryId, reply⟩ :: history) locals reply) :
    (authorizedRepository call site).Holds (disclosureContract call) history locals post := by
  apply Task.holds_bind
  refine Task.holds_ask (fun sends => sends.elim) fun reply => ?_
  cases reply with
  | ok repository => exact Task.holds_pure (ends (.ok repository))
  | error raised => exact Task.holds_throw (ends (.error raised))

theorem loadActiveBuild_holds {site : CheckSite} {repository : Repository}
    {post : List QuestionEvent → Locals → Except Raised (Option RepositoryIndexBuild) → Prop}
    (skipped : unindexed repository = true → post history locals (.ok none))
    (ends : unindexed repository = false → ∀ reply : Except Raised (Option RepositoryIndexBuild),
      post (⟨.loadBuild site repository, reply⟩ :: history) locals reply) :
    (loadActiveBuild site repository).Holds (disclosureContract call) history locals post := by
  unfold loadActiveBuild
  split
  case isTrue missing => exact Task.holds_pure (skipped missing)
  case isFalse present =>
    have indexed : unindexed repository = false := Bool.eq_false_iff.mpr present
    apply Task.holds_bind
    refine Task.holds_ask (fun sends => sends.elim) fun reply => ?_
    cases reply with
    | ok build => exact Task.holds_pure (ends indexed (.ok build))
    | error raised => exact Task.holds_throw (ends indexed (.error raised))

end Requests

end Codenaut.Agent
