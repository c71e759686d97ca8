import Codenaut.Agent.Tools
import Codenaut.Text.Separated

/-!
# What the tools ask and return

A tool asks its backends and no provider, and the items of its result have
identifiers of its step, each its own.
-/

set_option autoImplicit false

namespace Codenaut.Agent

open Codenaut.Core Codenaut.Db Codenaut.Interaction Codenaut.Rag Codenaut.Relational
open Codenaut.Vector

/-! ## Enumerated lists -/

section Enumerated

variable {α β : Type}

theorem pairwise_zipIdx (rows : List α) :
    rows.zipIdx.Pairwise fun left right => left.2 ≠ right.2 := by
  have positions : (rows.zipIdx.map Prod.snd).Nodup := by
    rw [List.zipIdx_map_snd]
    exact List.nodup_range'
  exact List.pairwise_map.mp positions

/-- What the positions of a list contribute is distinct if each position's
contribution is, and no two positions contribute the same. -/
theorem nodup_enumerated {contribution : α → Nat → List β} (rows : List α)
    (each : ∀ row index, (contribution row index).Nodup)
    (apart : ∀ row other index place value, value ∈ contribution row index →
      value ∈ contribution other place → index = place) :
    (rows.zipIdx.flatMap fun entry => contribution entry.1 entry.2).Nodup := by
  apply List.nodup_flatMap.mpr
  refine ⟨fun entry _ => each entry.1 entry.2, ?_⟩
  apply (pairwise_zipIdx rows).imp
  intro left right positions value first second
  exact positions (apart left.1 right.1 left.2 right.2 value first second)

theorem nodup_enumerated_map {name : α → Nat → β} (rows : List α)
    (apart : ∀ row other index place, name row index = name other place → index = place) :
    (rows.zipIdx.map fun entry => name entry.1 entry.2).Nodup := by
  apply List.pairwise_map.mpr
  apply (pairwise_zipIdx rows).imp
  intro left right positions same
  exact positions (apart _ _ _ _ same)

end Enumerated

/-! ## Names -/

/-- A part without the character that joins parts. -/
def Part (text : String) : Prop :=
  '-' ∉ text.toList

theorem part_number (number : Nat) : Part (toString number) :=
  Text.not_mem_toString (by decide) number

theorem part_lettered {letter : Char} (other : letter ≠ '-') (number : Nat) :
    Part (String.singleton letter ++ toString number) := by
  unfold Part
  rw [String.toList_append, String.toList_singleton, List.mem_append, not_or]
  exact ⟨by simpa using other.symm, part_number number⟩

theorem lettered_injective {letter : Char} {left right : Nat}
    (same : String.singleton letter ++ toString left = String.singleton letter ++ toString right) :
    left = right := by
  have lists := congrArg String.toList same
  rw [String.toList_append, String.toList_append] at lists
  exact Text.toString_injective (String.toList_inj.mp (List.append_cancel_left lists))

/-- The name determines the step and the parts. -/
theorem evidenceName_injective {step other : Nat} {parts rest : List String}
    (free : ∀ part ∈ parts, Part part) (otherFree : ∀ part ∈ rest, Part part)
    (same : evidenceName step parts = evidenceName other rest) : step = other ∧ parts = rest := by
  have lettered : ∀ number, Part ("T" ++ toString number) :=
    fun number => @part_lettered 'T' (by decide) number
  have pieces := @Text.intercalate_injective '-' (("T" ++ toString step) :: parts)
    (("T" ++ toString other) :: rest)
    (by
      intro part member
      rcases List.mem_cons.mp member with rfl | later
      · exact lettered step
      · exact free part later)
    (by
      intro part member
      rcases List.mem_cons.mp member with rfl | later
      · exact lettered other
      · exact otherFree part later)
    (by simp) (by simp) same
  obtain ⟨steps, tails⟩ := List.cons.inj pieces
  exact ⟨@lettered_injective 'T' step other steps, tails⟩

/-- An identifier of a step. -/
def StepNamed (step : Nat) (evidenceId : String) : Prop :=
  ∃ parts, (∀ part ∈ parts, Part part) ∧ evidenceId = evidenceName step parts

theorem StepNamed.step_eq {step other : Nat} {evidenceId : String}
    (named : StepNamed step evidenceId) (also : StepNamed other evidenceId) : step = other := by
  obtain ⟨parts, free, rfl⟩ := named
  obtain ⟨rest, otherFree, same⟩ := also
  exact (evidenceName_injective free otherFree same).1

/-- A result of a step: its items have distinct identifiers of the step. -/
structure StepEvidence (step : Nat) (result : List AgentEvidence) : Prop where
  distinct : (result.map (·.evidenceId)).Nodup
  named : ∀ item ∈ result, StepNamed step item.evidenceId

theorem StepEvidence.empty (step : Nat) : StepEvidence step [] where
  distinct := List.nodup_nil
  named := by simp

/-- Items named by one letter and their position. -/
theorem stepEvidence_lettered {α : Type} (step : Nat) {letter : Char} (other : letter ≠ '-')
    (rows : List α) (item : α → Nat → AgentEvidence)
    (name : ∀ row index, (item row index).evidenceId =
      evidenceName step [String.singleton letter ++ toString (index + 1)]) :
    StepEvidence step (rows.zipIdx.map fun entry => item entry.1 entry.2) where
  distinct := by
    rw [List.map_map]
    refine @nodup_enumerated_map _ _ (fun row index => (item row index).evidenceId) rows ?_
    intro row next index place same
    rw [name, name] at same
    have parts := (evidenceName_injective (by simpa using part_lettered other _)
      (by simpa using part_lettered other _) same).2
    have numbers := lettered_injective (List.cons.inj parts).1
    omega
  named := by
    intro found member
    obtain ⟨entry, -, rfl⟩ := List.mem_map.mp member
    exact ⟨_, by simpa using part_lettered other _, name entry.1 entry.2⟩

theorem searchCodeEvidence_step (settings : Settings) (step : Nat) (hits : List RetrievalHit) :
    StepEvidence step (searchCodeEvidence settings step hits) :=
  @stepEvidence_lettered _ step 'C' (by decide) (select settings hits) (fun item index =>
    .code { item with evidenceId := evidenceName step ["C" ++ toString (index + 1)] })
    fun _ _ => rfl

theorem callersEvidence_step (step indexVersion : Nat) (target : SymbolDefinition)
    (rows : List (CallEdge × SymbolDefinition)) :
    StepEvidence step (callersEvidence step indexVersion target rows) :=
  @stepEvidence_lettered _ step 'G' (by decide) rows (fun row index =>
    .caller (callerEvidence step (index + 1) indexVersion target row)) fun _ _ => rfl

/-! ## History -/

/-- The parts that name an item of the bundle in a position. -/
def BundleParts (position : Nat) (parts : List String) : Prop :=
  parts = ["H" ++ toString position] ∨
    ∃ pull : Nat, parts = ["P" ++ toString position, toString pull]

theorem BundleParts.free {position : Nat} {parts : List String}
    (named : BundleParts position parts) : ∀ part ∈ parts, Part part := by
  intro part member
  rcases named with rfl | ⟨pull, rfl⟩
  · obtain rfl := List.mem_singleton.mp member
    exact @part_lettered 'H' (by decide) position
  · rcases List.mem_pair.mp member with rfl | rfl
    · exact @part_lettered 'P' (by decide) position
    · exact part_number pull

/-- Two bundles have no name in common: the letter tells the kind, the number
after it the position. -/
theorem BundleParts.position_eq {position other : Nat} {parts : List String}
    (named : BundleParts position parts) (also : BundleParts other parts) : position = other := by
  rcases named with rfl | ⟨pull, rfl⟩
  · rcases also with same | ⟨pull, same⟩
    · exact @lettered_injective 'H' _ _ (List.cons.inj same).1
    · cases (List.cons.inj same).2
  · rcases also with same | ⟨next, same⟩
    · cases (List.cons.inj same).2
    · exact @lettered_injective 'P' _ _ (List.cons.inj same).1

theorem bundleEvidence_named (settings : Settings) (step position : Nat)
    (bundle : GitHub.HistoryBundle) : ∀ item ∈ bundleEvidence settings step position bundle,
      ∃ parts, BundleParts position parts ∧ item.evidenceId = evidenceName step parts := by
  intro item member
  unfold bundleEvidence at member
  cases date : commitDate bundle.commit.commit with
  | none => simp [date] at member
  | some committedAt =>
      rw [date] at member
      rcases List.mem_cons.mp member with rfl | pull
      · exact ⟨_, .inl rfl, rfl⟩
      · obtain ⟨entry, -, rfl⟩ := List.mem_map.mp pull
        exact ⟨_, .inr ⟨entry.2 + 1, rfl⟩, rfl⟩

theorem bundleEvidence_distinct (settings : Settings) (step position : Nat)
    (bundle : GitHub.HistoryBundle) :
    ((bundleEvidence settings step position bundle).map (·.evidenceId)).Nodup := by
  unfold bundleEvidence
  cases commitDate bundle.commit.commit with
  | none => exact List.nodup_nil
  | some committedAt =>
      have pullFree : ∀ pull : Nat, BundleParts position ["P" ++ toString position, toString pull] :=
        fun pull => .inr ⟨pull, rfl⟩
      have commitFree : BundleParts position ["H" ++ toString position] := .inl rfl
      simp only [List.map_cons, List.map_map, List.nodup_cons]
      constructor
      · intro member
        obtain ⟨entry, -, same⟩ := List.mem_map.mp member
        have parts := (evidenceName_injective (pullFree (entry.2 + 1)).free commitFree.free
          same).2
        cases (List.cons.inj parts).2
      · refine @nodup_enumerated_map _ _ (fun (_ : GitHub.PullRequest) index =>
          evidenceName step ["P" ++ toString position, toString (index + 1)])
            bundle.pullRequests ?_
        intro _ _ index place same
        have parts := (evidenceName_injective (pullFree (index + 1)).free
          (pullFree (place + 1)).free same).2
        have numbers := Text.toString_injective (List.cons.inj (List.cons.inj parts).2).1
        omega

theorem historyEvidence_step (settings : Settings) (step : Nat)
    (ranked : List GitHub.HistoryBundle) :
    StepEvidence step (historyEvidence settings step ranked) where
  distinct := by
    unfold historyEvidence
    rw [List.map_flatMap]
    refine @nodup_enumerated _ _ (fun bundle index =>
      (bundleEvidence settings step (index + 1) bundle).map (·.evidenceId)) ranked ?_ ?_
    · exact fun bundle index => bundleEvidence_distinct settings step (index + 1) bundle
    · intro bundle other index place id first second
      obtain ⟨item, member, rfl⟩ := List.mem_map.mp first
      obtain ⟨next, nextMember, same⟩ := List.mem_map.mp second
      obtain ⟨parts, named, text⟩ := bundleEvidence_named settings step _ bundle item member
      obtain ⟨rest, nextNamed, nextText⟩ :=
        bundleEvidence_named settings step _ other next nextMember
      obtain ⟨-, rfl⟩ := evidenceName_injective named.free nextNamed.free
        (text.symm.trans (same.symm.trans nextText))
      have positions := named.position_eq nextNamed
      omega
  named := by
    intro item member
    obtain ⟨entry, -, inBundle⟩ := List.mem_flatMap.mp member
    obtain ⟨parts, named, text⟩ := bundleEvidence_named settings step _ _ item inBundle
    exact ⟨parts, named.free, text⟩

/-! ## Requests -/

/-- What the backends are asked: no check, no provider, no further tool. -/
def BackendRequest : QuestionRequest → Prop
  | .authorize .. | .loadBuild .. | .decide .. | .generate .. | .enter .. => False
  | _ => True

/-- What a tool may ask. -/
def ToolRequest : QuestionRequest → Prop
  | .authorize .callers _ _ => True
  | request => BackendRequest request

theorem toolRequest_of_backend (request : QuestionRequest) (backend : BackendRequest request) :
    ToolRequest request := by
  cases request with
  | authorize => exact backend.elim
  | loadBuild | decide | generate | enter | embedQuery | searchVectors | publicHistory
  | authorizedInstallation | installationToken | repositoryHistory | graphBuild
  | callerTargets | callerRows => exact backend

section Calls

variable {Locals : Type} {state : Locals}

theorem calls_raising {permitted : QuestionRequest → Prop} {Result : Type}
    (reply : Except Raised Result) :
    Task.Calls permitted state (raising reply : QuestionTask Locals Result) fun _ => True := by
  cases reply with
  | ok value => exact Task.calls_pure trivial
  | error raised => exact Task.calls_throw

theorem calls_handled {permitted : QuestionRequest → Prop} {Result : Type}
    {task : QuestionTask Locals Result} {handler : Raised → QuestionTask Locals Result}
    (calls : Task.Calls permitted state task fun _ => True)
    (handled : ∀ raised, Task.Calls permitted state (handler raised) fun _ => True) :
    Task.Calls permitted state (tryCatch task handler) fun _ => True :=
  Task.calls_tryCatch calls handled

theorem searchCodeHits_calls (settings : QuestionSettings) (platform : QuestionPlatform)
    (context : ActiveRepositoryContext) (query : String) :
    Task.Calls BackendRequest state (searchCodeHits settings platform context query)
      fun _ => True := by
  unfold searchCodeHits
  split
  · exact Task.calls_throw
  · apply Task.calls_bind (Task.calls_ask (by trivial))
    intro reply _
    apply Task.calls_bind (calls_raising _)
    intro queryVector _
    split
    · exact Task.calls_throw
    · apply Task.calls_bind (Task.calls_ask (by trivial))
      intro answered _
      exact calls_raising _

theorem fetchHistory_calls (settings : QuestionSettings) (context : ActiveRepositoryContext)
    (revision : String) :
    Task.Calls BackendRequest state (fetchHistory settings context revision)
      fun _ => True := by
  simp only [fetchHistory]
  split
  · apply Task.calls_bind (Task.calls_ask (by trivial))
    exact fun reply _ => calls_raising reply
  · exact Task.calls_throw
  · apply Task.calls_bind (Task.calls_ask (by trivial))
    intro reply _
    apply Task.calls_bind (calls_raising _)
    intro installation _
    apply Task.calls_bind (Task.calls_ask (by trivial))
    intro created _
    apply Task.calls_bind (calls_raising _)
    intro token _
    apply Task.calls_bind (Task.calls_ask (by trivial))
    exact fun answered _ => calls_raising answered

theorem queryCallers_calls (settings : Settings) (context : ActiveRepositoryContext)
    (repository : Repository) (symbolName : String) (filePath : Option String) :
    Task.Calls BackendRequest state (queryCallers settings context repository symbolName filePath)
      fun _ => True := by
  unfold queryCallers
  apply Task.calls_bind (Task.calls_ask (by trivial))
  intro reply _
  apply Task.calls_bind (calls_raising _)
  intro build _
  cases build with
  | none => exact Task.calls_throw
  | some build =>
      apply Task.calls_bind (Task.calls_ask (by trivial))
      intro answered _
      apply Task.calls_bind (calls_raising _)
      intro targets _
      split
      · exact Task.calls_pure trivial
      · apply Task.calls_bind (Task.calls_ask (by trivial))
        intro listed _
        apply Task.calls_bind (calls_raising _)
        exact fun rows _ => Task.calls_pure trivial
      · exact Task.calls_throw

theorem executeSearchCode_calls (settings : QuestionSettings) (platform : QuestionPlatform)
    (context : ActiveRepositoryContext) (arguments : AgentToolArguments) (step : Nat) :
    Task.Calls BackendRequest state (executeSearchCode settings platform context arguments step)
      (StepEvidence step) := by
  unfold executeSearchCode
  refine Task.calls_bind (calls_handled ?_ ?_) ?_
  · split
    · exact Task.calls_throw
    · exact searchCodeHits_calls settings platform context _
  · intro raised
    split <;> exact Task.calls_throw
  · exact fun hits _ => Task.calls_pure (searchCodeEvidence_step settings.toSettings step hits)

theorem executeGetHistory_calls (settings : QuestionSettings) (platform : QuestionPlatform)
    (context : ActiveRepositoryContext) (arguments : AgentToolArguments) (step : Nat) :
    Task.Calls BackendRequest state (executeGetHistory settings platform context arguments step)
      (StepEvidence step) := by
  unfold executeGetHistory
  split
  · exact Task.calls_throw
  · refine Task.calls_bind (calls_handled ?_ ?_) ?_
    · exact fetchHistory_calls settings context _
    · intro raised
      split <;> exact Task.calls_throw
    · exact fun bundles _ => Task.calls_pure (historyEvidence_step settings.toSettings step _)

/-- The end of `executeFindCallers`, after its check. -/
theorem callersFound_calls (settings : Settings) (context : ActiveRepositoryContext)
    (repository : Repository) (symbolName : String) (filePath : Option String) (step : Nat) :
    Task.Calls BackendRequest state (do
      let found ← tryCatch (queryCallers settings context repository symbolName filePath)
        fun raised =>
          match raised with
          | .database => throw (.tool "caller_query_unavailable")
          | raised => throw raised
      match found with
      | none => pure []
      | some (target, rows) => pure (callersEvidence step context.indexVersion target rows))
      (StepEvidence step) := by
  refine Task.calls_bind (calls_handled ?_ ?_) ?_
  · exact queryCallers_calls settings context repository symbolName filePath
  · intro raised
    split <;> exact Task.calls_throw
  · intro found _
    split
    · exact Task.calls_pure (.empty step)
    · exact Task.calls_pure (callersEvidence_step step context.indexVersion _ _)

theorem executeFindCallers_calls (settings : QuestionSettings)
    (context : ActiveRepositoryContext) (arguments : AgentToolArguments) (step : Nat) :
    Task.Calls ToolRequest state (executeFindCallers settings context arguments step)
      (StepEvidence step) := by
  unfold executeFindCallers
  split
  · exact Task.calls_throw
  · refine Task.calls_bind (calls_handled ?_ ?_) ?_
    · apply Task.calls_bind (Task.calls_ask (by trivial))
      exact fun reply _ => calls_raising reply
    · intro raised
      split <;> exact Task.calls_throw
    · intro repository _
      split
      · exact Task.calls_throw
      · exact (callersFound_calls settings.toSettings context repository _ _ step).permit
          toolRequest_of_backend

/-- Every tool asks its backends only, and returns evidence of its step. -/
theorem toolBody_calls (settings : QuestionSettings) (platform : QuestionPlatform)
    (context : ActiveRepositoryContext) (arguments : AgentToolArguments) (step : Nat)
    (name : AgentToolName) :
    Task.Calls ToolRequest state (toolBody settings platform context arguments step name)
      (StepEvidence step) := by
  cases name with
  | searchCode =>
      exact (executeSearchCode_calls settings platform context arguments step).permit
        toolRequest_of_backend
  | getHistory =>
      exact (executeGetHistory_calls settings platform context arguments step).permit
        toolRequest_of_backend
  | findCallers => exact executeFindCallers_calls settings context arguments step

end Calls

end Codenaut.Agent
