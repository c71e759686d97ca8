import Codenaut.Indexing.RunContract

/-!
# A worker run keeps its contract

Each method of the worker asks only for what the run has seen so far entitles
it to, on every reply and through every failure.
-/

set_option autoImplicit false

namespace Codenaut.Indexing

open Codenaut.Core Codenaut.Db Codenaut.Embeddings Codenaut.Interaction Codenaut.Services
open Codenaut.Vector

section Rules

variable {First Result : Type} {view : RunView} {state : RunState}

/-- Started on a view and a run state, the work keeps the run's contract. -/
abbrev Runs (work : Work Result) (view : RunView) (state : RunState)
    (post : RunView → RunState → Except Failure Result → Prop) : Prop :=
  Task.Holds runContract work view state post

theorem raising_holds {reply : Except Failure Result}
    {post : RunView → RunState → Except Failure Result → Prop} (ended : post view state reply) :
    Runs (raising reply) view state post := by
  cases reply with
  | ok result => exact Task.holds_pure ended
  | error failure => exact Task.holds_throw ended

theorem store_holds {call : StoreCall}
    {post : RunView → RunState → Except Failure call.Reply → Prop}
    (allowed : view.allowsCall call)
    (ok : ∀ answer, post (view.learnCall call answer) state (.ok answer))
    (failed : ∀ failure, post view state (.error failure)) :
    Runs (store call) view state post := by
  refine Task.holds_bind (Task.holds_ask allowed fun reply => ?_)
  cases reply with
  | ok answer => exact raising_holds (ok answer)
  | error failure => exact raising_holds (failed failure)

/-- Work that shows the run nothing and leaves its state alone. -/
def Quiet (work : Work Result) (view : RunView) : Prop :=
  ∀ state, Runs work view state fun seen after _ => seen = view ∧ after = state

namespace Quiet

theorem pure (value : Result) : Quiet (Pure.pure value) view :=
  fun _ => Task.holds_pure ⟨rfl, rfl⟩

theorem throw (failure : Failure) : Quiet (throw failure : Work Result) view :=
  fun _ => Task.holds_throw ⟨rfl, rfl⟩

theorem raising (reply : Except Failure Result) : Quiet (raising reply) view :=
  fun _ => raising_holds ⟨rfl, rfl⟩

theorem ask {request : Request} (allowed : view.allows request)
    (unmoved : ∀ reply, view.learn request reply = view) :
    Quiet (Task.ask request : Work request.Reply) view :=
  fun _ => Task.holds_ask allowed fun reply => ⟨unmoved reply, rfl⟩

theorem store {call : StoreCall} (allowed : view.allowsCall call)
    (unmoved : ∀ answer, view.learnCall call answer = view) :
    Quiet (Indexing.store call) view :=
  fun _ => store_holds allowed (fun answer => ⟨unmoved answer, rfl⟩) fun _ => ⟨rfl, rfl⟩

theorem bind {first : Work First} {second : First → Work Result} (before : Quiet first view)
    (after : ∀ value, Quiet (second value) view) : Quiet (first >>= second) view := by
  intro state
  refine Task.holds_bind (Task.Holds.mono (before state) ?_)
  rintro seen kept result ⟨rfl, rfl⟩
  cases result with
  | ok value => exact after value kept
  | error failure => exact ⟨rfl, rfl⟩

/-- Quiet work in front of any other. -/
theorem andThen {first : Work First} {second : First → Work Result}
    {post : RunView → RunState → Except Failure Result → Prop} (before : Quiet first view)
    (after : ∀ value, Runs (second value) view state post)
    (failed : ∀ failure, post view state (.error failure)) :
    Runs (first >>= second) view state post := by
  refine Task.holds_bind (Task.Holds.mono (before state) ?_)
  rintro seen kept result ⟨rfl, rfl⟩
  cases result with
  | ok value => exact after value
  | error failure => exact failed failure

end Quiet

theorem store_andThen {call : StoreCall} {rest : call.Reply → Work Result}
    {post : RunView → RunState → Except Failure Result → Prop}
    (allowed : view.allowsCall call)
    (ok : ∀ answer, Runs (rest answer) (view.learnCall call answer) state post)
    (failed : ∀ failure, post view state (.error failure)) :
    Runs (store call >>= rest) view state post :=
  Task.holds_bind (store_holds allowed ok failed)

end Rules

/-! ## Methods that show the run nothing -/

section Methods

variable {view : RunView} {context : JobContext}

theorem stage_quiet (status : RepositoryIndexingStatus) (stageName : String) (progress : Nat)
    (commitSha : Option CommitSha) (working : inProgress status) :
    Quiet (store (.stage status stageName progress commitSha)) view :=
  .store working fun _ => rfl

theorem scopeAt_quiet (indexVersion : Nat) : Quiet (scopeAt context indexVersion) view := by
  unfold scopeAt
  split
  · exact .pure _
  · exact .throw _

theorem withdrawPublic_quiet {Result : Type} (known : view.context = some context)
    (code safeMessage : String) :
    Quiet (withdrawPublic context code safeMessage : Work Result) view := by
  refine .bind (.store ⟨context, known, rfl⟩ fun _ => rfl) fun _ => ?_
  exact .throw _

theorem cloneToken_quiet (known : view.context = some context) :
    Quiet (cloneToken context) view := by
  unfold cloneToken
  split
  case h_1 =>
      refine .bind (.ask trivial fun _ => rfl) fun reply => ?_
      split
      case h_1 => exact withdrawPublic_quiet known _ _
      case h_2 => exact withdrawPublic_quiet known _ _
      case h_3 => exact .throw _
      case h_4 => exact .throw _
      case h_5 =>
          split
          · exact withdrawPublic_quiet known _ _
          · exact .pure _
  case h_2 =>
      unfold installationCloneToken
      split
      case h_1 => exact .throw _
      case h_2 =>
          refine .bind (.ask trivial fun _ => rfl) fun reply => ?_
          split
          case h_1 => exact .pure _
          case h_2 => exact .throw _
          case h_3 => exact .throw _

theorem comparisonOf_quiet (reply : Except GitHubFailure GitHub.CommitComparison) :
    Quiet (comparisonOf reply) view := by
  unfold comparisonOf
  split
  case h_1 => exact .pure _
  case h_2 => exact .throw _
  case h_3 => exact .pure _

theorem compareWithActive_quiet (token : Option Token) (head : CommitSha) :
    Quiet (compareWithActive context token head) view := by
  unfold compareWithActive
  split
  case h_1 => exact .pure _
  case h_2 =>
      split
      case h_1 => exact .bind (.ask trivial fun _ => rfl) comparisonOf_quiet
      case h_2 =>
          refine .bind ?_ fun granted => .bind (.ask trivial fun _ => rfl) comparisonOf_quiet
          unfold requireInstallationToken
          split
          · exact .pure _
          · exact .throw _

/-- The analysis is quiet, and its result is for the version that was asked for. -/
theorem analyze_holds (state : RunState) (cloned : ClonedRepository) :
    Runs (analyze context cloned) view state fun seen after result =>
      (seen = view ∧ after = state) ∧
        ∀ pair, result = .ok pair → pair.2.indexVersion = context.indexVersion := by
  have failed : ∀ failure : Failure, (view = view ∧ state = state) ∧
      ∀ pair : DiscoveryResult × ProcessingResult, Except.error failure = .ok pair →
        pair.2.indexVersion = context.indexVersion :=
    fun _ => ⟨⟨rfl, rfl⟩, fun _ same => nomatch same⟩
  unfold analyze
  refine Quiet.andThen (stage_quiet _ _ _ _ (by simp [inProgress])) (fun _ => ?_) failed
  refine Quiet.andThen (.ask trivial fun _ => rfl) (fun _ => ?_) failed
  refine Quiet.andThen (.raising _) (fun discovery => ?_) failed
  refine Quiet.andThen (stage_quiet _ _ _ _ (by simp [inProgress])) (fun _ => ?_) failed
  refine Quiet.andThen (.ask trivial fun _ => rfl) (fun _ => ?_) failed
  refine Quiet.andThen (.raising _) (fun _ => ?_) failed
  refine Quiet.andThen (stage_quiet _ _ _ _ (by simp [inProgress])) (fun _ => ?_) failed
  refine Quiet.andThen (.ask trivial fun _ => rfl) (fun _ => ?_) failed
  refine Quiet.andThen (.raising _) (fun _ => ?_) failed
  refine Quiet.andThen (stage_quiet _ _ _ _ (by simp [inProgress])) (fun _ => ?_) failed
  refine Quiet.andThen (.ask trivial fun _ => rfl) (fun _ => ?_) failed
  refine Quiet.andThen (.raising _) (fun processing => ?_) failed
  split
  case isTrue same =>
      refine Task.holds_pure ⟨⟨rfl, rfl⟩, ?_⟩
      rintro pair ⟨⟩
      exact same.2.1
  case isFalse => exact Task.holds_throw (failed _)

theorem recordPlan_quiet (plan : FreshnessPlan) (actualMode : IndexingMode)
    (fallbackReason : Option String) : Quiet (recordPlan plan actualMode fallbackReason) view :=
  .store trivial fun _ => rfl

theorem reuseVectors_quiet (settings : Settings) (platform : Platform) (plan : FreshnessPlan)
    (prepared : List PreparedEmbedding) :
    Quiet (reuseVectors settings platform context plan prepared) view := by
  unfold reuseVectors
  split
  · refine .bind (scopeAt_quiet _) fun active => ?_
    refine .bind (.ask trivial fun _ => rfl) fun _ => .bind (.raising _) fun reused => ?_
    split
    · exact .pure _
    · exact .bind (recordPlan_quiet _ _ _) fun _ => .pure _
  · exact .pure _

end Methods

/-! ## Vector writes -/

section Writes

variable {view : RunView} {state : RunState} {context : JobContext}

/-- A vector write may cost the run its validation, and nothing else. -/
def Rewritten (view seen : RunView) : Prop :=
  seen = { view with validated := seen.validated }

theorem Rewritten.refl (view : RunView) : Rewritten view view := rfl

theorem Rewritten.invalidated (view : RunView) :
    Rewritten view { view with validated := false } := rfl

/-- What vector work leaves behind, however it ends. -/
def Rewrote (view : RunView) (state : RunState) {Result : Type} (seen : RunView)
    (after : RunState) (_ : Except Failure Result) : Prop :=
  Rewritten view seen ∧ after = state

/-- A scope that was built is the one that the context describes. -/
theorem scopeAt_andThen {Result : Type} {indexVersion : Nat}
    {rest : VectorScope → Work Result}
    {post : RunView → RunState → Except Failure Result → Prop}
    (after : ∀ scope, contextScope context indexVersion = some scope →
      Runs (rest scope) view state post)
    (failed : ∀ failure, post view state (.error failure)) :
    Runs (scopeAt context indexVersion >>= rest) view state post := by
  unfold scopeAt
  cases made : contextScope context indexVersion with
  | none => exact Task.holds_bind (Task.holds_throw (failed _))
  | some scope => exact Task.holds_bind (Task.holds_pure (after scope made))

theorem deleteVersion_holds {indexVersion : Nat}
    (permitted : ∀ scope, contextScope context indexVersion = some scope →
      view.allows (.deleteScope scope)) :
    Runs (deleteVersion context indexVersion) view state (Rewrote view state) := by
  refine scopeAt_andThen (fun scope made => ?_) fun _ => ⟨.refl _, rfl⟩
  refine Task.holds_bind (Task.holds_ask (permitted scope made) fun reply => ?_)
  exact raising_holds ⟨.invalidated _, rfl⟩

theorem storeVectors_holds (settings : Settings) (platform : Platform) (cloned : ClonedRepository)
    (documents toEmbed : List PreparedEmbedding) (reused embeddings : VectorMap)
    (known : view.context = some context) (prepared : view.prepared = true) :
    Runs (storeVectors settings platform context cloned documents toEmbed reused embeddings) view
      state (Rewrote view state) := by
  have failed : ∀ {Result : Type} (failure : Failure),
      Rewrote view state view state (.error failure : Except Failure Result) :=
    fun _ => ⟨.refl _, rfl⟩
  unfold storeVectors
  refine Quiet.andThen (stage_quiet _ _ _ _ (by simp [inProgress])) (fun _ => ?_) failed
  refine scopeAt_andThen (fun scope made => ?_) failed
  have owned : view.owns scope := ⟨context, known, made⟩
  refine Quiet.andThen (.store trivial fun _ => rfl) (fun eligible => ?_) failed
  split
  · refine Quiet.andThen (.ask trivial fun _ => rfl) (fun _ => ?_) failed
    refine Quiet.andThen (.raising _) (fun _ => ?_) failed
    -- from the first write on, the run's validation is gone
    refine Task.holds_bind (Task.holds_ask (.inl ⟨prepared, owned⟩) fun _ => ?_)
    refine Quiet.andThen (.raising _) (fun _ => ?_) fun _ => ⟨.invalidated _, rfl⟩
    refine Task.holds_bind (Task.holds_ask ⟨prepared, owned⟩ fun _ => ?_)
    refine Quiet.andThen (.raising _) (fun _ => ?_) fun _ => ⟨.invalidated _, rfl⟩
    refine Quiet.andThen (.store trivial fun _ => rfl) (fun _ => ?_) fun _ => ⟨.invalidated _, rfl⟩
    exact Task.holds_pure ⟨.invalidated _, rfl⟩
  · exact Task.holds_throw (failed _)

theorem embedAndStore_holds (settings : Settings) (platform : Platform)
    (cloned : ClonedRepository) (processing : ProcessingResult) (plan : FreshnessPlan)
    (known : view.context = some context) (prepared : view.prepared = true) :
    Runs (embedAndStore settings platform context cloned processing plan) view state
      (Rewrote view state) := by
  have failed : ∀ {Result : Type} (failure : Failure),
      Rewrote view state view state (.error failure : Except Failure Result) :=
    fun _ => ⟨.refl _, rfl⟩
  unfold embedAndStore
  refine Quiet.andThen (stage_quiet _ _ _ _ (by simp [inProgress])) (fun _ => ?_) failed
  refine Quiet.andThen (.raising _) (fun documents => ?_) failed
  refine Quiet.andThen (reuseVectors_quiet _ _ _ _) (fun reused => ?_) failed
  refine Quiet.andThen (.ask trivial fun _ => rfl) (fun _ => ?_) failed
  refine Quiet.andThen (.raising _) (fun embeddings => ?_) failed
  split
  · exact storeVectors_holds settings platform cloned _ _ _ _ known prepared
  · exact Task.holds_throw (failed _)

theorem cleanupInactive_holds (known : view.context = some context)
    (prepared : view.prepared = true) :
    Runs (cleanupInactive context) view state (Rewrote view state) := by
  have failed : ∀ {Result : Type} (failure : Failure),
      Rewrote view state view state (.error failure : Except Failure Result) :=
    fun _ => ⟨.refl _, rfl⟩
  unfold cleanupInactive
  refine Quiet.andThen (.store trivial fun _ => rfl) (fun eligible => ?_) failed
  split
  · have deleted : Runs (deleteInactive context) view state (Rewrote view state) := by
      refine Task.holds_tryCatch (Task.holds_bind (Task.Holds.mono
        (deleteVersion_holds fun scope made => .inl ⟨prepared, context, known, made⟩) ?_))
      rintro seen after result ⟨rewritten, rfl⟩
      cases result with
      | ok _ => exact Task.holds_pure ⟨rewritten, rfl⟩
      | error failure => exact Task.holds_pure ⟨rewritten, rfl⟩
    refine Task.holds_bind (Task.Holds.mono deleted ?_)
    rintro seen after result ⟨rewritten, rfl⟩
    cases result with
    | error failure => exact ⟨rewritten, rfl⟩
    | ok deleted =>
        have building : seen.prepared = true ∧ seen.context = some context := by
          rw [rewritten]
          exact ⟨prepared, known⟩
        refine store_andThen ⟨building.1, context, building.2, rfl, rfl⟩ (fun _ => ?_)
          fun _ => ⟨rewritten, rfl⟩
        exact Task.holds_pure ⟨rewritten, rfl⟩
  · exact Task.holds_pure ⟨.refl _, rfl⟩

end Writes

/-! ## The whole run -/

section Run

variable {view : RunView} {state : RunState} {context : JobContext}

/-- The state that the handlers read agrees with what the run has seen. -/
def Aligned (view : RunView) (state : RunState) : Prop :=
  ∀ context, state.context = some context → state.buildPrepared = true →
    view.context = some context ∧ view.prepared = true

/-- Vector work for a prepared build keeps the handlers' state true. -/
theorem Rewritten.building {seen : RunView} (rewritten : Rewritten view seen)
    (known : view.context = some context) (prepared : view.prepared = true) :
    seen.context = some context ∧ seen.prepared = true := by
  rw [rewritten]
  exact ⟨known, prepared⟩

theorem cleanupSuperseded_holds {indexVersion : Nat} (known : view.context = some context)
    (activated : view.activated = some indexVersion) :
    Runs (cleanupSuperseded context indexVersion) view state (Rewrote view state) := by
  refine Task.holds_tryCatch (Task.holds_bind (Task.Holds.mono
    (deleteVersion_holds fun scope made => .inr ⟨context, indexVersion, known, activated, made⟩) ?_))
  rintro seen after result ⟨rewritten, rfl⟩
  cases result with
  | error failure => exact Task.holds_pure ⟨rewritten, rfl⟩
  | ok _ =>
      have cleared : seen.activated = some indexVersion ∧ seen.context = some context := by
        rw [rewritten]
        exact ⟨activated, known⟩
      refine store_holds ⟨cleared.1, context, cleared.2, rfl⟩ (fun _ => ⟨rewritten, rfl⟩) fun _ => ?_
      exact Task.holds_pure ⟨rewritten, rfl⟩

/-- How the steps of a prepared build end: the run still knows its context and
that it prepared the build. -/
def Building (context : JobContext) (state : RunState) {Result : Type} (seen : RunView)
    (after : RunState) (_ : Except Failure Result) : Prop :=
  (seen.context = some context ∧ seen.prepared = true) ∧ after = state

theorem activateIndex_holds {commitSha : CommitSha} (known : view.context = some context)
    (prepared : view.prepared = true) (cloned : view.cloned = some commitSha)
    (validated : view.validated = true) (confirmed : view.confirmed = true) :
    Runs (activateIndex context commitSha) view state (Building context state) := by
  have failed : ∀ {Result : Type} (failure : Failure),
      Building context state view state (.error failure : Except Failure Result) :=
    fun _ => ⟨⟨known, prepared⟩, rfl⟩
  unfold activateIndex
  refine Quiet.andThen (stage_quiet _ _ _ _ (by simp [inProgress])) (fun _ => ?_) failed
  refine store_andThen ⟨cloned, prepared, validated, confirmed⟩ (fun previous => ?_) failed
  split
  · refine Task.Holds.mono (cleanupSuperseded_holds known rfl) ?_
    rintro seen after result ⟨rewritten, same⟩
    exact ⟨rewritten.building known prepared, same⟩
  · exact Task.holds_pure ⟨⟨known, prepared⟩, rfl⟩

theorem activateAuthorized_holds {commitSha : CommitSha} {answer : Option JobContext}
    (known : view.context = some context) (prepared : view.prepared = true)
    (cloned : view.cloned = some commitSha) (validated : view.validated = true) :
    Runs (activateAuthorized context commitSha answer) (view.authorize answer) state
      (Building context state) := by
  cases answer with
  | none =>
      have cleaned : Runs (cleanupInactive context) (view.authorize none) state
          (Rewrote (view.authorize none) state) := cleanupInactive_holds known prepared
      refine Task.holds_bind (Task.Holds.mono cleaned ?_)
      rintro seen after result ⟨rewritten, rfl⟩
      have building := rewritten.building known prepared
      cases result with
      | error failure => exact ⟨building, rfl⟩
      | ok _ =>
          have denied : seen.denied = true := by rw [rewritten]; rfl
          exact store_holds denied (fun _ => ⟨building, rfl⟩) fun _ => ⟨building, rfl⟩
  | some reauthorized =>
      have learned : view.authorize (some reauthorized) =
          { view with confirmed := decide (context = reauthorized) } := by
        simp [RunView.authorize, known]
      rw [learned]
      unfold activateAuthorized
      by_cases same : reauthorized = context
      · simp only [same, if_true]
        exact activateIndex_holds known prepared cloned validated (by simp)
      · simp only [same, if_false]
        exact Task.holds_throw ⟨⟨known, prepared⟩, rfl⟩

theorem validateAndActivate_holds (settings : Settings) (platform : Platform)
    {commitSha : CommitSha} (vectorCount : Nat) (known : view.context = some context)
    (prepared : view.prepared = true) (cloned : view.cloned = some commitSha) :
    Runs (validateAndActivate settings platform context commitSha vectorCount) view state
      (Building context state) := by
  have failed : ∀ {Result : Type} (failure : Failure),
      Building context state view state (.error failure : Except Failure Result) :=
    fun _ => ⟨⟨known, prepared⟩, rfl⟩
  unfold validateAndActivate
  refine Quiet.andThen (stage_quiet _ _ _ _ (by simp [inProgress])) (fun _ => ?_) failed
  refine scopeAt_andThen (fun scope made => ?_) failed
  refine Task.holds_bind (Task.holds_ask ⟨prepared, context, known, made⟩ fun reply => ?_)
  cases reply with
  | error failure => exact Task.holds_bind (raising_holds (failed _))
  | ok _ =>
      refine Task.holds_bind (raising_holds ?_)
      refine Quiet.andThen (.store trivial fun _ => rfl) (fun _ => ?_)
        fun _ => ⟨⟨known, prepared⟩, rfl⟩
      refine Quiet.andThen (.store trivial fun _ => rfl) (fun _ => ?_)
        fun _ => ⟨⟨known, prepared⟩, rfl⟩
      refine store_andThen trivial (fun current => ?_) fun _ => ⟨⟨known, prepared⟩, rfl⟩
      cases current with
      | true =>
          refine store_andThen trivial (fun answer => ?_) fun _ => ⟨⟨known, prepared⟩, rfl⟩
          exact activateAuthorized_holds known prepared cloned rfl
      | false =>
          refine Task.holds_bind (Task.Holds.mono (cleanupInactive_holds known prepared) ?_)
          rintro seen after result ⟨rewritten, rfl⟩
          have building := rewritten.building known prepared
          cases result with
          | error failure => exact ⟨building, rfl⟩
          | ok _ =>
              have superseded : seen.superseded = true := by rw [rewritten]; simp [RunView.learnCall]
              exact store_holds (.inl superseded) (fun _ => ⟨building, rfl⟩)
                fun _ => ⟨building, rfl⟩

/-- What the handlers may rely on, however the body ended. -/
def Handled {Result : Type} (seen : RunView) (after : RunState)
    (_ : Except Failure Result) : Prop :=
  Aligned seen after

theorem Handled.unprepared {Result : Type} {result : Except Failure Result}
    (unprepared : state.buildPrepared = false) : Handled view state result := by
  intro context _ prepared
  rw [unprepared] at prepared
  cases prepared

theorem Building.handled {Result : Type} {seen : RunView} {after : RunState}
    {result : Except Failure Result} (known : state.context = some context)
    (building : Building context state seen after result) : Handled seen after result := by
  obtain ⟨facts, rfl⟩ := building
  intro other same _
  rw [known] at same
  cases same
  exact facts

theorem refreshFrom_holds (settings : Settings) (platform : Platform) (token : Option Token)
    (cloned : ClonedRepository) (known : view.context = some context)
    (learned : view.cloned = some cloned.commitSha) (running : state.context = some context)
    (unprepared : state.buildPrepared = false) :
    Runs (refreshFrom settings platform context token cloned) view state Handled := by
  have failed : ∀ {Result : Type} (failure : Failure),
      Handled view state (.error failure : Except Failure Result) :=
    fun _ => .unprepared unprepared
  unfold refreshFrom
  refine Quiet.andThen (compareWithActive_quiet _ _) (fun comparison => ?_) failed
  refine Task.holds_bind (Task.Holds.mono (analyze_holds state cloned) ?_)
  rintro _ kept result ⟨⟨rfl, rfl⟩, analyzed⟩
  obtain failure | ⟨discovery, processing⟩ := result
  · exact failed failure
  have version := analyzed _ rfl
  have marked : ({ kept with buildPrepared := true } : RunState).context = some context := running
  refine Quiet.andThen (recordPlan_quiet _ _ _) (fun _ => ?_) failed
  refine store_andThen ⟨learned, context, known, version⟩ (fun _ => ?_) failed
  refine Task.holds_bind (Task.holds_modify ?_)
  refine Task.holds_bind (Task.Holds.mono
    (embedAndStore_holds settings platform cloned processing _ known rfl) ?_)
  rintro seen after result ⟨rewritten, rfl⟩
  have building := rewritten.building known rfl
  cases result with
  | error failure => exact Building.handled marked ⟨building, rfl⟩
  | ok vectorCount =>
      have commit : seen.cloned = some cloned.commitSha := by rw [rewritten]; exact learned
      refine Task.Holds.mono (validateAndActivate_holds settings platform vectorCount building.1
        building.2 commit) ?_
      intro last after result ended
      exact Building.handled marked ended

theorem processAuthorized_holds (settings : Settings) (platform : Platform)
    (known : view.context = some context) (running : state.context = some context)
    (unprepared : state.buildPrepared = false) :
    Runs (processAuthorized settings platform context) view state Handled := by
  unfold processAuthorized
  refine Quiet.andThen (cloneToken_quiet known) (fun token => ?_)
    fun _ => .unprepared unprepared
  refine Task.holds_bind (Task.holds_ask trivial fun reply => ?_)
  cases reply with
  | error failure => exact Task.holds_bind (raising_holds (Handled.unprepared unprepared))
  | ok cloned =>
      refine Task.holds_bind (raising_holds ?_)
      simp only
      split
      case isTrue target =>
          simp only [targetAlreadyActive, Bool.and_eq_true, beq_iff_eq] at target
          have unchanged : RunView.unchangedTarget
              { view with cloned := some cloned.commitSha } :=
            ⟨context, known, by simp [target.1.1], target.1.1⟩
          exact store_holds (.inr unchanged) (fun _ => .unprepared unprepared)
            fun _ => .unprepared unprepared
      case isFalse =>
          exact refreshFrom_holds settings platform token cloned known rfl running unprepared

theorem attemptClaimed_holds (settings : Settings) (platform : Platform) :
    Runs (attemptClaimed settings platform) {} {} Handled := by
  unfold attemptClaimed
  refine store_andThen trivial (fun answer => ?_) fun _ => .unprepared rfl
  refine Task.holds_bind (Task.holds_modify ?_)
  cases answer with
  | none => exact store_holds rfl (fun _ => .unprepared rfl) fun _ => .unprepared rfl
  | some context =>
      refine store_andThen trivial (fun current => ?_) fun _ => .unprepared rfl
      cases current with
      | true => exact processAuthorized_holds settings platform rfl rfl rfl
      | false =>
          exact store_holds (.inl rfl) (fun _ => .unprepared rfl) fun _ => .unprepared rfl

theorem failClaimed_holds (failure : Failure) (aligned : Aligned view state) :
    Runs (failClaimed failure) view state fun _ _ _ => True := by
  have cleaned : Runs cleanupPrepared view state fun _ _ _ => True := by
    unfold cleanupPrepared
    refine Task.holds_bind (Task.holds_get ?_)
    simp only
    split
    case h_2 => exact Task.holds_pure trivial
    case h_1 context running =>
        split
        case isFalse => exact Task.holds_pure trivial
        case isTrue prepared =>
            obtain ⟨known, built⟩ := aligned context running prepared
            exact Task.Holds.mono (cleanupInactive_holds known built) fun _ _ _ _ => trivial
  refine Task.holds_bind (Task.Holds.mono cleaned ?_)
  intro seen after result _
  cases result with
  | error failure => exact trivial
  | ok complete =>
      cases failure with
      | indexing error =>
          exact store_andThen trivial (fun _ => Task.holds_pure trivial) fun _ => trivial
      | internal =>
          exact store_andThen trivial (fun _ => Task.holds_pure trivial) fun _ => trivial

/-- A claimed run asks only for what it is entitled to. -/
theorem runClaimed_safe (settings : Settings) (platform : Platform) :
    ((runClaimed settings platform).start {}).Safe runContract (fun _ _ => True) {} := by
  show Runs (runClaimed settings platform) {} {} fun _ _ _ => True
  refine Task.holds_tryCatch (Task.Holds.mono (attemptClaimed_holds settings platform) ?_)
  intro seen after result aligned
  cases result with
  | ok _ => trivial
  | error failure => exact failClaimed_holds failure aligned

end Run

end Codenaut.Indexing
