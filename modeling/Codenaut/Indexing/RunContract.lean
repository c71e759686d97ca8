import Codenaut.Indexing.Worker

/-!
# What a worker run may ask

The replies that a claimed run has seen, and the requests they entitle it to.
-/

set_option autoImplicit false

namespace Codenaut.Indexing

open Codenaut.Core Codenaut.Db Codenaut.Interaction Codenaut.Services Codenaut.Vector

/-- What the replies have shown so far. `validated` is lost with the next
vector write, and `confirmed` is a second authorization with the same context. -/
structure RunView where
  context : Option JobContext := none
  denied : Bool := false
  superseded : Bool := false
  cloned : Option CommitSha := none
  prepared : Bool := false
  validated : Bool := false
  confirmed : Bool := false
  activated : Option Nat := none
  deriving DecidableEq, Repr

namespace RunView

def authorize (view : RunView) : Option JobContext → RunView
  | none => { view with denied := true }
  | some context =>
      match view.context with
      | none => { view with context := some context }
      | some first => { view with confirmed := decide (first = context) }

@[simp] theorem authorize_prepared (view : RunView) (answer : Option JobContext) :
    (view.authorize answer).prepared = view.prepared := by
  unfold authorize
  split
  · rfl
  · split <;> rfl

@[simp] theorem authorize_validated (view : RunView) (answer : Option JobContext) :
    (view.authorize answer).validated = view.validated := by
  unfold authorize
  split
  · rfl
  · split <;> rfl

@[simp] theorem authorize_activated (view : RunView) (answer : Option JobContext) :
    (view.authorize answer).activated = view.activated := by
  unfold authorize
  split
  · rfl
  · split <;> rfl

@[simp] theorem authorize_superseded (view : RunView) (answer : Option JobContext) :
    (view.authorize answer).superseded = view.superseded := by
  unfold authorize
  split
  · rfl
  · split <;> rfl

@[simp] theorem authorize_cloned (view : RunView) (answer : Option JobContext) :
    (view.authorize answer).cloned = view.cloned := by
  unfold authorize
  split
  · rfl
  · split <;> rfl

theorem authorize_denied (view : RunView) (context : JobContext) :
    (view.authorize (some context)).denied = view.denied := by
  unfold authorize
  dsimp only
  split <;> rfl

/-- The first context stays. -/
theorem authorize_context {view : RunView} {context : JobContext}
    (known : view.context = some context) (answer : Option JobContext) :
    (view.authorize answer).context = some context := by
  unfold authorize
  split
  · exact known
  · simp [known]

def learnCall (view : RunView) : (call : StoreCall) → call.Reply → RunView
  | .authorizedContext, answer => view.authorize answer
  | .isCurrent, current => { view with superseded := view.superseded || !current }
  | .prepareBuild _ _ _ _, _ => { view with prepared := true }
  | .activate _, previous => { view with activated := some previous }
  | _, _ => view

def learn (view : RunView) : (request : Request) → request.Reply → RunView
  | .store call, .ok answer => view.learnCall call answer
  | .clone _ _ _ _, .ok cloned => { view with cloned := some cloned.commitSha }
  | .deleteScope _, _ => { view with validated := false }
  | .upsert _ _, _ => { view with validated := false }
  | .validateScope _ _ _ _, .ok _ => { view with validated := true }
  | _, _ => view

/-- The scope of the version that the run builds. -/
def owns (view : RunView) (scope : VectorScope) : Prop :=
  ∃ context, view.context = some context ∧
    contextScope context context.indexVersion = some scope

/-- The scope of the version that the run's activation superseded. -/
def clears (view : RunView) (scope : VectorScope) : Prop :=
  ∃ context version, view.context = some context ∧ view.activated = some version ∧
    contextScope context version = some scope

/-- The clone is the commit that was active when the run was authorized. -/
def unchangedTarget (view : RunView) : Prop :=
  ∃ context, view.context = some context ∧ context.activeCommitSha.isSome = true ∧
    context.activeCommitSha = view.cloned

end RunView

/-- The statuses of a build in progress. -/
def inProgress (status : RepositoryIndexingStatus) : Prop :=
  status ∈ [.cloning, .discovering, .parsing, .embedding, .buildingGraph, .finalizing]

namespace RunView

def allowsCall (view : RunView) : StoreCall → Prop
  | .cancelRevoked => view.denied = true
  | .markStale _ _ => view.superseded = true ∨ view.unchangedTarget
  | .stage status _ _ _ => inProgress status
  | .prepareBuild commitSha _ processing _ =>
      view.cloned = some commitSha ∧
        ∃ context, view.context = some context ∧ processing.indexVersion = context.indexVersion
  | .activate commitSha =>
      view.cloned = some commitSha ∧ view.prepared = true ∧ view.validated = true ∧
        view.confirmed = true
  | .revokePublicAccess repositoryId =>
      ∃ context, view.context = some context ∧ context.repositoryId = repositoryId
  | .recordFailedBuildCleanup repositoryId indexVersion _ =>
      view.prepared = true ∧ ∃ context, view.context = some context ∧
        context.repositoryId = repositoryId ∧ context.indexVersion = indexVersion
  | .completeSupersededCleanup repositoryId indexVersion =>
      view.activated = some indexVersion ∧ ∃ context, view.context = some context ∧
        context.repositoryId = repositoryId
  | _ => True

def allows (view : RunView) : Request → Prop
  | .store call => view.allowsCall call
  | .deleteScope scope => (view.prepared = true ∧ view.owns scope) ∨ view.clears scope
  | .upsert scope _ => view.prepared = true ∧ view.owns scope
  | .validateScope scope _ _ _ => view.prepared = true ∧ view.owns scope
  | _ => True

end RunView

def runContract : Contract RunView Request Request.Reply where
  allowed := RunView.allows
  learn := RunView.learn

/-- What one reply can show. -/
inductive Learned (view : RunView) : (request : Request) → request.Reply → RunView → Prop where
  | nothing {request : Request} {reply : request.Reply} : Learned view request reply view
  | authorized (answer : Option JobContext) :
      Learned view (.store .authorizedContext) (.ok answer) (view.authorize answer)
  | currency (current : Bool) :
      Learned view (.store .isCurrent) (.ok current)
        { view with superseded := view.superseded || !current }
  | prepared {commitSha : CommitSha} {discovery : DiscoveryResult}
      {processing : ProcessingResult} {fingerprint : String} :
      Learned view (.store (.prepareBuild commitSha discovery processing fingerprint)) (.ok ())
        { view with prepared := true }
  | activated {commitSha : CommitSha} (previous : Nat) :
      Learned view (.store (.activate commitSha)) (.ok previous)
        { view with activated := some previous }
  | cloned {owner name branch : String} {token : Option Token} (cloned : ClonedRepository) :
      Learned view (.clone owner name branch token) (.ok cloned)
        { view with cloned := some cloned.commitSha }
  | deleted {scope : VectorScope} {reply : Except Failure Unit} :
      Learned view (.deleteScope scope) reply { view with validated := false }
  | upserted {scope : VectorScope} {records : List VectorRecord} {reply : Except Failure Unit} :
      Learned view (.upsert scope records) reply { view with validated := false }
  | validated {scope : VectorScope} {expectedCount : Nat} {commitSha : CommitSha}
      {fingerprint : String} :
      Learned view (.validateScope scope expectedCount commitSha fingerprint) (.ok ())
        { view with validated := true }

theorem RunView.learned (view : RunView) (request : Request) (reply : request.Reply) :
    Learned view request reply (view.learn request reply) := by
  cases request with
  | store call =>
      cases reply with
      | error failure => exact .nothing
      | ok answer =>
          cases call with
          | authorizedContext => exact .authorized answer
          | isCurrent => exact .currency answer
          | prepareBuild => exact .prepared
          | activate => exact .activated answer
          | _ => exact .nothing
  | clone =>
      cases reply with
      | error failure => exact .nothing
      | ok cloned => exact .cloned cloned
  | deleteScope => exact .deleted
  | upsert => exact .upserted
  | validateScope =>
      cases reply with
      | error failure => exact .nothing
      | ok _ => exact .validated
  | _ => exact .nothing

namespace RunView

/-- The first context that a run is authorized with stays. -/
theorem learn_context {view : RunView} {context : JobContext}
    (known : view.context = some context) (request : Request) (reply : request.Reply) :
    (view.learn request reply).context = some context := by
  generalize same : view.learn request reply = learnt
  have learned := view.learned request reply
  rw [same] at learned
  cases learned with
  | authorized answer => exact authorize_context known answer
  | _ => exact known

@[simp] theorem learn_store_validated (view : RunView) (call : StoreCall)
    (reply : Except Failure call.Reply) :
    (view.learn (.store call) reply).validated = view.validated := by
  cases reply with
  | error failure => rfl
  | ok answer =>
      cases call with
      | authorizedContext => exact authorize_validated view answer
      | _ => rfl

end RunView

end Codenaut.Indexing
