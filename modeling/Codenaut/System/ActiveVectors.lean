import Codenaut.System.DisplacedWorkers
import Codenaut.System.Holders
import Codenaut.Vector.QdrantProperties

/-!
# The vectors of the active index

A vector call is checked against the database before it is made, and made in a
step of its own. While a run holds its claim its calls write the next version
only; a run that lost its claim writes whatever version it was building.
-/

set_option autoImplicit false

namespace Codenaut.System

open Codenaut.ActiveIndex Codenaut.Core Codenaut.Db Codenaut.Indexing Codenaut.Interaction
open Codenaut.Relational Codenaut.Services Codenaut.Vector

/-! ## Writes -/

/-- The scope that a vector call writes. -/
def writtenScope : Request → Option VectorScope
  | .deleteScope scope | .upsert scope _ => some scope
  | _ => none

/-- The scope that the next request of a run writes. -/
def Run.writes (run : Run) : Option VectorScope :=
  match run.program with
  | .ask request _ => writtenScope request
  | .done _ => none

/-- The scope is of this version of this repository. -/
def VersionScope (repositoryId : RepositoryId) (indexVersion : Nat) (scope : VectorScope) : Prop :=
  scope.repositoryId = repositoryId ∧ scope.indexVersion = indexVersion

/-- The version that a run holding its claim has validated. -/
structure Validated (world : World) (workerId : WorkerId) (run : Run)
    (context : JobContext) : Prop where
  holds : Holds world workerId run
  validated : run.view.validated = true
  context : run.view.context = some context

namespace World

/-- The version of the scope is active, or validated by the holder of a claim. -/
def settled (world : World) (scope : VectorScope) : Prop :=
  (∃ row ∈ world.journal.database.repositories, VersionScope row.id row.indexVersion scope) ∨
    ∃ workerId run context, Validated world workerId run context ∧
      VersionScope context.repositoryId context.indexVersion scope

/-- A run without its claim writes no settled version. -/
def sparesSettled (world : World) (action : Action) : Prop :=
  ∀ workerId outside run scope, action = .work workerId outside →
    world.runs workerId = some run → run.writes = some scope →
    holdsClaim world.journal.database workerId run.claimed = false → ¬ world.settled scope

end World

/-- The points of every active version are those its run validated, and the
points of a validated version are still those of the validation. -/
structure VectorsKept (world : World) : Prop where
  validated : ∀ workerId run context, Validated world workerId run context →
    ∃ scope, contextScope context context.indexVersion = some scope ∧
      scopePoints scope world.points = run.snapshot
  active : ∀ row ∈ world.journal.database.repositories, 1 ≤ row.indexVersion →
    ∃ scope, vectorScopeForRepository row row.indexVersion = some scope ∧
      scopePoints scope world.points = world.activeVectors row.id

section Scopes

theorem VersionScope.apart {repositoryId : RepositoryId} {indexVersion : Nat}
    {scope other : VectorScope} (own : VersionScope repositoryId indexVersion other)
    (elsewhere : ¬ VersionScope repositoryId indexVersion scope) : scope.Apart other := by
  by_cases same : scope.repositoryId = other.repositoryId
  · refine .inr fun version => elsewhere ⟨same.trans own.1, version.trans own.2⟩
  · exact .inl same

theorem contextScope_place {context : JobContext} {indexVersion : Nat} {scope : VectorScope}
    (made : contextScope context indexVersion = some scope) :
    VersionScope context.repositoryId indexVersion scope := by
  obtain ⟨_, repository, version, _⟩ := VectorScope.make?_eq_some made
  exact ⟨repository, version⟩

theorem repositoryScope_place {row : Repository} {indexVersion : Nat} {scope : VectorScope}
    (made : vectorScopeForRepository row indexVersion = some scope) :
    VersionScope row.id indexVersion scope := by
  obtain ⟨_, repository, version, _⟩ := VectorScope.make?_eq_some made
  exact ⟨repository, version⟩

theorem repositoryScope_congr {old new : Repository} (place : SamePlace old new)
    (indexVersion : Nat) :
    vectorScopeForRepository new indexVersion = vectorScopeForRepository old indexVersion := by
  simp only [vectorScopeForRepository, place.id, place.installationId, place.accessMode,
    place.githubRepositoryId]

/-- A context and the row it describes give the same scopes. -/
theorem ContextSound.scope {db : Database} {claimed : ClaimedJob} {context : JobContext}
    (sound : ContextSound db claimed context) (repositoryIds : UniqueKey (·.id) db.repositories)
    {row : Repository} (member : row ∈ db.repositories) (same : row.id = claimed.repositoryId)
    (indexVersion : Nat) :
    contextScope context indexVersion = vectorScopeForRepository row indexVersion := by
  obtain ⟨stored, storedMember, storedId, installation, mode, github⟩ := sound.place
  obtain rfl := repositoryIds.row_eq storedMember member
    ((storedId.trans sound.repository).trans same.symm)
  simp only [contextScope, vectorScopeForRepository, storedId, installation, mode, github]

theorem pointsAfter_apart (settings : Settings) (delivery : Delivery)
    (points : List VectorRecord) {request : Request} {other : VectorScope}
    (apart : ∀ scope, writtenScope request = some scope → scope.Apart other) :
    scopePoints other (pointsAfter settings delivery points request) =
      scopePoints other points := by
  cases request with
  | deleteScope scope => exact deleteScope_other delivery (apart scope rfl) points
  | upsert scope records => exact upsert_other settings delivery (apart scope rfl) records points
  | _ => rfl

/-- A step writes no scope apart from the one its worker's request names. -/
theorem step_points_apart {settings : Settings} {platform : Platform} {world : World}
    {action : Action} {other : VectorScope}
    (apart : ∀ workerId outside run scope, action = .work workerId outside →
      world.runs workerId = some run → run.writes = some scope → scope.Apart other) :
    scopePoints other (world.step settings platform action).points =
      scopePoints other world.points := by
  cases action with
  | work workerId outside =>
      simp only [World.step, World.storedPoints]
      split
      case h_1 => rfl
      case h_2 run live =>
          split
          case h_1 => rfl
          case h_2 request next asks =>
              refine pointsAfter_apart settings outside.delivery world.points fun scope writes => ?_
              exact apart workerId outside run scope rfl live (by rw [Run.writes, asks]; exact writes)
  | _ => rfl

/-- A run whose request writes no scope leaves the points of every scope. -/
theorem step_points_unwritten {settings : Settings} {platform : Platform} {world : World}
    {workerId : WorkerId} {run : Run} {outside : Outside} {request : Request}
    {rest : request.Reply → Program Request Request.Reply (Except Failure Unit × RunState)}
    (live : world.runs workerId = some run) (asks : run.program = .ask request rest)
    (none : writtenScope request = none) (scope : VectorScope) :
    scopePoints scope (world.step settings platform (.work workerId outside)).points =
      scopePoints scope world.points := by
  refine step_points_apart fun writer other rival written acts present writes => ?_
  cases acts
  obtain rfl := Option.some.inj (live.symm.trans present)
  simp [Run.writes, asks, none] at writes

end Scopes

/-! ## What a holder writes -/

section Kept

variable {settings : Settings} {platform : Platform} {world : World} {workerId : WorkerId}
  {run : Run} {context : JobContext}

/-- A run that holds its claim writes the version it builds. -/
theorem Holds.writes_own (holds : Holds world workerId run)
    (sound : WorldSound settings platform world) {scope : VectorScope}
    (writes : run.writes = some scope) : run.view.prepared = true ∧ run.view.owns scope := by
  have runSound := sound.runs workerId run holds.live
  unfold Run.writes at writes
  split at writes
  case h_2 => cases writes
  case h_1 request next asks =>
      have allowed := runSound.allowed asks
      cases request with
      | deleteScope target =>
          cases writes
          rcases allowed with own | ⟨_, _, _, activated, _⟩
          · exact own
          · rw [holds.unactivated sound] at activated
            cases activated
      | upsert target records =>
          cases writes
          exact allowed
      | _ => cases writes

/-- A write leaves the active version of every repository alone. -/
theorem active_apart (sound : WorldSound settings platform world) (next : NextVersions world)
    {action : Action} (spares : world.sparesSettled action) {row : Repository}
    (member : row ∈ world.journal.database.repositories) {other : VectorScope}
    (place : VersionScope row.id row.indexVersion other) {outside : Outside} {scope : VectorScope}
    (acts : action = .work workerId outside) (live : world.runs workerId = some run)
    (writes : run.writes = some scope) : scope.Apart other := by
  refine place.apart fun same => ?_
  cases held : holdsClaim world.journal.database workerId run.claimed with
  | false => exact spares workerId outside run scope acts live writes held (.inl ⟨row, member, same⟩)
  | true =>
      -- The holder's version is one above that of the row.
      have holds : Holds world workerId run := ⟨live, held⟩
      obtain ⟨prepared, context, known, made⟩ := holds.writes_own sound writes
      obtain ⟨repository, version⟩ := contextScope_place made
      obtain ⟨waiting, waitingContext, stored, storedMember, storedId, waits⟩ :=
        next workerId run holds prepared
      obtain rfl := Option.some.inj (known.symm.trans waitingContext)
      have owner := ((sound.runs workerId run live).context context known).repository
      obtain rfl := sound.journal.consistent.repositoryIds.row_eq member storedMember
        (same.1.symm.trans (repository.trans (owner.trans storedId.symm)))
      rw [← version, same.2] at waits
      exact Nat.succ_ne_self _ waits.symm

/-- A write leaves the validated version of every other holder alone. -/
theorem validated_apart (sound : WorldSound settings platform world) {action : Action}
    (spares : world.sparesSettled action) (validated : Validated world workerId run context)
    {other : VectorScope} (place : VersionScope context.repositoryId context.indexVersion other)
    {writer : WorkerId} (apart : writer ≠ workerId) {rival : Run} {outside : Outside}
    {scope : VectorScope} (acts : action = .work writer outside)
    (live : world.runs writer = some rival) (writes : rival.writes = some scope) :
    scope.Apart other := by
  refine place.apart fun same => ?_
  cases held : holdsClaim world.journal.database writer rival.claimed with
  | false =>
      exact spares writer outside rival scope acts live writes held
        (.inr ⟨workerId, run, context, validated, same⟩)
  | true =>
      have holds : Holds world writer rival := ⟨live, held⟩
      obtain ⟨_, rivalContext, known, made⟩ := holds.writes_own sound writes
      have rivalOwner := ((sound.runs writer rival live).context rivalContext known).repository
      have owner :=
        ((sound.runs workerId run validated.holds.live).context context validated.context).repository
      have shared : rival.claimed.repositoryId = run.claimed.repositoryId := by
        rw [← rivalOwner, ← owner, ← (contextScope_place made).1, same.1]
      exact apart (validated.holds.unique sound holds shared).1

/-! ## Every step -/

theorem VectorsKept.validated_step (kept : VectorsKept world)
    (sound : WorldSound settings platform world) (next : NextVersions world) {action : Action}
    (spares : world.sparesSettled action)
    (validated : Validated (world.step settings platform action) workerId run context) :
    ∃ scope, contextScope context context.indexVersion = some scope ∧
      scopePoints scope (world.step settings platform action).points = run.snapshot := by
  have holds := validated.holds
  cases step_runs holds.live with
  | kept before apart =>
      have prior : Validated world workerId run context :=
        ⟨holds.before sound before rfl, validated.validated, validated.context⟩
      obtain ⟨scope, made, points⟩ := kept.validated workerId run context prior
      refine ⟨scope, made, (step_points_apart ?_).trans points⟩
      intro writer outside rival written acts live writes
      refine validated_apart sound spares prior (contextScope_place made) ?_ acts live writes
      rintro rfl
      exact apart outside acts
  | started => cases validated.validated
  | advanced before asks =>
      rename_i outside earlier request rest
      have held := holds.before sound before rfl
      have runSound := sound.runs workerId earlier before
      have isValidated : (earlier.view.learn request (world.reply settings platform workerId
          earlier.claimed outside request)).validated = true := validated.validated
      have known : (earlier.view.learn request (world.reply settings platform workerId
          earlier.claimed outside request)).context = some context := validated.context
      simp only [Run.advance]
      generalize world.reply settings platform workerId earlier.claimed outside request = reply
        at isValidated known ⊢
      have prior : earlier.view.validated = true → ∃ scope,
          contextScope context context.indexVersion = some scope ∧
            scopePoints scope world.points = earlier.snapshot := by
        intro already
        obtain ⟨first, present, _⟩ := next workerId earlier held (runSound.built already)
        rw [RunView.learn_context present] at known
        cases known
        exact kept.validated workerId earlier context ⟨held, already, present⟩
      have unobserved : earlier.view.validated = true → writtenScope request = none →
          earlier.observe world.points request reply = earlier.snapshot →
          ∃ scope, contextScope context context.indexVersion = some scope ∧
            scopePoints scope (world.step settings platform (.work workerId outside)).points =
              earlier.observe world.points request reply := by
        intro already none same
        obtain ⟨scope, made, points⟩ := prior already
        exact ⟨scope, made, by rw [step_points_unwritten before asks none, points, same]⟩
      cases request with
      | validateScope target expectedCount commitSha fingerprint =>
          cases reply with
          | error failure => exact unobserved isValidated rfl rfl
          | ok _ =>
              obtain ⟨_, first, present, made⟩ := runSound.allowed asks
              rw [RunView.learn_context present] at known
              cases known
              exact ⟨target, made, step_points_unwritten before asks rfl target⟩
      | deleteScope target => cases isValidated
      | upsert target records => cases isValidated
      | store call =>
          rw [RunView.learn_store_validated] at isValidated
          exact unobserved isValidated rfl rfl
      | clone =>
          cases reply with
          | error failure => exact unobserved isValidated rfl rfl
          | ok cloned => exact unobserved isValidated rfl rfl
      | _ => exact unobserved isValidated rfl rfl

theorem activeVectors_kept {action : Action}
    (same : (world.step settings platform action).journal.history.activations =
      world.journal.history.activations) :
    (world.step settings platform action).activeVectors = world.activeVectors := by
  have journal : (world.journalAfter settings platform action).history.activations =
      world.journal.history.activations := same
  simp only [World.step, World.activeVectorsAfter]
  split
  · split
    · rfl
    · rw [if_pos (by rw [journal])]
  · rfl

theorem activeVectors_activated {outside : Outside} {activation : Activation}
    (live : world.runs workerId = some run)
    (recorded : (world.step settings platform (.work workerId outside)).journal.history.activations =
      activation :: world.journal.history.activations) :
    (world.step settings platform (.work workerId outside)).activeVectors =
      Function.update world.activeVectors run.claimed.repositoryId run.snapshot := by
  have journal : (world.journalAfter settings platform
      (.work workerId outside)).history.activations =
        activation :: world.journal.history.activations := recorded
  simp only [World.step, World.activeVectorsAfter, live, journal]
  rw [if_neg (by simp)]

/-- A row that an activation left at its version keeps its active points. -/
theorem VectorsKept.active_unmoved (kept : VectorsKept world)
    (sound : WorldSound settings platform world) (next : NextVersions world) {action : Action}
    (spares : world.sparesSettled action) {prior row : Repository}
    (member : prior ∈ world.journal.database.repositories) (place : SamePlace prior row)
    (version : row.indexVersion = prior.indexVersion) (positive : 1 ≤ row.indexVersion)
    (vectors : (world.step settings platform action).activeVectors prior.id =
      world.activeVectors prior.id) :
    ∃ scope, vectorScopeForRepository row row.indexVersion = some scope ∧
      scopePoints scope (world.step settings platform action).points =
        (world.step settings platform action).activeVectors row.id := by
  obtain ⟨scope, made, points⟩ := kept.active prior member (version ▸ positive)
  refine ⟨scope, by rw [repositoryScope_congr place, version, made], ?_⟩
  rw [place.id, vectors, ← points]
  refine step_points_apart fun writer outside rival written acts live writes => ?_
  exact active_apart sound next spares member (repositoryScope_place made) acts live writes

/-- The points that an activating run validated become the active ones. -/
theorem VectorsKept.active_moved (kept : VectorsKept world)
    (sound : WorldSound settings platform world) (next : NextVersions world) {outside : Outside}
    {commitSha : CommitSha}
    {rest : Except Failure Nat → Program Request Request.Reply (Except Failure Unit × RunState)}
    (holds : Holds world workerId run)
    (asks : run.program = .ask (.store (.activate commitSha)) rest) {prior row : Repository}
    (member : prior ∈ world.journal.database.repositories)
    (owner : prior.id = run.claimed.repositoryId) (place : SamePlace prior row)
    (version : row.indexVersion = prior.indexVersion + 1)
    (vectors : (world.step settings platform (.work workerId outside)).activeVectors =
      Function.update world.activeVectors run.claimed.repositoryId run.snapshot) :
    ∃ scope, vectorScopeForRepository row row.indexVersion = some scope ∧
      scopePoints scope (world.step settings platform (.work workerId outside)).points =
        (world.step settings platform (.work workerId outside)).activeVectors row.id := by
  have runSound := sound.runs workerId run holds.live
  have repositoryIds := sound.journal.consistent.repositoryIds
  obtain ⟨_, prepared, validated, _⟩ := runSound.allowed asks
  obtain ⟨context, known, stored, storedMember, storedId, waits⟩ := next workerId run holds prepared
  obtain rfl := repositoryIds.row_eq storedMember member (storedId.trans owner.symm)
  obtain ⟨scope, made, points⟩ := kept.validated workerId run context ⟨holds, validated, known⟩
  refine ⟨scope, ?_, ?_⟩
  · rw [repositoryScope_congr place, version, ← waits, ← made]
    exact ((runSound.context context known).scope repositoryIds member owner _).symm
  · rw [vectors, place.id, owner, Function.update_self, ← points]
    exact step_points_unwritten holds.live asks rfl scope

theorem VectorsKept.active_step (kept : VectorsKept world)
    (sound : WorldSound settings platform world) (next : NextVersions world) {action : Action}
    (spares : world.sparesSettled action) {row : Repository}
    (member : row ∈ (world.step settings platform action).journal.database.repositories)
    (positive : 1 ≤ row.indexVersion) :
    ∃ scope, vectorScopeForRepository row row.indexVersion = some scope ∧
      scopePoints scope (world.step settings platform action).points =
        (world.step settings platform action).activeVectors row.id := by
  have consistent := sound.journal.consistent
  rcases step_journal settings platform world action with idle | ⟨entry, issued, applied⟩
  · have vectors := activeVectors_kept (congrArg (·.history.activations) idle)
    rw [idle] at member
    exact kept.active_unmoved sound next spares member ⟨rfl, rfl, rfl, rfl⟩ rfl positive
      (congrFun vectors row.id)
  · rw [applied] at member
    have effect := entry.operation.effect settings platform entry.moment consistent.jobIds
      consistent.repositoryIds
    rcases effect.repositories.origin member with ⟨prior, priorMember, step, sameId⟩ | fresh
    · rcases apply_cases settings platform consistent entry.moment entry.operation with
        ⟨activation, claimed, worker, build, committed⟩ | unactivated
      · have recorded := committed.recorded
        rw [← applied] at recorded
        have activates := committed.operation
        cases issued with
        | served outsideRuns =>
            subst activates
            cases outsideRuns
        | claimed => cases activates
        | beat => cases activates
        | asked live asks =>
            rename_i outside run call rest answered
            cases activates
            obtain ⟨jobMember, held⟩ := held_of_find committed.guards.found
            have holds : Holds world worker run := ⟨live, List.any_eq_true.mpr ⟨_, jobMember, held⟩⟩
            obtain ⟨job, ownMember, ownHeld, owner⟩ := holds.job sound
            have sameJob := consistent.jobIds.row_eq ownMember jobMember
              ((heldBy_iff.mp ownHeld).1.trans (heldBy_iff.mp held).1.symm)
            have located := (repository?_mem committed.guards.located).2
            rw [← sameJob, owner] at located
            have vectors : (world.step settings platform (.work worker outside)).activeVectors =
                Function.update world.activeVectors run.claimed.repositoryId run.snapshot :=
              activeVectors_activated live recorded
            rcases committed.version consistent priorMember member sameId with
              ⟨rfl, version⟩ | ⟨apart, version⟩
            · exact kept.active_moved sound next holds asks priorMember located step.place version
                vectors
            · refine kept.active_unmoved sound next spares priorMember step.place version positive ?_
              rw [vectors, Function.update_of_ne (located ▸ apart)]
      · have vectors : (world.step settings platform action).activeVectors = world.activeVectors :=
          activeVectors_kept (by rw [applied]; exact unactivated.activations)
        have version := (unactivated.repositories.step_of_key consistent.repositoryIds priorMember
          member sameId).indexVersion
        exact kept.active_unmoved sound next spares priorMember step.place version positive
          (congrFun vectors prior.id)
    · rw [fresh.2.unindexed] at positive
      exact absurd positive (by decide)

theorem VectorsKept.step (kept : VectorsKept world) (sound : WorldSound settings platform world)
    (next : NextVersions world) {action : Action} (spares : world.sparesSettled action) :
    VectorsKept (world.step settings platform action) where
  validated := fun _ _ _ validated => kept.validated_step sound next spares validated
  active := fun _ member positive => kept.active_step sound next spares member positive

theorem VectorsKept.start : VectorsKept {} where
  validated := by
    intro workerId run context validated
    have live := validated.holds.live
    simp at live
  active := by simp

end Kept

/-- In every interleaving in which no run without its claim writes a settled
version, the points of every active version are exactly those that its run
validated, from that validation on. -/
theorem spared_vectors_kept {settings : Settings} {platform : Platform} {world : World}
    (path : World.Path settings platform World.sparesSettled {} world) : VectorsKept world := by
  have kept : WorldSound settings platform world ∧ NextVersions world ∧ VectorsKept world := by
    induction path with
    | refl => exact ⟨.start settings platform, .start, .start⟩
    | tail _ moves ih =>
        obtain ⟨action, spares, rfl⟩ := moves
        obtain ⟨sound, next, kept⟩ := ih
        exact ⟨sound.step action, next.step sound action, kept.step sound next spares⟩
  exact kept.2.2

/-! ## Runs of a list of actions -/

namespace World

/-- A write of the action's worker is made under its claim. -/
def writesHeld (world : World) : Action → Bool
  | .work workerId _ =>
      (world.runs workerId).all fun run =>
        run.writes.isNone || holdsClaim world.journal.database workerId run.claimed
  | _ => true

theorem sparesSettled_of_writesHeld {world : World} {action : Action}
    (writes : world.writesHeld action = true) : world.sparesSettled action := by
  rintro workerId outside run scope rfl live written unheld
  simp [writesHeld, live, written, unheld] at writes

end World

namespace Onboarding

/-- Every outside call succeeds; the checkout has one chunk. -/
def chunked (now : Timestamp) : Outside where
  moment := { now }
  reply
    | .analysisResult input =>
        .ok (Services.Onboarding.processing input.indexVersion input.commitSha)
    | .embedDocuments documents =>
        .ok (documents.foldl (fun vectors document => vectors.insert document.itemId [1]) ∅)
    | request => (analysed now).reply request

/-- A claimed run that succeeds in every step, and ends. -/
def success (workerId : WorkerId) (now : Timestamp) : List Action :=
  List.replicate 31 (.work workerId (chunked now))

/-- The first worker stops before its `delete_scope`; its job is recovered, and
the second worker takes it to activation. -/
def overtakenDeletion : World :=
  World.run Services.Onboarding.settings Services.Onboarding.platform {}
    (selection 0 ++ [.claim { now := 2 } "first" 1] ++
      List.replicate 19 (.work "first" (chunked 3)) ++
      [.serve { now := 40000 } .recoverAbandoned runOnly_recoverAbandoned, .claim { now := 40001 } "second" 1] ++
      success "second" 40002)

/-- The first worker wakes up. -/
def destroyed : World :=
  overtakenDeletion.step Services.Onboarding.settings Services.Onboarding.platform
    (.work "first" (chunked 40003))

/-- The first worker's run alone. -/
def aloneRun : List Action :=
  selection 0 ++ [.claim { now := 2 } "first" 1] ++ success "first" 3

def indexedAlone : World :=
  World.run Services.Onboarding.settings Services.Onboarding.platform {} aloneRun

end Onboarding

open Onboarding in
/-- The late `delete_scope` empties the active version. -/
theorem active_vectors_destroyed :
    World.Reachable Services.Onboarding.settings Services.Onboarding.platform destroyed ∧
    destroyed.journal.database.repositories.map (fun row => (row.id, row.indexVersion)) = [(1, 1)] ∧
    (destroyed.activeVectors 1).length = 1 ∧ destroyed.points = [] ∧
    ¬ VectorsKept destroyed := by
  have outcome : destroyed.journal.database.repositories.map
      (fun row => (row.id, row.indexVersion)) = [(1, 1)] ∧
      (destroyed.activeVectors 1).length = 1 ∧ destroyed.points = [] := by decide +kernel
  obtain ⟨versions, validated, emptied⟩ := outcome
  refine ⟨(World.Reachable.run .refl _).run [_], versions, validated, emptied, ?_⟩
  intro kept
  have member : (1, 1) ∈ destroyed.journal.database.repositories.map
      (fun row => (row.id, row.indexVersion)) := by simp [versions]
  obtain ⟨row, stored, same⟩ := List.mem_map.mp member
  simp only [Prod.mk.injEq] at same
  obtain ⟨scope, _, points⟩ := kept.active row stored (by rw [same.2])
  rw [same.1, emptied] at points
  rw [← points] at validated
  cases validated

open Onboarding in
theorem indexed_vectors_kept :
    (indexedAlone.activeVectors 1).length = 1 ∧ VectorsKept indexedAlone := by
  have held : World.Meets Services.Onboarding.settings Services.Onboarding.platform
      (fun world action => world.writesHeld action = true) {} aloneRun := by
    decide +kernel
  have path := (World.path_run held).mono fun _ _ => World.sparesSettled_of_writesHeld
  exact ⟨by decide +kernel, spared_vectors_kept path⟩

end Codenaut.System
