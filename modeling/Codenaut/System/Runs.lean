import Codenaut.System.RunProperties

/-!
# Lists of actions

Actions taken in order, and the world in which a worker has claimed the first
job of a selected repository.
-/

set_option autoImplicit false

namespace Codenaut.System

open Codenaut.Core Codenaut.Db Codenaut.Indexing Codenaut.Services

namespace World

def run (settings : Settings) (platform : Platform) (world : World) (actions : List Action) :
    World :=
  actions.foldl (fun current action => current.step settings platform action) world

/-- Every action of a list meets a condition in the state where it is taken. -/
def Meets (settings : Settings) (platform : Platform) (condition : World → Action → Prop) :
    World → List Action → Prop
  | _, [] => True
  | world, action :: rest =>
      condition world action ∧ Meets settings platform condition
        (world.step settings platform action) rest

instance Meets.decidable (settings : Settings) (platform : Platform)
    (condition : World → Action → Bool) : (world : World) → (actions : List Action) →
      Decidable (Meets settings platform (fun before action => condition before action = true)
        world actions)
  | _, [] => .isTrue trivial
  | world, action :: rest =>
      have := Meets.decidable settings platform condition (world.step settings platform action) rest
      inferInstanceAs (Decidable (condition world action = true ∧ _))

theorem path_run {settings : Settings} {platform : Platform} {condition : World → Action → Prop}
    {world : World} {actions : List Action}
    (meets : Meets settings platform condition world actions) :
    Path settings platform condition world (world.run settings platform actions) := by
  induction actions generalizing world with
  | nil => exact .refl
  | cons action rest ih => exact .head ⟨action, meets.1, rfl⟩ (ih meets.2)

theorem Path.mono {settings : Settings} {platform : Platform}
    {condition weaker : World → Action → Prop} {before after : World}
    (weaken : ∀ world action, condition world action → weaker world action)
    (path : Path settings platform condition before after) :
    Path settings platform weaker before after := by
  induction path with
  | refl => exact .refl
  | tail _ moves ih =>
      obtain ⟨action, met, moved⟩ := moves
      exact .tail ih ⟨action, weaken _ action met, moved⟩

theorem Path.reachable {settings : Settings} {platform : Platform}
    {condition : World → Action → Prop} {before after : World}
    (reachable : Reachable settings platform before)
    (path : Path settings platform condition before after) :
    Reachable settings platform after :=
  Relation.ReflTransGen.trans reachable (path.mono fun _ _ _ => trivial)

theorem Path.run (settings : Settings) (platform : Platform) (world : World)
    (actions : List Action) :
    Path settings platform (fun _ _ => True) world (world.run settings platform actions) := by
  induction actions generalizing world with
  | nil => exact .refl
  | cons action rest ih => exact .head ⟨action, trivial, rfl⟩ (ih _)

theorem Reachable.run {settings : Settings} {platform : Platform} {world : World}
    (reachable : Reachable settings platform world) (actions : List Action) :
    Reachable settings platform (world.run settings platform actions) :=
  Relation.ReflTransGen.trans reachable (Path.run settings platform world actions)

/-- The transaction of an action, if it commits one, meets a condition. -/
def Commits (condition : Database → Operation → Prop) (world : World) (action : Action) : Prop :=
  ∀ entry, world.transaction action = some entry →
    condition world.journal.database entry.operation

/-- The transactions of a path of the world are a path of its journal. -/
theorem Path.journal {settings : Settings} {platform : Platform}
    {condition : Database → Operation → Prop} {before after : World}
    (sound : WorldSound settings platform before)
    (path : Path settings platform (Commits condition) before after) :
    Journal.Path settings platform condition before.journal after.journal ∧
      WorldSound settings platform after := by
  induction path with
  | refl => exact ⟨.refl, sound⟩
  | tail _ moves ih =>
      obtain ⟨action, commits, rfl⟩ := moves
      obtain ⟨journal, current⟩ := ih
      refine ⟨?_, current.step action⟩
      rename_i world prior
      cases committed : world.transaction action with
      | none =>
          have same : (world.step settings platform action).journal = world.journal := by
            simp [step, journalAfter, committed]
          rw [same]
          exact journal
      | some entry =>
          have applied : (world.step settings platform action).journal =
              world.journal.apply settings platform entry.moment entry.operation := by
            simp [step, journalAfter, committed]
          rw [applied]
          exact .tail journal ⟨entry.moment, entry.operation,
            issued_admissible current (issued_of_transaction committed),
            commits entry committed, rfl⟩

end World

/-! ## Onboarding -/

namespace Onboarding

theorem runOnly_listing : runOnly
    (.synchronizeRepositories 1 1 [Services.Onboarding.repository "main"]) = false := rfl

/-- Sign-in, repository listing and selection, as in the transaction runs. -/
def selection (now : Timestamp) : List Action :=
  [.serve { now } (.githubLogin none { id := 5 } [Services.Onboarding.installation]) rfl,
    .serve { now } (.synchronizeRepositories 1 1 [Services.Onboarding.repository "main"])
      runOnly_listing,
    .serve { now } (.selectRepository 1 1 1) rfl]

/-- A step of a run that reaches no service but the database. -/
def outside (now : Timestamp) : Outside where
  moment := { now }
  reply
    | .store _ => .error .internal
    | .publicRepository _ _ | .installationToken _ _ | .comparePublic _ _ _ _
    | .compare _ _ _ _ _ => .error .internal
    | .clone _ _ _ _ | .discover _ | .chunking _ | .graphing _ | .analysisResult _
    | .embedDocuments _ | .ensureCollection | .deleteScope _ | .upsert _ _
    | .validateScope _ _ _ _ | .reusableVectors _ _ _ _ _ => .error .internal

/-- The first worker has claimed job 1. -/
def claimed : World :=
  World.run Services.Onboarding.settings Services.Onboarding.platform {}
    (selection 0 ++ [.claim { now := 0 } "worker" 1])

theorem claimed_reachable :
    World.Reachable Services.Onboarding.settings Services.Onboarding.platform claimed :=
  World.Reachable.run .refl _

end Onboarding

end Codenaut.System
