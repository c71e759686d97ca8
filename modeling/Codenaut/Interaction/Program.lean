/-!
# Interactive programs

A program asks typed requests of an environment and continues on every reply.
A contract says what it may ask, given what the replies so far have shown; tasks
add a private state and errors, with one rule for each way a task is built.
-/

set_option autoImplicit false

namespace Codenaut.Interaction

/-- One request at a time, until a result. -/
inductive Program (Request : Type) (Reply : Request → Type) (Result : Type) where
  | done (result : Result)
  | ask (request : Request) (next : Reply request → Program Request Reply Result)

variable {Request : Type} {Reply : Request → Type} {View State Error First Second Result : Type}

namespace Program

def bind : Program Request Reply First → (First → Program Request Reply Second) →
    Program Request Reply Second
  | .done result, rest => rest result
  | .ask request next, rest => .ask request fun reply => (next reply).bind rest

instance : Monad (Program Request Reply) where
  pure := .done
  bind := bind

/-- Run against an environment that answers every request. -/
def run {Environment : Type}
    (answer : Environment → (request : Request) → Reply request × Environment) :
    Environment → Program Request Reply Result → Result × Environment
  | environment, .done result => (result, environment)
  | environment, .ask request next =>
      let answered := answer environment request
      run answer answered.2 (next answered.1)

end Program

/-- What a program may ask, and what it learns from a reply. -/
structure Contract (View Request : Type) (Reply : Request → Type) where
  allowed : View → Request → Prop
  learn : View → (request : Request) → Reply request → View

/-- Every request is allowed, whatever the replies, and the result meets `post`. -/
def Program.Safe (contract : Contract View Request Reply) (post : View → Result → Prop) :
    View → Program Request Reply Result → Prop
  | view, .done result => post view result
  | view, .ask request next =>
      contract.allowed view request ∧
        ∀ reply, Safe contract post (contract.learn view request reply) (next reply)

namespace Program.Safe

variable {contract : Contract View Request Reply}

theorem mono {post weaker : View → Result → Prop}
    (implies : ∀ view result, post view result → weaker view result) {view : View}
    {program : Program Request Reply Result} (safe : program.Safe contract post view) :
    program.Safe contract weaker view := by
  induction program generalizing view with
  | done result => exact implies view result safe
  | ask request next ih => exact ⟨safe.1, fun reply => ih reply (safe.2 reply)⟩

theorem bind_iff {post : View → Second → Prop} {view : View}
    {program : Program Request Reply First} {rest : First → Program Request Reply Second} :
    (program.bind rest).Safe contract post view ↔
      program.Safe contract (fun seen result => (rest result).Safe contract post seen) view := by
  induction program generalizing view with
  | done result => rfl
  | ask request next ih =>
      constructor
      · intro safe
        exact ⟨safe.1, fun reply => (ih reply).mp (safe.2 reply)⟩
      · intro safe
        exact ⟨safe.1, fun reply => (ih reply).mpr (safe.2 reply)⟩

end Program.Safe

/-! ## Tasks -/

/-- A program with a private state, which may fail. The state survives a failure. -/
abbrev Task (Request : Type) (Reply : Request → Type) (State Error Result : Type) : Type :=
  ExceptT Error (StateT State (Program Request Reply)) Result

namespace Task

/-- Ask one request. -/
def ask (request : Request) : Task Request Reply State Error (Reply request) :=
  ExceptT.mk fun state => .ask request fun reply => .done (.ok reply, state)

/-- The program of a task from a private state. -/
def start (task : Task Request Reply State Error Result) (state : State) :
    Program Request Reply (Except Error Result × State) :=
  task.run.run state

/-- Started in `state`, the task keeps the contract and ends as `post` says. -/
def Holds (contract : Contract View Request Reply)
    (task : Task Request Reply State Error Result) (view : View) (state : State)
    (post : View → State → Except Error Result → Prop) : Prop :=
  (task.start state).Safe contract (fun seen outcome => post seen outcome.2 outcome.1) view

section Rules

variable {contract : Contract View Request Reply} {view : View} {state : State}

theorem Holds.mono {task : Task Request Reply State Error Result}
    {post weaker : View → State → Except Error Result → Prop}
    (holds : task.Holds contract view state post)
    (implies : ∀ seen state result, post seen state result → weaker seen state result) :
    task.Holds contract view state weaker := by
  refine Program.Safe.mono ?_ holds
  intro seen outcome
  exact implies seen outcome.2 outcome.1

theorem holds_pure {value : Result} {post : View → State → Except Error Result → Prop}
    (ok : post view state (.ok value)) :
    (pure value : Task Request Reply State Error Result).Holds contract view state post :=
  ok

theorem holds_throw {error : Error} {post : View → State → Except Error Result → Prop}
    (failed : post view state (.error error)) :
    (throw error : Task Request Reply State Error Result).Holds contract view state post :=
  failed

/-- Sequencing: a failure of the first task skips the second. -/
theorem holds_bind {first : Task Request Reply State Error First}
    {second : First → Task Request Reply State Error Second}
    {post : View → State → Except Error Second → Prop}
    (holds : first.Holds contract view state fun seen state result =>
      match result with
      | .ok value => (second value).Holds contract seen state post
      | .error error => post seen state (.error error)) :
    (first >>= second).Holds contract view state post := by
  refine Program.Safe.bind_iff.mpr (Program.Safe.mono ?_ holds)
  rintro seen ⟨result, state⟩ next
  cases result with
  | ok value => exact next
  | error error => exact next

/-- A handler runs on the state that the failed task left. -/
theorem holds_tryCatch {task : Task Request Reply State Error Result}
    {handler : Error → Task Request Reply State Error Result}
    {post : View → State → Except Error Result → Prop}
    (holds : task.Holds contract view state fun seen state result =>
      match result with
      | .ok value => post seen state (.ok value)
      | .error error => (handler error).Holds contract seen state post) :
    (tryCatch task handler).Holds contract view state post := by
  refine Program.Safe.bind_iff.mpr (Program.Safe.mono ?_ holds)
  rintro seen ⟨result, state⟩ next
  cases result with
  | ok value => exact next
  | error error => exact next

theorem holds_get {post : View → State → Except Error State → Prop}
    (ok : post view state (.ok state)) :
    (get : Task Request Reply State Error State).Holds contract view state post :=
  ok

theorem holds_modify {change : State → State} {post : View → State → Except Error Unit → Prop}
    (ok : post view (change state) (.ok ())) :
    (modify change : Task Request Reply State Error Unit).Holds contract view state post :=
  ok

theorem holds_ask {request : Request} {post : View → State → Except Error (Reply request) → Prop}
    (allowed : contract.allowed view request)
    (learned : ∀ reply, post (contract.learn view request reply) state (.ok reply)) :
    (ask request : Task Request Reply State Error (Reply request)).Holds contract view state
      post :=
  ⟨allowed, learned⟩

end Rules

end Task

end Codenaut.Interaction
