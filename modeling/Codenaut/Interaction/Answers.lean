import Codenaut.Interaction.Program

/-!
# Programs under fixed answers

Under an environment that gives every request one answer, a program asks one
list of requests and has one outcome.
-/

set_option autoImplicit false

namespace Codenaut.Interaction

variable {Request : Type} {Reply : Request → Type} {State Error First Second Result : Type}

namespace Program

def outcome (answers : (request : Request) → Reply request) : Program Request Reply Result → Result
  | .done result => result
  | .ask request next => outcome answers (next (answers request))

def requests (answers : (request : Request) → Reply request) :
    Program Request Reply Result → List Request
  | .done _ => []
  | .ask request next => request :: requests answers (next (answers request))

variable (answers : (request : Request) → Reply request)

theorem outcome_bind (program : Program Request Reply First)
    (rest : First → Program Request Reply Second) :
    (program.bind rest).outcome answers = (rest (program.outcome answers)).outcome answers := by
  induction program with
  | done result => rfl
  | ask request next ih => exact ih _

theorem requests_bind (program : Program Request Reply First)
    (rest : First → Program Request Reply Second) :
    (program.bind rest).requests answers =
      program.requests answers ++ (rest (program.outcome answers)).requests answers := by
  induction program with
  | done result => rfl
  | ask request next ih => exact congrArg (request :: ·) (ih _)

end Program

namespace Task

variable (answers : (request : Request) → Reply request)

def outcome (task : Task Request Reply State Error Result) (state : State) :
    Except Error Result × State :=
  (task.start state).outcome answers

def requests (task : Task Request Reply State Error Result) (state : State) : List Request :=
  (task.start state).requests answers

section Rules

variable (state : State)

@[simp] theorem outcome_pure (value : Result) :
    outcome answers (pure value : Task Request Reply State Error Result) state =
      (.ok value, state) :=
  rfl

@[simp] theorem requests_pure (value : Result) :
    requests answers (pure value : Task Request Reply State Error Result) state = [] :=
  rfl

@[simp] theorem outcome_throw (error : Error) :
    outcome answers (throw error : Task Request Reply State Error Result) state =
      (.error error, state) :=
  rfl

@[simp] theorem requests_throw (error : Error) :
    requests answers (throw error : Task Request Reply State Error Result) state = [] :=
  rfl

@[simp] theorem outcome_ask (request : Request) :
    outcome answers (ask request : Task Request Reply State Error (Reply request)) state =
      (.ok (answers request), state) :=
  rfl

@[simp] theorem requests_ask (request : Request) :
    requests answers (ask request : Task Request Reply State Error (Reply request)) state =
      [request] :=
  rfl

/-- A failure of the first task skips the second. -/
theorem outcome_bind (first : Task Request Reply State Error First)
    (second : First → Task Request Reply State Error Second) :
    outcome answers (first >>= second) state =
      match outcome answers first state with
      | (.ok value, left) => outcome answers (second value) left
      | (.error error, left) => (.error error, left) := by
  have bound := Program.outcome_bind answers (first.start state) fun ended =>
    match ended with
    | (.ok value, left) => (second value).start left
    | (.error error, left) => .done (.error error, left)
  unfold outcome
  refine Eq.trans ?_ (bound.trans ?_)
  · apply congrArg (Program.outcome answers)
    apply congrArg (Program.bind (first.start state))
    funext ended
    obtain ⟨result, left⟩ := ended
    cases result <;> rfl
  · cases (first.start state).outcome answers with
    | mk result left => cases result <;> rfl

theorem requests_bind (first : Task Request Reply State Error First)
    (second : First → Task Request Reply State Error Second) :
    requests answers (first >>= second) state =
      requests answers first state ++
        match outcome answers first state with
        | (.ok value, left) => requests answers (second value) left
        | (.error _, _) => [] := by
  have bound := Program.requests_bind answers (first.start state) fun ended =>
    match ended with
    | (.ok value, left) => (second value).start left
    | (.error error, left) => .done (.error error, left)
  unfold requests outcome
  refine Eq.trans ?_ (bound.trans ?_)
  · apply congrArg (Program.requests answers)
    apply congrArg (Program.bind (first.start state))
    funext ended
    obtain ⟨result, left⟩ := ended
    cases result <;> rfl
  · cases (first.start state).outcome answers with
    | mk result left => cases result <;> rfl

end Rules

end Task

end Codenaut.Interaction
