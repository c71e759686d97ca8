import Codenaut.Interaction.Program

/-!
# Histories of a program

The runs of a program against any environment, as lists of requests with their
replies. A contract that sees the whole history speaks about every run: each
request is allowed by what came before it, and the result by all events.
-/

set_option autoImplicit false

namespace Codenaut.Interaction

variable {Request : Type} {Reply : Request → Type} {State Error First Second Result : Type}

/-- A request with its reply. -/
abbrev Event (Request : Type) (Reply : Request → Type) : Type :=
  (request : Request) × Reply request

namespace Program

/-- The program can exchange these events, oldest first, and end with the result. -/
inductive Runs : Program Request Reply Result → List (Event Request Reply) → Result → Prop where
  | done {result : Result} : Runs (.done result) [] result
  | ask {request : Request} {next : Reply request → Program Request Reply Result}
      {reply : Reply request} {events : List (Event Request Reply)} {result : Result} :
      Runs (next reply) events result → Runs (.ask request next) (⟨request, reply⟩ :: events) result

end Program

/-- The contract whose view is the history, newest event first. -/
def historyContract (allowed : List (Event Request Reply) → Request → Prop) :
    Contract (List (Event Request Reply)) Request Reply where
  allowed := allowed
  learn history request reply := ⟨request, reply⟩ :: history

namespace Program

variable {allowed : List (Event Request Reply) → Request → Prop}
  {post : List (Event Request Reply) → Result → Prop} {history : List (Event Request Reply)}
  {program : Program Request Reply Result} {result : Result}

theorem Safe.ends (safe : program.Safe (historyContract allowed) post history)
    {events : List (Event Request Reply)} (runs : program.Runs events result) :
    post (events.reverse ++ history) result := by
  induction runs generalizing history with
  | done => exact safe
  | ask _ ih => simpa [historyContract] using ih (safe.2 _)

theorem Safe.asks (safe : program.Safe (historyContract allowed) post history)
    {before after : List (Event Request Reply)} {request : Request} {reply : Reply request}
    (runs : program.Runs (before ++ ⟨request, reply⟩ :: after) result) :
    allowed (before.reverse ++ history) request := by
  generalize split : before ++ ⟨request, reply⟩ :: after = events at runs
  induction runs generalizing history before with
  | done => simp at split
  | ask _ ih =>
      cases before with
      | nil =>
          obtain ⟨same, -⟩ := List.cons.inj split
          cases same
          exact safe.1
      | cons first rest =>
          obtain ⟨rfl, later⟩ := List.cons.inj split
          simpa [historyContract] using ih (safe.2 _) later

/-- An environment that answers from the history and records it. -/
def recording (policy : List (Event Request Reply) → (request : Request) → Reply request)
    (history : List (Event Request Reply)) (request : Request) :
    Reply request × List (Event Request Reply) :=
  (policy history request, ⟨request, policy history request⟩ :: history)

/-- What an environment records is a run. -/
theorem runs_of_run (policy : List (Event Request Reply) → (request : Request) → Reply request)
    (program : Program Request Reply Result) :
    ∀ history, ∃ events, (program.run (recording policy) history).2 = events.reverse ++ history ∧
      program.Runs events (program.run (recording policy) history).1 := by
  induction program with
  | done result => exact fun history => ⟨[], rfl, .done⟩
  | ask request next ih =>
      intro history
      obtain ⟨events, recorded, runs⟩ :=
        ih (policy history request) (⟨request, policy history request⟩ :: history)
      exact ⟨⟨request, policy history request⟩ :: events, by simp [run, recording, recorded],
        .ask runs⟩

/-- A program against a policy, from no history. -/
def recorded (policy : List (Event Request Reply) → (request : Request) → Reply request)
    (program : Program Request Reply Result) : Result × List (Event Request Reply) :=
  ((program.run (recording policy) []).1, (program.run (recording policy) []).2.reverse)

theorem runs_recorded
    (policy : List (Event Request Reply) → (request : Request) → Reply request)
    (program : Program Request Reply Result) :
    program.Runs (program.recorded policy).2 (program.recorded policy).1 := by
  obtain ⟨events, same, runs⟩ := runs_of_run policy program []
  simpa [recorded, same] using runs

end Program

/-- Where every request is allowed, every program may run. -/
theorem Program.safe_unrestricted (program : Program Request Reply Result) :
    ∀ history : List (Event Request Reply),
      program.Safe (historyContract fun _ _ => True) (fun _ _ => True) history := by
  induction program with
  | done result => exact fun history => trivial
  | ask request next ih => exact fun history => ⟨trivial, fun reply => ih reply _⟩

/-! ## Tasks that leave their state alone -/

/-- A history extended by permitted requests. -/
def Extends (permitted : Request → Prop) (history seen : List (Event Request Reply)) : Prop :=
  ∃ events : List (Event Request Reply), seen = events ++ history ∧
    ∀ event ∈ events, permitted event.1

theorem Extends.refl (permitted : Request → Prop) (history : List (Event Request Reply)) :
    Extends permitted history history :=
  ⟨[], rfl, by simp⟩

theorem Extends.snoc {permitted : Request → Prop} {history seen : List (Event Request Reply)}
    {event : Event Request Reply} (grown : Extends permitted history seen)
    (allowed : permitted event.1) : Extends permitted history (event :: seen) := by
  obtain ⟨events, rfl, all⟩ := grown
  refine ⟨event :: events, rfl, ?_⟩
  intro other member
  rcases List.mem_cons.mp member with rfl | earlier
  · exact allowed
  · exact all other earlier

/-- A program that asks permitted requests only keeps every contract that
permits them, and extends the history by them. -/
theorem Program.Safe.extending {permitted : Request → Prop}
    {allowed : List (Event Request Reply) → Request → Prop} {post : Result → Prop}
    {base history : List (Event Request Reply)} {program : Program Request Reply Result}
    (safe : program.Safe (historyContract fun _ request => permitted request)
      (fun _ result => post result) history)
    (covers : ∀ seen request, Extends permitted base seen → permitted request →
      allowed seen request)
    (grown : Extends permitted base history) :
    program.Safe (historyContract allowed)
      (fun seen result => Extends permitted base seen ∧ post result) history := by
  induction program generalizing history with
  | done result => exact ⟨grown, safe⟩
  | ask request next ih =>
      exact ⟨covers history request grown safe.1, fun reply =>
        ih reply (safe.2 reply) (grown.snoc safe.1)⟩

namespace Task

/-- From this state the task asks permitted requests only, keeps the state, and
returns what `post` says unless it fails. -/
def Calls (permitted : Request → Prop) (state : State)
    (task : Task Request Reply State Error Result) (post : Result → Prop) : Prop :=
  ∀ history : List (Event Request Reply),
    task.Holds (historyContract fun _ request => permitted request) history state
      fun _ left result => left = state ∧ ∀ value, result = .ok value → post value

section Rules

variable {permitted : Request → Prop} {state : State}

theorem calls_pure {value : Result} {post : Result → Prop} (holds : post value) :
    Calls permitted state (pure value : Task Request Reply State Error Result) post := by
  intro history
  refine holds_pure ⟨rfl, ?_⟩
  intro other same
  cases same
  exact holds

theorem calls_throw {error : Error} {post : Result → Prop} :
    Calls permitted state (throw error : Task Request Reply State Error Result) post := by
  intro history
  refine holds_throw ⟨rfl, ?_⟩
  intro other same
  cases same

theorem calls_get :
    Calls permitted state (get : Task Request Reply State Error State) fun value =>
      value = state := by
  intro history
  refine holds_get ⟨rfl, ?_⟩
  intro other same
  cases same
  rfl

theorem calls_ask {request : Request} (allowed : permitted request) :
    Calls permitted state (ask request : Task Request Reply State Error (Reply request))
      fun _ => True := by
  intro history
  exact holds_ask allowed fun reply => ⟨rfl, fun _ _ => trivial⟩

theorem calls_bind {first : Task Request Reply State Error First}
    {second : First → Task Request Reply State Error Second} {middle : First → Prop}
    {post : Second → Prop} (calls : Calls permitted state first middle)
    (rest : ∀ value, middle value → Calls permitted state (second value) post) :
    Calls permitted state (first >>= second) post := by
  intro history
  apply holds_bind
  apply (calls history).mono
  rintro seen left result ⟨rfl, ends⟩
  cases result with
  | ok value => exact rest value (ends value rfl) seen
  | error error => exact ⟨rfl, fun _ same => by cases same⟩

theorem calls_tryCatch {task : Task Request Reply State Error Result}
    {handler : Error → Task Request Reply State Error Result} {post : Result → Prop}
    (calls : Calls permitted state task post)
    (handled : ∀ error, Calls permitted state (handler error) post) :
    Calls permitted state (tryCatch task handler) post := by
  intro history
  apply holds_tryCatch
  apply (calls history).mono
  rintro seen left result ⟨rfl, ends⟩
  cases result with
  | ok value => exact ⟨rfl, ends⟩
  | error error => exact handled error seen

/-- Under a contract that permits the requests, the history grows by them. -/
theorem Calls.holds {task : Task Request Reply State Error Result} {post : Result → Prop}
    (calls : Calls permitted state task post)
    {allowed : List (Event Request Reply) → Request → Prop}
    {history : List (Event Request Reply)}
    (covers : ∀ seen request, Extends permitted history seen → permitted request →
      allowed seen request) :
    task.Holds (historyContract allowed) history state fun seen left result =>
      Extends permitted history seen ∧ left = state ∧ ∀ value, result = .ok value → post value := by
  have safe : (task.start state).Safe (historyContract fun _ request => permitted request)
      (fun _ (outcome : Except Error Result × State) =>
        outcome.2 = state ∧ ∀ value, outcome.1 = .ok value → post value) history :=
    calls history
  exact safe.extending covers (.refl _ _)

theorem Calls.permit {task : Task Request Reply State Error Result} {post : Result → Prop}
    (calls : Calls permitted state task post) {wider : Request → Prop}
    (covers : ∀ request, permitted request → wider request) : Calls wider state task post := by
  intro history
  apply (calls.holds fun _ request _ allowed => covers request allowed).mono
  exact fun _ _ _ ends => ends.2

end Rules

end Task

end Codenaut.Interaction
