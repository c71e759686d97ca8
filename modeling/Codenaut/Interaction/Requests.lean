import Codenaut.Interaction.Program

/-!
# Requests of a program

A condition on every request that a program can ask, whatever the replies. It
holds of a composed task if it holds of the parts.
-/

set_option autoImplicit false

namespace Codenaut.Interaction

variable {Request : Type} {Reply : Request → Type} {State Error First Second Result : Type}

/-- Every request that the program can ask is allowed. -/
def Program.AsksOnly (allowed : Request → Prop) : Program Request Reply Result → Prop
  | .done _ => True
  | .ask request next => allowed request ∧ ∀ reply, (next reply).AsksOnly allowed

theorem Program.AsksOnly.bind {allowed : Request → Prop} {program : Program Request Reply First}
    {rest : First → Program Request Reply Second} (first : program.AsksOnly allowed)
    (later : ∀ result, (rest result).AsksOnly allowed) : (program.bind rest).AsksOnly allowed := by
  induction program with
  | done result => exact later result
  | ask request next ih => exact ⟨first.1, fun reply => ih reply (first.2 reply)⟩

namespace Task

/-- Every request that the task can ask is allowed, from whatever state. -/
def AsksOnly (allowed : Request → Prop) (task : Task Request Reply State Error Result) : Prop :=
  ∀ state, (task.start state).AsksOnly allowed

namespace AsksOnly

variable {allowed : Request → Prop}

theorem pure (value : Result) :
    AsksOnly allowed (Pure.pure value : Task Request Reply State Error Result) :=
  fun _ => trivial

theorem throw (error : Error) :
    AsksOnly allowed (throw error : Task Request Reply State Error Result) :=
  fun _ => trivial

theorem get : AsksOnly allowed (get : Task Request Reply State Error State) :=
  fun _ => trivial

theorem modify (change : State → State) :
    AsksOnly allowed (modify change : Task Request Reply State Error Unit) :=
  fun _ => trivial

theorem ask {request : Request} (permitted : allowed request) :
    AsksOnly allowed (Task.ask request : Task Request Reply State Error (Reply request)) :=
  fun _ => ⟨permitted, fun _ => trivial⟩

theorem bind {first : Task Request Reply State Error First}
    {second : First → Task Request Reply State Error Second} (before : first.AsksOnly allowed)
    (after : ∀ value, (second value).AsksOnly allowed) : (first >>= second).AsksOnly allowed := by
  intro state
  refine Program.AsksOnly.bind (before state) ?_
  rintro ⟨result, ended⟩
  cases result with
  | ok value => exact after value ended
  | error error => trivial

theorem tryCatch {task : Task Request Reply State Error Result}
    {handler : Error → Task Request Reply State Error Result} (body : task.AsksOnly allowed)
    (handled : ∀ error, (handler error).AsksOnly allowed) :
    (tryCatch task handler).AsksOnly allowed := by
  intro state
  refine Program.AsksOnly.bind (body state) ?_
  rintro ⟨result, ended⟩
  cases result with
  | ok value => trivial
  | error error => exact handled error ended

end AsksOnly

end Task

end Codenaut.Interaction
