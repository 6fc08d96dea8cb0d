import Mathlib.Logic.Function.Basic

/-! Programs over a durable store. A program is a tree of atomic reads and durable
steps, so one definition serves the uninterrupted run, the run that is stopped or
fails at any step, and the run that is interleaved with other programs. -/

namespace Workctx.Durable

/-- A durable step changes the store; stopped halfway it may leave one of its torn states. -/
structure Step (σ τ : Type) where
  effect : σ → σ
  torn : τ → σ → σ

def Step.atomic {σ τ : Type} (effect : σ → σ) : Step σ τ := ⟨effect, fun _ store => store⟩

inductive Progress (τ : Type) where
  | untouched
  | torn (how : τ)
  | landed

def Progress.land {σ τ : Type} (progress : Progress τ) (step : Step σ τ) (store : σ) : σ :=
  match progress with
  | .untouched => store
  | .torn how => step.torn how store
  | .landed => step.effect store

/-- What the environment does to the next durable step. A crash ends the process;
a failure raises an exception that the program may handle. -/
inductive Fault (τ ε : Type) where
  | run
  | crash (progress : Progress τ)
  | fail (error : ε) (progress : Progress τ)

/-- The result of a run, with the store it leaves and the faults it did not meet. -/
inductive Outcome (σ τ ε α : Type) where
  | ok (value : α) (store : σ) (rest : List (Fault τ ε))
  | error (error : ε) (store : σ) (rest : List (Fault τ ε))
  | crash (store : σ)

def Outcome.store {σ τ ε α : Type} : Outcome σ τ ε α → σ
  | .ok _ store _ => store
  | .error _ store _ => store
  | .crash store => store

/-- Whether the run returned to its caller, with a value or with an exception. -/
def Outcome.returned {σ τ ε α : Type} : Outcome σ τ ε α → Bool
  | .ok .. => true
  | .error .. => true
  | .crash _ => false

inductive Program (σ τ ε α : Type) where
  | ret (value : α)
  | raise (error : ε)
  | read (next : σ → Program σ τ ε α)
  | step (durable : Step σ τ) (failed : ε → Program σ τ ε α) (next : Program σ τ ε α)

namespace Program
variable {σ τ ε α β : Type}

def bind : Program σ τ ε α → (α → Program σ τ ε β) → Program σ τ ε β
  | .ret value, next => next value
  | .raise error, _ => .raise error
  | .read first, next => .read fun store => (first store).bind next
  | .step durable failed first, next =>
      .step durable (fun error => (failed error).bind next) (first.bind next)

instance : Monad (Program σ τ ε) where
  pure := .ret
  bind := bind

/-- The value of an observation of the store at this moment. -/
def observe (view : σ → α) : Program σ τ ε α := .read fun store => .ret (view store)

/-- A computation on the store as it is now, whose failure is raised to the caller. -/
def check (view : σ → Except ε α) : Program σ τ ε α := .read fun store =>
  match view store with
  | .ok value => .ret value
  | .error error => .raise error

def perform (durable : Step σ τ) : Program σ τ ε Unit := .step durable .raise (.ret ())

def ensure (test : Bool) (error : ε) : Program σ τ ε Unit := if test then .ret () else .raise error

def handle : Program σ τ ε α → (ε → Program σ τ ε α) → Program σ τ ε α
  | .ret value, _ => .ret value
  | .raise error, handler => handler error
  | .read first, handler => .read fun store => (first store).handle handler
  | .step durable failed first, handler =>
      .step durable (fun error => (failed error).handle handler) (first.handle handler)

/-- Continue one way behind a return and another way behind an exception. -/
def attempt : Program σ τ ε α → (α → Program σ τ ε β) → (ε → Program σ τ ε β) → Program σ τ ε β
  | .ret value, next, _ => next value
  | .raise error, _, failed => failed error
  | .read first, next, failed => .read fun store => (first store).attempt next failed
  | .step durable caught first, next, failed =>
      .step durable (fun error => (caught error).attempt next failed) (first.attempt next failed)

/-- Run the cleanup on return and on exception, and keep the outcome of the body. -/
def cleanup : Program σ τ ε α → Program σ τ ε Unit → Program σ τ ε α
  | .ret value, last => last.bind fun _ => .ret value
  | .raise error, last => last.bind fun _ => .raise error
  | .read first, last => .read fun store => (first store).cleanup last
  | .step durable failed first, last =>
      .step durable (fun error => (failed error).cleanup last) (first.cleanup last)

def forEach (body : α → Program σ τ ε Unit) : List α → Program σ τ ε Unit
  | [] => .ret ()
  | item :: rest => (body item).bind fun _ => forEach body rest

def collect (body : α → Program σ τ ε β) : List α → Program σ τ ε (List β)
  | [] => .ret []
  | item :: rest => (body item).bind fun first => (collect body rest).bind fun others => .ret (first :: others)

def retry (transient : ε → Bool) (exhausted : ε) (guard action : Program σ τ ε Unit) : Nat → Program σ τ ε Unit
  | 0 => .raise exhausted
  | attempts + 1 => guard.bind fun _ => action.handle fun error =>
      if transient error then
        if attempts = 0 then .raise exhausted else retry transient exhausted guard action attempts
      else .raise error

def run : Program σ τ ε α → σ → List (Fault τ ε) → Outcome σ τ ε α
  | .ret value, store, faults => .ok value store faults
  | .raise error, store, faults => .error error store faults
  | .read next, store, faults => (next store).run store faults
  | .step durable _ next, store, [] => next.run (durable.effect store) []
  | .step durable _ next, store, .run :: faults => next.run (durable.effect store) faults
  | .step durable _ _, store, .crash progress :: _ => .crash (progress.land durable store)
  | .step durable failed _, store, .fail error progress :: faults =>
      (failed error).run (progress.land durable store) faults

/-- The next atomic action of the program on the shared store, undisturbed. -/
def advance : Program σ τ ε α → σ → Option (Program σ τ ε α × σ)
  | .ret _, _ => none
  | .raise _, _ => none
  | .read next, store => some (next store, store)
  | .step durable _ next, store => some (next, durable.effect store)

@[simp] theorem bind_eq (first : Program σ τ ε α) (next : α → Program σ τ ε β) :
    first >>= next = first.bind next := rfl

@[simp] theorem pure_eq (value : α) : (pure value : Program σ τ ε α) = .ret value := rfl

@[simp] theorem run_ret (value : α) (store : σ) (faults : List (Fault τ ε)) :
    (ret value : Program σ τ ε α).run store faults = .ok value store faults := rfl

@[simp] theorem run_raise (error : ε) (store : σ) (faults : List (Fault τ ε)) :
    (raise error : Program σ τ ε α).run store faults = .error error store faults := rfl

@[simp] theorem run_read (next : σ → Program σ τ ε α) (store : σ) (faults : List (Fault τ ε)) :
    (read next).run store faults = (next store).run store faults := rfl

theorem forEach_map {γ : Type} (body : α → Program σ τ ε Unit) (make : γ → α) (items : List γ) :
    forEach body (items.map make) = forEach (fun item => body (make item)) items := by
  induction items with
  | nil => rfl
  | cons item rest ih =>
    unfold List.map forEach
    rw [ih]

theorem run_bind (first : Program σ τ ε α) (next : α → Program σ τ ε β) (store : σ)
    (faults : List (Fault τ ε)) :
    (first.bind next).run store faults =
      match first.run store faults with
      | .ok value after rest => (next value).run after rest
      | .error error after rest => .error error after rest
      | .crash after => .crash after := by
  induction first generalizing store faults with
  | ret value => rfl
  | raise error => rfl
  | read first ih => exact ih store store faults
  | step durable failed first failedIh firstIh =>
    match faults with
    | [] => exact firstIh _ _
    | .run :: rest => exact firstIh _ _
    | .crash progress :: rest => rfl
    | .fail error progress :: rest => exact failedIh error _ _

theorem store_bind_ret (first : Program σ τ ε α) (result : α → β) (store : σ) (faults : List (Fault τ ε)) :
    ((first.bind fun value => .ret (result value)).run store faults).store = (first.run store faults).store := by
  rw [run_bind]
  cases first.run store faults <;> rfl

theorem run_handle (body : Program σ τ ε α) (handler : ε → Program σ τ ε α) (store : σ)
    (faults : List (Fault τ ε)) :
    (body.handle handler).run store faults =
      match body.run store faults with
      | .ok value after rest => .ok value after rest
      | .error error after rest => (handler error).run after rest
      | .crash after => .crash after := by
  induction body generalizing store faults with
  | ret value => rfl
  | raise error => rfl
  | read first ih => exact ih store store faults
  | step durable failed first failedIh firstIh =>
    match faults with
    | [] => exact firstIh _ _
    | .run :: rest => exact firstIh _ _
    | .crash progress :: rest => rfl
    | .fail error progress :: rest => exact failedIh error _ _

theorem run_attempt (body : Program σ τ ε α) (next : α → Program σ τ ε β) (failed : ε → Program σ τ ε β) (store : σ)
    (faults : List (Fault τ ε)) :
    (body.attempt next failed).run store faults =
      match body.run store faults with
      | .ok value after rest => (next value).run after rest
      | .error error after rest => (failed error).run after rest
      | .crash after => .crash after := by
  induction body generalizing store faults with
  | ret value => rfl
  | raise error => rfl
  | read first ih => exact ih store store faults
  | step durable caught first caughtIh firstIh =>
    match faults with
    | [] => exact firstIh _ _
    | .run :: rest => exact firstIh _ _
    | .crash progress :: rest => rfl
    | .fail error progress :: rest => exact caughtIh error _ _

theorem run_cleanup (body : Program σ τ ε α) (last : Program σ τ ε Unit) (store : σ)
    (faults : List (Fault τ ε)) :
    (body.cleanup last).run store faults =
      match body.run store faults with
      | .ok value after rest => (last.bind fun _ => .ret value).run after rest
      | .error error after rest => (last.bind fun _ => .raise error).run after rest
      | .crash after => .crash after := by
  induction body generalizing store faults with
  | ret value => rfl
  | raise error => rfl
  | read first ih => exact ih store store faults
  | step durable failed first failedIh firstIh =>
    match faults with
    | [] => exact firstIh _ _
    | .run :: rest => exact firstIh _ _
    | .crash progress :: rest => rfl
    | .fail error progress :: rest => exact failedIh error _ _

theorem run_undisturbed (program : Program σ τ ε α) (store : σ) :
    (∃ value after, program.run store [] = .ok value after []) ∨
      ∃ error after, program.run store [] = .error error after [] := by
  induction program generalizing store with
  | ret value => exact .inl ⟨value, store, rfl⟩
  | raise error => exact .inr ⟨error, store, rfl⟩
  | read next ih => exact ih store store
  | step durable failed next _ ih => exact ih _

end Program
end Workctx.Durable
