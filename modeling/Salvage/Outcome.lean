import Salvage.Error

/-!
# Outcomes and actions

An action reads and changes a state and ends in one of three ways: it is done with a value, it fails
with an error, or it is aborted, because a total left the range of 64 bits or a promise of the
caller was broken. The state is there after each of them, so what a failed action leaves behind can
be said. Actions form a monad in which nothing runs after a failure or an abort.
-/

namespace Salvage

/-- How an action ends. -/
inductive Outcome (α : Type) where
  | done (value : α)
  | failed (error : Error)
  | aborted
  deriving DecidableEq, Repr

/-- A computation on a state of type `σ` that returns a value of type `α`. -/
def Action (σ α : Type) : Type :=
  σ → Outcome α × σ

namespace Outcome

variable {α β : Type}

/-- Changes the value of an outcome. -/
def map (f : α → β) : Outcome α → Outcome β
  | .done a => .done (f a)
  | .failed e => .failed e
  | .aborted => .aborted

/-- Wraps the error of an outcome into a context. -/
def context (text : String) : Outcome α → Outcome α
  | .failed e => .failed (.context text e)
  | o => o

/-- The outcome is a value. -/
def isDone : Outcome α → Bool
  | .done _ => true
  | _ => false

/-- The outcome of a computation that cannot be aborted. -/
def ofExcept : Except Error α → Outcome α
  | .ok a => .done a
  | .error e => .failed e

end Outcome

namespace Action

variable {σ τ α β : Type}

/-- Returns a value and leaves the state alone. -/
def pure (a : α) : Action σ α :=
  fun s => (.done a, s)

/-- Runs an action and, if it is done, the next one on the state it left. -/
def bind (x : Action σ α) (f : α → Action σ β) : Action σ β := fun s =>
  match x s with
  | (.done a, s) => f a s
  | (.failed e, s) => (.failed e, s)
  | (.aborted, s) => (.aborted, s)

instance : Monad (Action σ) where
  pure := Action.pure
  bind := Action.bind

/-- Fails with an error. -/
def fail (e : Error) : Action σ α :=
  fun s => (.failed e, s)

/-- Is aborted. -/
def abort : Action σ α :=
  fun s => (.aborted, s)

/-- Returns the state. -/
def get : Action σ σ :=
  fun s => (.done s, s)

/-- Replaces the state. -/
def set (s : σ) : Action σ Unit :=
  fun _ => (.done (), s)

/-- Changes the state. -/
def modify (f : σ → σ) : Action σ Unit :=
  fun s => (.done (), f s)

/-- Ends with a given outcome. -/
def ofOutcome (o : Outcome α) : Action σ α :=
  fun s => (o, s)

/-- Returns a value that may be out of range, and is aborted when it is. -/
def orAbort : Option α → Action σ α
  | some a => Action.pure a
  | none => abort

/-- Wraps the error of an action into a context. -/
def context (text : String) (x : Action σ α) : Action σ α := fun s =>
  ((x s).1.context text, (x s).2)

/-- Returns how an action ended, whatever that is. -/
def attempt (x : Action σ α) : Action σ (Outcome α) := fun s =>
  (.done (x s).1, (x s).2)

/-- Runs an action on a part of the state. -/
def on (part : σ → τ) (put : τ → σ → σ) (x : Action τ α) : Action σ α := fun s =>
  ((x (part s)).1, put (x (part s)).2 s)

/-- Runs an action for each element of a list, in order, and returns the results. -/
def each (f : α → Action σ β) : List α → Action σ (List β)
  | [] => Action.pure []
  | a :: as => Action.bind (f a) fun b => Action.bind (each f as) fun bs => Action.pure (b :: bs)

end Action

end Salvage
