import Salvage.Transaction

/-!
# Guarded attempts

Candidates are tried one after another under a savepoint. An attempt that fails in a way that allows
another one is undone by going back to the savepoint, so it leaves no trace; the last candidate and
every other failure end the search with their error.
-/

namespace Salvage

/-- The name of the savepoint for a node id: of its characters, only those of an identifier stay. -/
def savepointName (nodeId : String) : String :=
  String.ofList (nodeId.toList.filter fun c => c.isAlphanum || c == '_') ++ "_svpt"

/-- An attempt that succeeded. -/
structure Guarded (α : Type) where
  value : α
  /-- The candidate that succeeded. -/
  candidate : String
  /-- How many candidates were tried. -/
  attempts : Nat
  deriving DecidableEq, Repr

namespace Transaction

variable {α : Type}

/-- Tries candidates under a savepoint that is there already, after some attempts that failed. -/
def tryEach (savepoint : String) (retryable : Error → Bool)
    (attempt : String → Action Transaction α) :
    Nat → List String → Action Transaction (Guarded α)
  | tried, [] => Action.fail (.retriesExhausted s!"savepoint {savepoint}" 0 tried)
  | tried, candidate :: rest => do
    match ← (attempt candidate).attempt with
    | .done value =>
      release savepoint
      return ⟨value, candidate, tried + 1⟩
    | .failed e =>
      if retryable e && !rest.isEmpty then do
        rollbackTo savepoint
        tryEach savepoint retryable attempt (tried + 1) rest
      else Action.fail e
    | .aborted => Action.abort

/-- Tries at most `limit` candidates under a savepoint. -/
def guarded (savepoint : String) (limit : Nat) (retryable : Error → Bool)
    (candidates : List String) (attempt : String → Action Transaction α) :
    Action Transaction (Guarded α) := do
  Transaction.savepoint savepoint
  tryEach savepoint retryable attempt 0 (candidates.take limit)

end Transaction

end Salvage
