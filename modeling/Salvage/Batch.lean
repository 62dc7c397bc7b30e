import Salvage.Outcome
import Salvage.Backoff

/-!
# Batches

A provider takes a limited number of items per request and may leave some of them unprocessed. A run
cuts its items into chunks of that size and sends one chunk after another, each again and again with
what is left of it, until nothing is left or the retries are used up. A request that fails ends the
run.
-/

namespace Salvage.Batch

/-- What a provider answers to a request. -/
structure Reply (ι ο : Type) where
  output : ο
  /-- The items that the provider did not get to. -/
  unprocessed : List ι
  deriving Repr

/-- A kind of request on a state of type `σ`, with items of type `ι` and outputs of type `ο`. -/
structure Operation (σ ι ο : Type) where
  name : String
  /-- The greatest number of items of one request. -/
  limit : Nat
  submit : List ι → Action σ (Reply ι ο)

/-- A state together with the milliseconds slept so far. -/
structure Clocked (σ : Type) where
  world : σ
  slept : Nat
  deriving Repr

variable {σ ι ο : Type}

/-- An action on the state below the clock. -/
def onWorld {α : Type} (x : Action σ α) : Action (Clocked σ) α :=
  x.on Clocked.world fun w c => { c with world := w }

/-- Waits before a retry. -/
def wait (b : Backoff) (random : Nat → Nat) (retry : Nat) : Action (Clocked σ) Unit := do
  let delay ← Action.orAbort (b.delay? retry (random retry))
  Action.modify fun c => { c with slept := c.slept + delay }

/-- Ends a chunk of which some items are left when no retry is. The count of replies is one of 32
bits. -/
def giveUp {α : Type} (op : Operation σ ι ο) (b : Backoff) (items : List ι) :
    Action (Clocked σ) α :=
  if b.maxAttempts + 1 < Nat.pow 2 32 then
    Action.fail (.retriesExhausted op.name items.length b.maxAttempts)
  else Action.abort

/-- Sends a chunk until nothing is left of it, with a number of retries left, and returns the
outputs of its requests. -/
def drain (op : Operation σ ι ο) (b : Backoff) (random : Nat → Nat) :
    Nat → List ι → Action (Clocked σ) (List ο)
  | retriesLeft, items => do
    let reply ← onWorld (op.submit items)
    if reply.unprocessed.isEmpty then return [reply.output]
    else
      match retriesLeft with
      | 0 => giveUp op b reply.unprocessed
      | n + 1 => do
        wait b random (b.maxAttempts - n)
        let outputs ← drain op b random n reply.unprocessed
        return reply.output :: outputs

/-- Cuts a list into a first part of at most `room` elements and chunks of `limit` elements. -/
def cut (limit : Nat) : Nat → List ι → List ι × List (List ι)
  | _, [] => ([], [])
  | 0, a :: as =>
    let (part, chunks) := cut limit (limit - 1) as
    ([], (a :: part) :: chunks)
  | room + 1, a :: as =>
    let (part, chunks) := cut limit room as
    (a :: part, chunks)

/-- Cuts a list into chunks of at most `limit` elements, or of one if the limit is zero. -/
def chunks (limit : Nat) (items : List ι) : List (List ι) :=
  (cut limit 0 items).2

/-- Runs an operation over any number of items and returns the outputs of all requests, in order. -/
def run (op : Operation σ ι ο) (b : Backoff) (random : Nat → Nat) (items : List ι) :
    Action (Clocked σ) (List ο) := do
  let outputs ← Action.each (drain op b random b.maxAttempts) (chunks op.limit items)
  return outputs.flatten

/-- An action without its clock. -/
def unclocked {α : Type} (x : Action (Clocked σ) α) : Action σ α := fun s =>
  let r := x ⟨s, 0⟩
  (r.1, r.2.world)

/-- Cutting a list loses nothing and changes no order. -/
theorem flatten_cut (limit room : Nat) (items : List ι) :
    (cut limit room items).1 ++ (cut limit room items).2.flatten = items := by
  induction items generalizing room with
  | nil => simp [cut]
  | cons a as ih =>
    cases room with
    | zero => simpa [cut] using ih (limit - 1)
    | succ room => simpa [cut] using ih room

end Salvage.Batch
