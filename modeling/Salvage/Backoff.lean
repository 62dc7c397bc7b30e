/-!
# Backoff

How long to wait before a retry: a base delay once per retry made so far, plus a jitter. Delays are
counted in milliseconds, and one of more than `2 ^ 64` seconds is not formed.
-/

namespace Salvage

/-- When and how often a request is repeated. -/
structure Backoff where
  /-- The base delay in milliseconds. -/
  baseDelay : Nat
  /-- The jitter stays below this many milliseconds; zero means that there is none. -/
  maxJitter : Nat
  /-- How many retries there are at most. -/
  maxAttempts : Nat
  deriving DecidableEq, Repr

namespace Backoff

/-- The backoff of a program that was told nothing else. -/
def standard : Backoff := ⟨1000, 1000, 10⟩

/-- No waiting, and ten retries. -/
def immediate : Backoff := ⟨0, 0, 10⟩

/-- A delay that can be waited for. -/
def inRange (delay : Nat) : Option Nat :=
  if delay < Nat.pow 2 64 * 1000 then some delay else none

/-- The jitter that a random number stands for. -/
def jitter (b : Backoff) (random : Nat) : Nat :=
  if b.maxJitter = 0 then 0 else random % b.maxJitter

/-- The delay before a retry, counted from one. -/
def delay? (b : Backoff) (retry random : Nat) : Option Nat := do
  let linear ← inRange (b.baseDelay * retry)
  inRange (linear + b.jitter random)

end Backoff

end Salvage
