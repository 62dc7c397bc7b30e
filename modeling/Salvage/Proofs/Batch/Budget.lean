import Mathlib.Algebra.Ring.Nat
import Salvage.Rehearsal
import Salvage.Proofs.Batch.Halting

/-!
# Retries are counted

The retries of a chunk start from zero, whatever the chunk before it took. A chunk is given up by the
first reply that leaves something when all retries are made, which is one reply more than there are
retries. A run that is not done made no request behind the one at which it stopped: only its last
request has no reply or leaves something for good. Nothing is assumed about what the operation leaves,
not even that it was asked for.
-/

namespace Salvage.Batch

open List (Forall₂)

variable {σ ι ο : Type} {op : Operation σ ι ο} {b : Backoff} {random : Nat → Nat}

/-- No request fails by itself as one does that has no retries left. -/
def Operation.NeverExhausted (op : Operation σ ι ο) : Prop :=
  ∀ items s name remaining attempts s',
    op.submit items s ≠ (.failed (.retriesExhausted name remaining attempts), s')

/-- The milliseconds slept between the requests for a chunk when there is no jitter: once the base delay
before the first retry, twice before the second, and so on. -/
def sleptFor (b : Backoff) (round : List (Exchange ι ο)) : Nat :=
  b.baseDelay * (List.range' 1 (round.length - 1)).sum

/-- A run that came to an outcome after some rounds of requests stopped at the first failure. -/
structure StopsInTime (op : Operation σ ι ο) (b : Backoff) (outcome : Outcome (List ο))
    (rounds : List (List (Exchange ι ο))) : Prop where
  /-- Retries run out when a chunk has used them up, and at no other time. -/
  exhausted : (∃ name remaining attempts,
      outcome = .failed (.retriesExhausted name remaining attempts)) ↔
    ∃ round ∈ rounds, UsedUp b.maxAttempts round
  /-- The report is on the last reply of all. -/
  reported : ∀ round ∈ rounds, UsedUp b.maxAttempts round →
    ∃ last, rounds.flatten.getLast? = some last ∧
      outcome = .failed (.retriesExhausted op.name last.left.length b.maxAttempts)
  /-- The error of a request is the error of the run. -/
  failed : ∀ e ∈ rounds.flatten, ∀ error, e.outcome = .failed error → outcome = .failed error
  /-- Nothing follows a request without a reply. -/
  replied : ∀ e ∈ rounds.flatten.dropLast, ∃ reply, e.outcome = .done reply
  /-- Nothing follows a chunk that is given up. -/
  drained : ∀ round ∈ rounds.dropLast, ¬ UsedUp b.maxAttempts round
  /-- Nothing else stops a run. -/
  done : (∀ e ∈ rounds.flatten, ∃ reply, e.outcome = .done reply) →
    (∀ round ∈ rounds, ¬ UsedUp b.maxAttempts round) → outcome.isDone

/-- A run that slept for some milliseconds kept to its budget, and stopped at the first failure. -/
structure WithinBudget (op : Operation σ ι ο) (b : Backoff) (items : List ι)
    (outcome : Outcome (List ο)) (slept : Nat) (rounds : List (List (Exchange ι ο))) : Prop
    extends StopsInTime op b outcome rounds where
  /-- There is a round for each of the first chunks. -/
  sent : Forall₂ IsRound ((chunks op.limit items).take rounds.length) rounds
  /-- There are as many requests as chunks and their retries at most. -/
  length : rounds.flatten.length ≤
    (items.length + (max op.limit 1 - 1)) / max op.limit 1 * (b.maxAttempts + 1)
  /-- Retries are all that is waited for. -/
  slept : b.maxJitter = 0 → slept = (rounds.map (sleptFor b)).sum

/-! ## Counting and waiting -/

variable {items : List ι} {c : Clocked σ} {n slept : Nat} {round : List (Exchange ι ο)}
  {rounds : List (List (Exchange ι ο))} {parts : List (List ι)} {outcome : Outcome (List ο)}

/-- A run makes as many requests as its chunks and their retries at most. -/
theorem Runs.length_le (h : Runs op b random parts rounds outcome slept) :
    rounds.flatten.length ≤ parts.length * (b.maxAttempts + 1) := by
  induction h with
  | nil => exact Nat.zero_le _
  | stopped hchunk =>
    rw [List.flatten_singleton, List.length_cons, Nat.add_mul, Nat.one_mul]
    exact hchunk.length_round.2.trans (Nat.le_add_left _ _)
  | cons hchunk _ ih =>
    rw [List.flatten_cons, List.length_append, List.length_cons, Nat.add_mul, Nat.one_mul,
      Nat.add_comm]
    exact Nat.add_le_add ih hchunk.length_round.2

/-- Without jitter a delay is the base delay once per retry. -/
theorem delay_of_no_jitter {retry delay random : Nat} (hjitter : b.maxJitter = 0)
    (h : b.delay? retry random = some delay) : delay = b.baseDelay * retry := by
  simp only [Backoff.delay?, Backoff.inRange, Backoff.jitter, hjitter, if_true, Nat.add_zero,
    Option.bind_eq_bind, Option.bind_eq_some_iff, Option.ite_none_right_eq_some,
    Option.some.injEq] at h
  obtain ⟨_, ⟨-, rfl⟩, -, rfl⟩ := h
  rfl

/-- The delays between the requests for a chunk go on from the retries made before. -/
theorem Drains.slept_eq (hjitter : b.maxJitter = 0) (hn : n ≤ b.maxAttempts)
    (h : Drains op b random n items round outcome slept) :
    slept = b.baseDelay * (List.range' (b.maxAttempts - n + 1) (round.length - 1)).sum := by
  induction h with
  | ended | spent | aborted => rfl
  | @again n delay slept e round outcome _ _ hdelay hrest ih =>
    obtain ⟨k, hk⟩ : ∃ k, round.length = k + 1 :=
      ⟨round.length - 1, (Nat.sub_add_cancel hrest.length_round.1).symm⟩
    have hstart : b.maxAttempts - (n + 1) + 1 = b.maxAttempts - n := by omega
    rw [ih (by omega), delay_of_no_jitter hjitter hdelay, hstart, List.length_cons, hk,
      Nat.add_sub_cancel, Nat.add_sub_cancel, List.range'_succ, List.sum_cons, Nat.mul_add]

/-- A run sleeps for each of its chunks on its own. -/
theorem Runs.slept_eq (h : Runs op b random parts rounds outcome slept) (hjitter : b.maxJitter = 0) :
    slept = (rounds.map (sleptFor b)).sum := by
  have hround {part : List ι} {round : List (Exchange ι ο)} {outcome : Outcome (List ο)}
      {slept : Nat} (h : Drains op b random b.maxAttempts part round outcome slept) :
      slept = sleptFor b round := by
    have hslept := h.slept_eq hjitter (Nat.le_refl _)
    rwa [Nat.sub_self] at hslept
  induction h with
  | nil => rfl
  | stopped hchunk =>
    rw [hround hchunk]
    simp
  | cons hchunk _ ih => rw [hround hchunk, ih, List.map_cons, List.sum_cons]

/-! ## Retries run out -/

/-- A run that fails for want of retries has used up those of a chunk. -/
theorem Runs.exists_usedUp (hop : op.NeverExhausted)
    (h : Runs op b random parts rounds outcome slept) {name : String} {remaining attempts : Nat}
    (hfailed : outcome = .failed (.retriesExhausted name remaining attempts)) :
    ∃ round ∈ rounds, UsedUp b.maxAttempts round := by
  have hstop : outcome.isDone = false := by rw [hfailed]; rfl
  obtain ⟨before, part, round, slept', rfl, -, hdrains⟩ := h.stops hstop
  refine ⟨round, by simp, ?_⟩
  rcases hdrains.stops hstop with hstops | ⟨haborted, -⟩
  · cases hstops with
    | @refused front last outputs hfront hlast =>
      obtain ⟨s, s', hsubmit⟩ := hdrains.makes last (by simp)
      rw [Outcome.map_eq_failed.1 hfailed] at hsubmit
      exact absurd hsubmit (hop _ _ _ _ _ _)
    | @spent front last hfront hlast hcount =>
      refine ⟨?_, List.forall_mem_append.2 ⟨hfront, List.forall_mem_singleton.2 hlast⟩⟩
      rw [List.length_append, hcount, List.length_singleton]
  · rw [haborted] at hfailed
    cases hfailed

/-- However a run goes, it stops at the first failure. -/
theorem Runs.stopsInTime (hb : b.InRange random) (hop : op.NeverExhausted)
    (h : Runs op b random parts rounds outcome slept) : StopsInTime op b outcome rounds := by
  have hhalts := h.halts
  refine ⟨⟨?_, ?_⟩, ?_, hhalts.failed, hhalts.replied, hhalts.drained, hhalts.done hb⟩
  · rintro ⟨name, remaining, attempts, hfailed⟩
    exact h.exists_usedUp hop hfailed
  · rintro ⟨round, hround, hused⟩
    obtain ⟨last, -, -, hfailed⟩ := hhalts.exhausted hb.count round hround hused
    exact ⟨_, _, _, hfailed⟩
  · intro round hround hused
    obtain ⟨last, -, hlast, hfailed⟩ := hhalts.exhausted hb.count round hround hused
    exact ⟨last, hlast, hfailed⟩

/-- A run ends within its budget of requests. It fails for want of retries exactly when some chunk has
used them up, and with the error of a request when there is one; then that request was the last. Without
jitter it sleeps as long as the retries of its chunks make it. -/
theorem run_withinBudget (hb : b.InRange random) (hop : op.NeverExhausted) (items : List ι)
    (c : Clocked σ) :
    ∃ rounds slept, requests op b random items c = rounds.flatten ∧
      (run op b random items c).2.slept = c.slept + slept ∧
      WithinBudget op b items (run op b random items c).1 slept rounds := by
  obtain ⟨rounds, slept, hruns, hrequests, hslept⟩ := runs_requests op b random items c
  refine ⟨rounds, slept, hrequests, hslept, hruns.stopsInTime hb hop, ?_, ?_, hruns.slept_eq⟩
  · refine hruns.drains.imp ?_
    rintro _ _ ⟨_, _, hchunk⟩
    exact hchunk.isRound
  · rw [← length_chunks]
    exact hruns.length_le

/-- A script knows no request that runs out of retries. -/
theorem neverExhausted_script (limit : Nat) : (Script.operation (ι := ι) limit).NeverExhausted := by
  intro items s name remaining attempts s' h
  rcases hline : s.lines.head? with _ | text | n <;>
    simp only [Script.operation, Action.get_bind_apply, hline] at h <;> cases h

/-- The second chunk is given up after one retry, with one of its items left, and the third one is not
sent. -/
theorem run_withinBudget_spent :
    ∃ rounds slept,
      requests (Script.operation 2) ⟨10, 0, 1⟩ (fun _ => 0) [1, 2, 3, 4, 5]
        ⟨⟨[.leave 0, .leave 1, .leave 1], []⟩, 7⟩ = rounds.flatten ∧
      17 = 7 + slept ∧
      WithinBudget (Script.operation 2) ⟨10, 0, 1⟩ [1, 2, 3, 4, 5]
        (.failed (.retriesExhausted "scripted" 1 1)) slept rounds := by
  refine run_withinBudget ⟨by decide, fun retry hlower hupper => ?_⟩ (neverExhausted_script 2)
    [1, 2, 3, 4, 5] ⟨⟨[.leave 0, .leave 1, .leave 1], []⟩, 7⟩
  obtain rfl : retry = 1 := Nat.le_antisymm hupper hlower
  rfl

end Salvage.Batch
