import Salvage.Proofs.Batch.Requests

/-!
# Where a run stops

A run stops at a request that has no reply, at a reply that leaves something when all retries of its chunk
are made, or when nothing is left to send. Which of these it was can be told from the last of its requests,
since every request before had a reply and what it left was sent again. Only a count or a delay that is
out of range stops a run for a reason of its own.
-/

namespace Salvage.Batch

variable {σ ι ο : Type} {op : Operation σ ι ο} {b : Backoff} {random : Nat → Nat}

/-- The requests for a chunk had one reply more than a number of retries, and each left something. -/
def UsedUp (retries : Nat) (round : List (Exchange ι ο)) : Prop :=
  round.length = retries + 1 ∧ ∀ e ∈ round, e.left ≠ []

/-- A run that came to an outcome after some rounds of requests stopped where it had to. -/
structure Halts (op : Operation σ ι ο) (b : Backoff) (random : Nat → Nat) (outcome : Outcome (List ο))
    (rounds : List (List (Exchange ι ο))) : Prop where
  /-- The error of a request is the error of the run. -/
  failed : ∀ e ∈ rounds.flatten, ∀ error, e.outcome = .failed error → outcome = .failed error
  /-- Nothing follows a request without a reply. -/
  replied : ∀ e ∈ rounds.flatten.dropLast, ∃ reply, e.outcome = .done reply
  /-- A chunk that has used up its retries is given up, with a report on the last reply of all. -/
  exhausted : b.maxAttempts + 1 < Nat.pow 2 32 → ∀ round ∈ rounds, UsedUp b.maxAttempts round →
    ∃ last ∈ round, rounds.flatten.getLast? = some last ∧
      outcome = .failed (.retriesExhausted op.name last.left.length b.maxAttempts)
  /-- Nothing follows a chunk that is given up. -/
  drained : ∀ round ∈ rounds.dropLast, ¬ UsedUp b.maxAttempts round
  /-- Nothing else stops a run whose counts and delays are in range. -/
  done : b.InRange random → (∀ e ∈ rounds.flatten, ∃ reply, e.outcome = .done reply) →
    (∀ round ∈ rounds, ¬ UsedUp b.maxAttempts round) → outcome.isDone

variable {items : List ι} {n slept : Nat} {round : List (Exchange ι ο)}
  {rounds : List (List (Exchange ι ο))} {parts : List (List ι)} {outcome : Outcome (List ο)}

/-- A chunk that was answered has not used up its retries. -/
theorem Answered.not_usedUp (h : Answered round) : ¬ UsedUp n round := by
  obtain ⟨e, he, hnone⟩ := h.whole
  exact fun hused => hused.2 e he hnone

/-- A request with a reply has not failed. -/
theorem Exchange.not_failed {e : Exchange ι ο} (h : ∃ reply, e.outcome = .done reply)
    (error : Error) : e.outcome ≠ .failed error := by
  obtain ⟨reply, hreply⟩ := h
  rw [hreply]
  nofun

/-- A request that leaves items has not failed. -/
theorem Exchange.replied_of_left {e : Exchange ι ο} (h : e.left ≠ []) :
    ∃ reply, e.outcome = .done reply := by
  obtain ⟨reply, hreply, -⟩ := Exchange.exists_reply_of_left h
  exact ⟨reply, hreply⟩

/-! ## How a chunk stops -/

/-- How the requests for a chunk stop before everything is done: all but the last one leave something
that is sent again. -/
inductive Stops (name : String) (b : Backoff) (n : Nat) :
    List (Exchange ι ο) → Outcome (List ο) → Prop where
  /-- The last request has no reply. -/
  | refused {front : List (Exchange ι ο)} {last : Exchange ι ο} {outputs : List ο}
    (hfront : ∀ e ∈ front, e.left ≠ []) (hlast : last.outcome.isDone = false) :
    Stops name b n (front ++ [last]) (last.outcome.map fun _ => outputs)
  /-- The last reply leaves something when no retry is left. -/
  | spent {front : List (Exchange ι ο)} {last : Exchange ι ο}
    (hfront : ∀ e ∈ front, e.left ≠ []) (hlast : last.left ≠ []) (hcount : front.length = n) :
    Stops name b n (front ++ [last])
      (.failed (.retriesExhausted name last.left.length b.maxAttempts))

/-- A request that leaves something may go before. -/
theorem Stops.again {name : String} {e : Exchange ι ο} (hleft : e.left ≠ [])
    (h : Stops name b n round outcome) : Stops name b (n + 1) (e :: round) outcome := by
  cases h with
  | refused hfront hlast => exact .refused (List.forall_mem_cons.2 ⟨hleft, hfront⟩) hlast
  | spent hfront hlast hcount =>
    exact .spent (List.forall_mem_cons.2 ⟨hleft, hfront⟩) hlast (congrArg (· + 1) hcount)

/-- A chunk that is not drained stops in one of these ways, or is aborted for a count or a delay that is
out of range. -/
theorem Drains.stops (h : Drains op b random n items round outcome slept)
    (hstop : outcome.isDone = false) :
    Stops op.name b n round outcome ∨
      outcome = .aborted ∧ (∀ e ∈ round, e.left ≠ []) ∧ ¬ b.InRange random := by
  have hfront : ∀ e ∈ ([] : List (Exchange ι ο)), e.left ≠ [] := by simp
  induction h with
  | ended =>
    rw [Outcome.isDone_map] at hstop
    exact .inl (.refused hfront hstop)
  | spent _ hleft => exact .inl (.spent hfront hleft rfl)
  | aborted _ hleft hrange => exact .inr ⟨rfl, List.forall_mem_singleton.2 hleft, hrange⟩
  | again _ hleft _ _ ih =>
    rw [Outcome.isDone_map] at hstop
    rw [Outcome.map_eq_self hstop]
    rcases ih hstop with hstops | ⟨haborted, hothers, hrange⟩
    · exact .inl (hstops.again hleft)
    · exact .inr ⟨haborted, List.forall_mem_cons.2 ⟨hleft, hothers⟩, hrange⟩

/-- A chunk that was sent with all of its retries has waited before each of them. -/
theorem Drains.delays (hn : n ≤ b.maxAttempts)
    (h : Drains op b random n items round outcome slept) (hlength : round.length = n + 1)
    (retry : Nat) (hlower : b.maxAttempts - n < retry) (hupper : retry ≤ b.maxAttempts) :
    (b.delay? retry (random retry)).isSome := by
  induction h with
  | ended | spent | aborted =>
    rw [List.length_singleton] at hlength
    omega
  | @again n delay _ _ round _ _ _ hdelay _ ih =>
    rw [List.length_cons] at hlength
    by_cases hfirst : retry = b.maxAttempts - n
    · rw [hfirst, hdelay]
      rfl
    · exact ih (by omega) (by omega) (by omega)

/-- A chunk that has used up its retries is out of range at most for their count. -/
theorem Drains.inRange_of_usedUp
    (h : Drains op b random b.maxAttempts items round outcome slept)
    (hused : UsedUp b.maxAttempts round) (hcount : b.maxAttempts + 1 < Nat.pow 2 32) :
    b.InRange random := by
  refine ⟨hcount, fun retry hlower hupper => ?_⟩
  exact h.delays (Nat.le_refl _) hused.1 retry (by omega) hupper

/-! ## How a run stops -/

/-- A run that is not done stops at the last of its rounds, and those before were answered. -/
theorem Runs.stops (h : Runs op b random parts rounds outcome slept)
    (hstop : outcome.isDone = false) :
    ∃ before part round slept', rounds = before ++ [round] ∧ (∀ other ∈ before, Answered other) ∧
      Drains op b random b.maxAttempts part round outcome slept' := by
  induction h with
  | nil => cases hstop
  | stopped hchunk => exact ⟨[], _, _, _, rfl, by simp, hchunk⟩
  | cons hchunk _ ih =>
    rw [Outcome.isDone_map] at hstop
    obtain ⟨before, part, last, slept', rfl, hbefore, hlast⟩ := ih hstop
    rw [Outcome.map_eq_self hstop]
    exact ⟨_ :: before, part, last, slept', rfl,
      List.forall_mem_cons.2 ⟨(hchunk.answered rfl).1, hbefore⟩, hlast⟩

/-- A run that is done never had to stop. -/
theorem Runs.halts_of_done (h : Runs op b random parts rounds outcome slept)
    (hdone : outcome.isDone) : Halts op b random outcome rounds := by
  obtain ⟨-, hanswered, -⟩ := h.answered hdone
  have hreplies := replies_flatten hanswered
  have hnot : ∀ round ∈ rounds, ¬ UsedUp b.maxAttempts round :=
    fun round hround => (hanswered round hround).not_usedUp
  refine ⟨?_, ?_, ?_, ?_, fun _ _ _ => hdone⟩
  · exact fun e he error herror => absurd herror (Exchange.not_failed (hreplies e he) error)
  · exact fun e he => hreplies e (List.dropLast_subset _ he)
  · exact fun _ round hround hused => absurd hused (hnot round hround)
  · exact fun round hround => hnot round (List.dropLast_subset _ hround)

/-- A run that is not done stopped where it had to if its last request says so. -/
theorem halts_of_last {before : List (List (Exchange ι ο))} {front : List (Exchange ι ο)}
    {last : Exchange ι ο} (hbefore : ∀ other ∈ before, Answered other)
    (hfront : ∀ e ∈ front, e.left ≠ [])
    (hfailed : ∀ error, last.outcome = .failed error → outcome = .failed error)
    (hexhausted : b.maxAttempts + 1 < Nat.pow 2 32 → UsedUp b.maxAttempts (front ++ [last]) →
      outcome = .failed (.retriesExhausted op.name last.left.length b.maxAttempts))
    (hdone : b.InRange random → (∃ reply, last.outcome = .done reply) →
      ¬ UsedUp b.maxAttempts (front ++ [last]) → outcome.isDone) :
    Halts op b random outcome (before ++ [front ++ [last]]) := by
  have hflat : (before ++ [front ++ [last]]).flatten = before.flatten ++ front ++ [last] := by simp
  have hreplies : ∀ e ∈ before.flatten ++ front, ∃ reply, e.outcome = .done reply := by
    rw [List.forall_mem_append]
    exact ⟨replies_flatten hbefore, fun e he => Exchange.replied_of_left (hfront e he)⟩
  have hothers : ∀ other ∈ before, ¬ UsedUp b.maxAttempts other :=
    fun other hother => (hbefore other hother).not_usedUp
  refine ⟨?_, ?_, fun hcount => ?_, ?_, fun hb hall hnot => ?_⟩
  · rw [hflat, List.forall_mem_append, List.forall_mem_singleton]
    exact ⟨fun e he error herror => absurd herror (Exchange.not_failed (hreplies e he) error),
      hfailed⟩
  · rwa [hflat, List.dropLast_concat]
  · rw [List.forall_mem_append, List.forall_mem_singleton]
    refine ⟨fun other hother hused => absurd hused (hothers other hother), fun hused => ?_⟩
    refine ⟨last, by simp, ?_, hexhausted hcount hused⟩
    rw [hflat, List.getLast?_concat]
  · rwa [List.dropLast_concat]
  · exact hdone hb (hall last (by simp)) (hnot _ (by simp))

/-- However a run goes, it stops where it has to. -/
theorem Runs.halts (h : Runs op b random parts rounds outcome slept) :
    Halts op b random outcome rounds := by
  cases hdone : outcome.isDone with
  | true => exact h.halts_of_done hdone
  | false =>
    obtain ⟨before, part, round, slept', rfl, hbefore, hdrains⟩ := h.stops hdone
    rcases hdrains.stops hdone with hstops | ⟨rfl, hleft, hrange⟩
    · cases hstops with
      | @refused front last outputs hfront hlast =>
        have hnoReply : ¬ ∃ reply, last.outcome = .done reply := by
          rintro ⟨reply, hreply⟩
          rw [hreply] at hlast
          cases hlast
        refine halts_of_last hbefore hfront ?_ ?_ ?_
        · exact fun error herror => Outcome.map_eq_failed.2 herror
        · exact fun _ hused => absurd (Exchange.replied_of_left (hused.2 last (by simp))) hnoReply
        · exact fun _ hreply _ => absurd hreply hnoReply
      | @spent front last hfront hlast hcount =>
        refine halts_of_last hbefore hfront ?_ (fun _ _ => rfl) ?_
        · exact fun error herror =>
            absurd herror (Exchange.not_failed (Exchange.replied_of_left hlast) error)
        · refine fun _ _ hnot => absurd ⟨?_, ?_⟩ hnot
          · rw [List.length_append, hcount, List.length_singleton]
          · exact List.forall_mem_append.2 ⟨hfront, List.forall_mem_singleton.2 hlast⟩
    · obtain ⟨front, last, rfl⟩ : ∃ front last, round = front ++ [last] := by
        refine ⟨_, _, (List.dropLast_append_getLast (List.length_pos_iff.1 ?_)).symm⟩
        exact hdrains.length_round.1
      obtain ⟨hfront, hlast⟩ := List.forall_mem_append.1 hleft
      refine halts_of_last hbefore hfront ?_ ?_ ?_
      · have hreply := Exchange.replied_of_left (hlast last (List.mem_singleton_self last))
        exact fun error herror => absurd herror (Exchange.not_failed hreply error)
      · exact fun hcount hused => absurd (hdrains.inRange_of_usedUp hused hcount) hrange
      · exact fun hb _ _ => absurd hb hrange

end Salvage.Batch
