import Mathlib.Data.List.Chain
import Salvage.Proofs.Batch
import Salvage.Proofs.Lists

/-!
# The requests of a run

An operation that writes its requests down makes the same run as the operation itself, so the requests
of a run can be read off what it wrote. `Drains` and `Runs` are the only ways in which a chunk is sent
and in which a run goes: which requests there are, how it ends and how long it sleeps. Everything else
about the requests is an induction over these two, and none of it looks at the state again.
-/

namespace Salvage

/-- No retry is counted or waited for out of range. -/
structure Backoff.InRange (b : Backoff) (random : Nat → Nat) : Prop where
  count : b.maxAttempts + 1 < Nat.pow 2 32
  delays : ∀ retry, 1 ≤ retry → retry ≤ b.maxAttempts → (b.delay? retry (random retry)).isSome

namespace Batch

open List (Forall₂)

variable {σ ι ο : Type} {op : Operation σ ι ο} {b : Backoff} {random : Nat → Nat}

/-- A request and what came of it. -/
structure Exchange (ι ο : Type) where
  items : List ι
  outcome : Outcome (Reply ι ο)
  deriving Repr

namespace Exchange

/-- The items that are left by the reply, if there is one. -/
def left (e : Exchange ι ο) : List ι :=
  match e.outcome with
  | .done reply => reply.unprocessed
  | _ => []

/-- The output of the reply, if there is one. -/
def outputs (e : Exchange ι ο) : List ο :=
  match e.outcome with
  | .done reply => [reply.output]
  | _ => []

/-- A request that leaves items has a reply. -/
theorem exists_reply_of_left {e : Exchange ι ο} (h : e.left ≠ []) :
    ∃ reply, e.outcome = .done reply ∧ reply.unprocessed = e.left := by
  rcases e with ⟨items, reply | error | _⟩
  · exact ⟨reply, rfl, rfl⟩
  · exact absurd rfl h
  · exact absurd rfl h

end Exchange

namespace Operation

/-- The operation that writes its requests down. -/
def recorded (op : Operation σ ι ο) : Operation (σ × List (Exchange ι ο)) ι ο where
  name := op.name
  limit := op.limit
  submit items := fun s =>
    ((op.submit items s.1).1,
      ((op.submit items s.1).2, s.2 ++ [⟨items, (op.submit items s.1).1⟩]))

/-- In some state a request comes to what an exchange says. -/
def Makes (op : Operation σ ι ο) (e : Exchange ι ο) : Prop :=
  ∃ s s', op.submit e.items s = (e.outcome, s')

end Operation

/-- The requests that a run makes, in order. -/
def requests (op : Operation σ ι ο) (b : Backoff) (random : Nat → Nat) (items : List ι)
    (c : Clocked σ) : List (Exchange ι ο) :=
  (run op.recorded b random items ⟨(c.world, []), c.slept⟩).2.world.2

/-! ## Runs behind a view -/

section View

variable {τ : Type}

/-- A clock with a view of its world. -/
def viewed (view : σ → τ) (c : Clocked σ) : Clocked τ :=
  ⟨view c.world, c.slept⟩

/-- Waiting does not depend on the world. -/
theorem shows_wait (view : σ → τ) (b : Backoff) (random : Nat → Nat) (retry : Nat) :
    Action.Shows (viewed view) (wait (σ := σ) b random retry) (wait (σ := τ) b random retry) :=
  (Action.shows_orAbort (viewed view) (b.delay? retry (random retry))).bind fun _ _ => rfl

variable {view : σ → τ} {op' : Operation τ ι ο} (hname : op'.name = op.name)
  (hsubmit : ∀ items, Action.Shows view (op.submit items) (op'.submit items))
include hname hsubmit

/-- Draining a chunk goes on behind a view as requests do. -/
theorem shows_drain (b : Backoff) (random : Nat → Nat) (retriesLeft : Nat) (items : List ι) :
    Action.Shows (viewed view) (drain op b random retriesLeft items)
      (drain op' b random retriesLeft items) := by
  have hfirst (items : List ι) : Action.Shows (viewed view) (onWorld (op.submit items))
      (onWorld (op'.submit items)) := by
    intro c
    have hworld := hsubmit items c.world
    exact Prod.ext (congrArg (fun r => r.1) hworld)
      (congrArg (fun r => (⟨r.2, c.slept⟩ : Clocked τ)) hworld)
  induction retriesLeft generalizing items with
  | zero =>
    rw [drain, drain]
    refine (hfirst items).bind fun reply => ?_
    split
    · exact Action.shows_pure (viewed view) _
    · dsimp only
      rw [giveUp, giveUp, hname]
      split <;> exact fun _ => rfl
  | succ n ih =>
    rw [drain, drain]
    refine (hfirst items).bind fun reply => ?_
    split
    · exact Action.shows_pure (viewed view) _
    · exact (shows_wait view b random _).bind fun _ => (ih reply.unprocessed).bind fun _ =>
        Action.shows_pure (viewed view) _

/-- A run goes on behind a view as requests do. -/
theorem shows_run (hlimit : op'.limit = op.limit) (b : Backoff) (random : Nat → Nat)
    (items : List ι) :
    Action.Shows (viewed view) (run op b random items) (run op' b random items) := by
  rw [run, run, hlimit]
  exact (Action.shows_each (shows_drain hname hsubmit b random b.maxAttempts) _).bind fun _ =>
    Action.shows_pure (viewed view) _

end View

/-- Writing requests down changes nothing about a run. -/
theorem shows_run_recorded (op : Operation σ ι ο) (b : Backoff) (random : Nat → Nat)
    (items : List ι) :
    Action.Shows (viewed Prod.fst) (run op.recorded b random items) (run op b random items) := by
  have hsubmit (items : List ι) :
      Action.Shows Prod.fst (op.recorded.submit items) (op.submit items) := fun _ => rfl
  have hname : op.name = op.recorded.name := rfl
  exact shows_run hname hsubmit rfl b random items

/-! ## How a chunk is sent -/

/-- The requests for a chunk when a number of retries is left, with the outcome that they come to and
the milliseconds slept between them. -/
inductive Drains (op : Operation σ ι ο) (b : Backoff) (random : Nat → Nat) :
    Nat → List ι → List (Exchange ι ο) → Outcome (List ο) → Nat → Prop where
  /-- A request that leaves nothing is the last one. -/
  | ended {n : Nat} {e : Exchange ι ο} (hmade : op.Makes e) (hleft : e.left = []) :
    Drains op b random n e.items [e] (e.outcome.map fun _ => e.outputs) 0
  /-- Items are left, and no retry is. -/
  | spent {e : Exchange ι ο} (hmade : op.Makes e) (hleft : e.left ≠ []) :
    Drains op b random 0 e.items [e]
      (.failed (.retriesExhausted op.name e.left.length b.maxAttempts)) 0
  /-- Items are left, and a count or a delay is out of range. -/
  | aborted {n : Nat} {e : Exchange ι ο} (hmade : op.Makes e) (hleft : e.left ≠ [])
    (hrange : ¬ b.InRange random) :
    Drains op b random n e.items [e] .aborted 0
  /-- Items are left, and they are sent again. -/
  | again {n delay slept : Nat} {e : Exchange ι ο} {round : List (Exchange ι ο)}
    {outcome : Outcome (List ο)} (hmade : op.Makes e) (hleft : e.left ≠ [])
    (hdelay : b.delay? (b.maxAttempts - n) (random (b.maxAttempts - n)) = some delay)
    (hrest : Drains op b random n e.left round outcome slept) :
    Drains op b random (n + 1) e.items (e :: round) (outcome.map fun outputs => e.outputs ++ outputs)
      (delay + slept)

variable {items : List ι} {c : Clocked σ} {w : σ}

/-- A chunk of which a request leaves nothing is drained. -/
theorem drain_of_left_nil {o : Outcome (Reply ι ο)} (h : op.submit items c.world = (o, w))
    (hleft : (⟨items, o⟩ : Exchange ι ο).left = []) (n : Nat) :
    drain op b random n items c =
      (o.map fun _ => (⟨items, o⟩ : Exchange ι ο).outputs, { c with world := w }) := by
  have hfirst : onWorld (op.submit items) c = (o, { c with world := w }) := Action.on_apply_of h
  rw [drain.eq_def]
  cases o with
  | failed e => exact Action.bind_of_failed hfirst
  | aborted => exact Action.bind_of_aborted hfirst
  | done reply =>
    have hnone : reply.unprocessed.isEmpty = true := List.isEmpty_iff.2 hleft
    dsimp only
    rw [Action.bind_of_done hfirst]
    simp only [hnone, if_true]
    rfl

/-- What a request leaves of a chunk is given up when no retry is left, and is sent again after a wait
otherwise. -/
theorem drain_of_left_ne_nil {reply : Reply ι ο} (h : op.submit items c.world = (.done reply, w))
    (hleft : reply.unprocessed ≠ []) :
    drain op b random 0 items c = giveUp op b reply.unprocessed { c with world := w } ∧
      ∀ n, drain op b random (n + 1) items c =
        (wait b random (b.maxAttempts - n) >>= fun _ =>
          drain op b random n reply.unprocessed >>= fun outputs =>
            pure (reply.output :: outputs)) { c with world := w } := by
  have hfirst : onWorld (op.submit items) c = (.done reply, { c with world := w }) :=
    Action.on_apply_of h
  have hmore : reply.unprocessed.isEmpty = false := by simpa using hleft
  refine ⟨?_, fun n => ?_⟩
  · rw [drain, Action.bind_of_done hfirst]
    simp only [hmore, Bool.false_eq_true, if_false]
  · rw [drain, Action.bind_of_done hfirst]
    simp only [hmore, Bool.false_eq_true, if_false]

/-- Waiting for a delay adds it to what was slept. -/
theorem wait_of_some {retry delay : Nat} (h : b.delay? retry (random retry) = some delay)
    (c : Clocked σ) :
    wait b random retry c = (.done (), { c with slept := c.slept + delay }) := by
  rw [wait, h]
  rfl

/-- Waiting for a delay that is out of range is aborted. -/
theorem wait_of_none {retry : Nat} (h : b.delay? retry (random retry) = none) (c : Clocked σ) :
    wait b random retry c = (.aborted, c) := by
  rw [wait, h]
  rfl

/-- A request that is written down is one of the operation, and comes to the same. -/
theorem exists_recorded (op : Operation σ ι ο) (items : List ι) (s : σ × List (Exchange ι ο)) :
    ∃ o w, op.Makes ⟨items, o⟩ ∧ op.recorded.submit items s = (o, (w, s.2 ++ [⟨items, o⟩])) :=
  ⟨(op.submit items s.1).1, (op.submit items s.1).2, ⟨s.1, _, rfl⟩, rfl⟩

/-- The requests that a drained chunk writes down are one of the ways to send it. -/
theorem drains_recorded (op : Operation σ ι ο) (b : Backoff) (random : Nat → Nat) {n : Nat}
    (hn : n ≤ b.maxAttempts) (items : List ι) (c : Clocked (σ × List (Exchange ι ο))) :
    ∃ round slept, Drains op b random n items round (drain op.recorded b random n items c).1 slept ∧
      (drain op.recorded b random n items c).2.world.2 = c.world.2 ++ round ∧
      (drain op.recorded b random n items c).2.slept = c.slept + slept := by
  induction n generalizing items c with
  | zero =>
    obtain ⟨o, w, hmade, hrecorded⟩ := exists_recorded op items c.world
    by_cases hleft : (⟨items, o⟩ : Exchange ι ο).left = []
    · rw [drain_of_left_nil hrecorded hleft]
      exact ⟨_, _, .ended hmade hleft, rfl, rfl⟩
    · obtain ⟨reply, rfl, hreply⟩ := Exchange.exists_reply_of_left hleft
      rw [(drain_of_left_ne_nil hrecorded hleft).1, giveUp]
      split
      · exact ⟨_, _, .spent hmade hleft, rfl, rfl⟩
      · rename_i hcount
        exact ⟨_, _, .aborted hmade hleft fun hrange => hcount hrange.count, rfl, rfl⟩
  | succ n ih =>
    obtain ⟨o, w, hmade, hrecorded⟩ := exists_recorded op items c.world
    by_cases hleft : (⟨items, o⟩ : Exchange ι ο).left = []
    · rw [drain_of_left_nil hrecorded hleft]
      exact ⟨_, _, .ended hmade hleft, rfl, rfl⟩
    · obtain ⟨reply, rfl, hreply⟩ := Exchange.exists_reply_of_left hleft
      rw [(drain_of_left_ne_nil hrecorded hleft).2 n]
      cases hdelay : b.delay? (b.maxAttempts - n) (random (b.maxAttempts - n)) with
      | none =>
        rw [Action.bind_of_aborted (wait_of_none hdelay _)]
        refine ⟨_, _, .aborted hmade hleft fun hrange => ?_, rfl, rfl⟩
        have hsome := hrange.delays (b.maxAttempts - n) (by omega) (by omega)
        rw [hdelay] at hsome
        cases hsome
      | some delay =>
        rw [Action.bind_of_done (wait_of_some hdelay _), Action.bind_pure_apply]
        obtain ⟨round, slept, hrest, hlog, hslept⟩ := ih (by omega) reply.unprocessed
          ⟨(w, c.world.2 ++ [⟨items, .done reply⟩]), c.slept + delay⟩
        refine ⟨_, _, .again hmade hleft hdelay hrest, ?_, ?_⟩
        · exact hlog.trans (List.append_assoc _ _ _)
        · exact hslept.trans (Nat.add_assoc _ _ _)

/-! ## How a run goes -/

/-- The requests for some chunks, one round for each chunk, with the outcome that they come to and the
milliseconds slept between them. -/
inductive Runs (op : Operation σ ι ο) (b : Backoff) (random : Nat → Nat) :
    List (List ι) → List (List (Exchange ι ο)) → Outcome (List ο) → Nat → Prop where
  /-- Nothing is left to send. -/
  | nil : Runs op b random [] [] (.done []) 0
  /-- A chunk that is not drained is the last one. -/
  | stopped {chunk : List ι} {chunks : List (List ι)} {round : List (Exchange ι ο)}
    {outcome : Outcome (List ο)} {slept : Nat}
    (hchunk : Drains op b random b.maxAttempts chunk round outcome slept)
    (hstop : outcome.isDone = false) :
    Runs op b random (chunk :: chunks) [round] outcome slept
  /-- After a chunk that is drained come the others. -/
  | cons {chunk : List ι} {chunks : List (List ι)} {round : List (Exchange ι ο)}
    {rounds : List (List (Exchange ι ο))} {outputs : List ο} {outcome : Outcome (List ο)}
    {slept slept' : Nat}
    (hchunk : Drains op b random b.maxAttempts chunk round (.done outputs) slept)
    (hrest : Runs op b random chunks rounds outcome slept') :
    Runs op b random (chunk :: chunks) (round :: rounds)
      (outcome.map fun others => outputs ++ others) (slept + slept')

/-- The requests that chunks sent one after another write down are one of the ways in which a run
goes. -/
theorem runs_each_recorded (op : Operation σ ι ο) (b : Backoff) (random : Nat → Nat)
    (parts : List (List ι)) (c : Clocked (σ × List (Exchange ι ο))) :
    ∃ rounds slept, Runs op b random parts rounds
        ((Action.each (drain op.recorded b random b.maxAttempts) parts c).1.map List.flatten) slept ∧
      (Action.each (drain op.recorded b random b.maxAttempts) parts c).2.world.2 =
        c.world.2 ++ rounds.flatten ∧
      (Action.each (drain op.recorded b random b.maxAttempts) parts c).2.slept =
        c.slept + slept := by
  induction parts generalizing c with
  | nil => exact ⟨[], 0, .nil, (List.append_nil _).symm, rfl⟩
  | cons part parts ih =>
    obtain ⟨round, slept, hchunk, hlog, hslept⟩ :=
      drains_recorded op b random (Nat.le_refl _) part c
    rcases hdrain : drain op.recorded b random b.maxAttempts part c with ⟨outcome, c'⟩
    rw [hdrain] at hchunk hlog hslept
    cases hdone : outcome.isDone with
    | true =>
      obtain ⟨outputs, rfl⟩ := Outcome.exists_of_isDone hdone
      obtain ⟨rounds, slept', hrest, hlog', hslept'⟩ := ih c'
      rw [Action.each_cons_of_done parts hdrain, Outcome.map_map]
      have hruns := Runs.cons hchunk hrest
      rw [Outcome.map_map] at hruns
      refine ⟨round :: rounds, slept + slept', hruns, ?_, ?_⟩
      · rw [hlog', hlog, List.flatten_cons, List.append_assoc]
      · rw [hslept', hslept, Nat.add_assoc]
    | false =>
      rw [Action.each_cons_of_not_done parts hdrain hdone, Outcome.map_map, Outcome.map_eq_self hdone]
      exact ⟨[round], slept, .stopped hchunk hdone, by simpa using hlog, hslept⟩

/-- The requests of a run, its outcome and the time that it slept are one of the ways in which a run
over its chunks goes. -/
theorem runs_requests (op : Operation σ ι ο) (b : Backoff) (random : Nat → Nat) (items : List ι)
    (c : Clocked σ) :
    ∃ rounds slept, Runs op b random (chunks op.limit items) rounds
        (run op b random items c).1 slept ∧
      requests op b random items c = rounds.flatten ∧
      (run op b random items c).2.slept = c.slept + slept := by
  obtain ⟨rounds, slept, hruns, hlog, hslept⟩ :=
    runs_each_recorded op b random (chunks op.limit items) ⟨(c.world, []), c.slept⟩
  have hrecorded : run op.recorded b random items ⟨(c.world, []), c.slept⟩ = _ :=
    Action.bind_pure_apply _ List.flatten _
  have hsame := shows_run_recorded op b random items ⟨(c.world, []), c.slept⟩
  rw [hrecorded] at hsame
  have hrun : run op b random items c = _ := hsame
  refine ⟨rounds, slept, ?_, ?_, ?_⟩
  · rw [hrun]
    exact hruns
  · rw [requests, hrecorded]
    exact hlog
  · rw [hrun]
    exact hslept

/-! ## Rounds -/

/-- The requests for a chunk: the first is for all of it, and each other one is for what the one before
it left, which is not nothing. -/
structure IsRound (chunk : List ι) (round : List (Exchange ι ο)) : Prop where
  first : round.head?.map Exchange.items = some chunk
  next : round.IsChain fun e e' => e.left ≠ [] ∧ e'.items = e.left

/-- The requests of a round that got everything done: all have a reply, and the last one leaves
nothing. -/
structure Answered (round : List (Exchange ι ο)) : Prop where
  replies : ∀ e ∈ round, ∃ reply, e.outcome = .done reply
  whole : ∃ e ∈ round, e.left = []

variable {n slept : Nat} {round : List (Exchange ι ο)} {rounds : List (List (Exchange ι ο))}
  {parts : List (List ι)} {outcome : Outcome (List ο)}

/-- Where all rounds were answered, all requests have a reply. -/
theorem replies_flatten (h : ∀ round ∈ rounds, Answered round) :
    ∀ e ∈ rounds.flatten, ∃ reply, e.outcome = .done reply := by
  intro e he
  obtain ⟨round, hround, hmem⟩ := List.mem_flatten.1 he
  exact (h round hround).replies e hmem

/-- A chunk is sent in a round. -/
theorem Drains.isRound (h : Drains op b random n items round outcome slept) :
    IsRound items round := by
  induction h with
  | ended | spent | aborted => exact ⟨rfl, .singleton _⟩
  | again _ hleft _ _ ih =>
    refine ⟨rfl, List.isChain_cons.2 ⟨fun e' he' => ⟨hleft, ?_⟩, ih.next⟩⟩
    have hfirst := ih.first
    rw [Option.mem_def.1 he'] at hfirst
    exact Option.some.inj hfirst

/-- The requests for a chunk are requests of the operation. -/
theorem Drains.makes (h : Drains op b random n items round outcome slept) :
    ∀ e ∈ round, op.Makes e := by
  induction h with
  | ended hmade | spent hmade | aborted hmade => exact List.forall_mem_singleton.2 hmade
  | again hmade _ _ _ ih => exact List.forall_mem_cons.2 ⟨hmade, ih⟩

/-- What holds of a chunk, and of what each of its requests leaves, holds of what every request is
for. -/
theorem Drains.forall_items {P : List ι → Prop}
    (h : Drains op b random n items round outcome slept) (hitems : P items)
    (hkept : ∀ e ∈ round, op.Makes e → e.left ≠ [] → P e.items → P e.left) :
    ∀ e ∈ round, P e.items := by
  induction h with
  | ended | spent | aborted => exact List.forall_mem_singleton.2 hitems
  | again hmade hleft _ _ ih =>
    obtain ⟨hfirst, hothers⟩ := List.forall_mem_cons.1 hkept
    exact List.forall_mem_cons.2 ⟨hitems, ih (hfirst hmade hleft hitems) hothers⟩

/-- There is a first request for a chunk, and one more at most for each retry. -/
theorem Drains.length_round (h : Drains op b random n items round outcome slept) :
    1 ≤ round.length ∧ round.length ≤ n + 1 := by
  induction h with
  | ended | spent | aborted => simp
  | again _ _ _ _ ih =>
    rw [List.length_cons]
    omega

/-- A chunk that is drained was answered, and the outputs are those of its requests in order. -/
theorem Drains.answered (h : Drains op b random n items round outcome slept)
    (hdone : outcome.isDone) :
    Answered round ∧ outcome = .done (round.flatMap Exchange.outputs) := by
  induction h with
  | @ended n e _ hleft =>
    obtain ⟨reply, hreply⟩ : ∃ reply, e.outcome = .done reply := by
      rw [Outcome.isDone_map] at hdone
      exact Outcome.exists_of_isDone hdone
    refine ⟨⟨List.forall_mem_singleton.2 ⟨reply, hreply⟩, e, List.mem_singleton_self e, hleft⟩, ?_⟩
    rw [hreply, List.flatMap_singleton]
    rfl
  | spent | aborted => cases hdone
  | @again n delay slept e round outcome _ hleft _ _ ih =>
    rw [Outcome.isDone_map] at hdone
    obtain ⟨hanswered, hvalue⟩ := ih hdone
    obtain ⟨reply, hreply, -⟩ := Exchange.exists_reply_of_left hleft
    obtain ⟨last, hlast, hnone⟩ := hanswered.whole
    refine ⟨⟨List.forall_mem_cons.2 ⟨⟨reply, hreply⟩, hanswered.replies⟩, last,
      List.mem_cons_of_mem e hlast, hnone⟩, ?_⟩
    rw [hvalue, List.flatMap_cons]
    rfl

/-- The rounds of a run are those of its first chunks, as many as there are rounds. -/
theorem Runs.drains (h : Runs op b random parts rounds outcome slept) :
    Forall₂ (fun chunk round => ∃ outcome slept,
      Drains op b random b.maxAttempts chunk round outcome slept)
      (parts.take rounds.length) rounds := by
  induction h with
  | nil => exact .nil
  | stopped hchunk => exact .cons ⟨_, _, hchunk⟩ .nil
  | cons hchunk _ ih => exact .cons ⟨_, _, hchunk⟩ ih

/-- Every request of a run is in the round of a chunk. -/
theorem Runs.exists_drains (h : Runs op b random parts rounds outcome slept) :
    ∀ e ∈ rounds.flatten, ∃ part ∈ parts, ∃ round ∈ rounds, ∃ outcome slept, e ∈ round ∧
      Drains op b random b.maxAttempts part round outcome slept := by
  intro e he
  obtain ⟨round, hround, hmem⟩ := List.mem_flatten.1 he
  obtain ⟨part, hpart, outcome, slept, hchunk⟩ := exists_of_mem_left h.drains.flip hround
  exact ⟨part, List.take_subset _ _ hpart, round, hround, outcome, slept, hmem, hchunk⟩

/-- The rounds of a run that is done are those of all chunks, all of which were answered, and the
outputs are those of its requests in order. -/
theorem Runs.answered (h : Runs op b random parts rounds outcome slept) (hdone : outcome.isDone) :
    rounds.length = parts.length ∧ (∀ round ∈ rounds, Answered round) ∧
      outcome = .done (rounds.flatten.flatMap Exchange.outputs) := by
  induction h with
  | nil => exact ⟨rfl, by simp, rfl⟩
  | stopped _ hstop =>
    rw [hdone] at hstop
    cases hstop
  | cons hchunk _ ih =>
    rw [Outcome.isDone_map] at hdone
    obtain ⟨hlength, hothers, hvalue⟩ := ih hdone
    obtain ⟨hfirst, houtputs⟩ := hchunk.answered rfl
    cases houtputs
    refine ⟨congrArg (· + 1) hlength, List.forall_mem_cons.2 ⟨hfirst, hothers⟩, ?_⟩
    rw [hvalue, List.flatten_cons, List.flatMap_append]
    rfl

end Batch

end Salvage
