import Salvage.Provider
import Salvage.Proofs.Batch.Requests

/-!
# Calls and their answers

A provider answers its calls from a list that is fixed in advance. So what it was asked in a run and how
it answered can be read off its states before and after, without running it again. When each request of
an operation is one call, the requests of a run are the calls of that transcript, in order, and each
comes to what is made of the answer.
-/

namespace Salvage

open List (Forall₂)

namespace Provider

variable {κ ρ : Type} {p p' : Provider κ ρ}

/-- The answer to the next call. -/
def next (p : Provider κ ρ) : Except String ρ :=
  p.answers.head?.getD (.error p.silence)

/-- A provider after a call. -/
def after (p : Provider κ ρ) (call : κ) : Provider κ ρ :=
  { p with answers := p.answers.tail, calls := p.calls ++ [call] }

/-- Some calls, each with the answer to it. -/
def hears (p : Provider κ ρ) : List κ → List (κ × Except String ρ)
  | [] => []
  | call :: calls => (call, p.next) :: (p.after call).hears calls

/-- The calls that a provider has had since an earlier state, each with the answer to it. -/
def transcript (p p' : Provider κ ρ) : List (κ × Except String ρ) :=
  p.hears (p'.calls.drop p.calls.length)

/-- What is made of an answer when a failure becomes an error and a reply is used. -/
def hear {α : Type} (wrap : String → Error) (use : ρ → Outcome α) : Except String ρ → Outcome α
  | .error text => .failed (wrap text)
  | .ok reply => use reply

/-- A call comes to what its answer is. -/
theorem call_apply (wrap : String → Error) (call : κ) (p : Provider κ ρ) :
    Provider.call wrap call p = (hear wrap .done p.next, p.after call) := by
  rw [Provider.call, next, after]
  rcases p.answers with _ | ⟨_ | _, _⟩ <;> rfl

/-- A call whose reply is used without another call comes to what is made of the answer. -/
theorem call_bind_apply {α : Type} {wrap : String → Error} {use : ρ → Outcome α}
    {next : ρ → Action (Provider κ ρ) α} (hnext : ∀ reply p, next reply p = (use reply, p))
    (call : κ) (p : Provider κ ρ) :
    (Provider.call wrap call >>= next) p = (hear wrap use p.next, p.after call) := by
  have hcall := call_apply wrap call p
  cases hanswer : p.next with
  | error text =>
    rw [hanswer] at hcall
    exact Action.bind_of_failed hcall
  | ok reply =>
    rw [hanswer] at hcall
    exact (Action.bind_of_done hcall).trans (hnext reply (p.after call))

/-- Calls are added to those before. -/
theorem calls_foldl_after (calls : List κ) (p : Provider κ ρ) :
    (calls.foldl after p).calls = p.calls ++ calls := by
  induction calls generalizing p with
  | nil => exact (List.append_nil _).symm
  | cons call calls ih => rw [List.foldl_cons, ih, after, List.append_assoc, List.singleton_append]

/-- The transcript of some calls has their answers. -/
theorem transcript_foldl_after (calls : List κ) (p : Provider κ ρ) :
    transcript p (calls.foldl after p) = p.hears calls := by
  rw [transcript, calls_foldl_after, List.drop_left]

/-- Calls after others hear the answers that these leave. -/
theorem hears_append (calls others : List κ) (p : Provider κ ρ) :
    p.hears (calls ++ others) = p.hears calls ++ (calls.foldl after p).hears others := by
  induction calls generalizing p with
  | nil => rfl
  | cons call calls ih => exact congrArg ((call, p.next) :: ·) (ih (p.after call))

end Provider

namespace Batch

open Provider (transcript)

variable {κ ρ ι ο : Type} {op : Operation (Provider κ ρ) ι ο} {ask : List ι → κ}
  {hear : Except String ρ → Outcome (Reply ι ο)}

/-- A request is one call to the provider, and comes to what is made of the answer. -/
def Operation.Asks (op : Operation (Provider κ ρ) ι ο) (ask : List ι → κ)
    (hear : Except String ρ → Outcome (Reply ι ο)) : Prop :=
  ∀ items p, op.submit items p = (hear p.next, p.after (ask items))

/-- An operation that makes a call and uses the reply asks that way. -/
theorem Operation.asks_of_call {wrap : String → Error} {use : ρ → Outcome (Reply ι ο)}
    {next : ρ → Action (Provider κ ρ) (Reply ι ο)}
    (hsubmit : ∀ items, op.submit items = Provider.call wrap (ask items) >>= next)
    (hnext : ∀ reply p, next reply p = (use reply, p)) : op.Asks ask (Provider.hear wrap use) := by
  intro items p
  rw [hsubmit]
  exact Provider.call_bind_apply hnext (ask items) p

/-- A request is a call, and comes to what is made of the answer. -/
structure Heard (ask : List ι → κ) (hear : Except String ρ → Outcome (Reply ι ο))
    (e : Exchange ι ο) (h : κ × Except String ρ) : Prop where
  call : h.1 = ask e.items
  answer : e.outcome = hear h.2

/-- The provider of a state was called for the requests that have been written down since another, and
they come to what is made of the answers. -/
def Called (ask : List ι → κ) (hear : Except String ρ → Outcome (Reply ι ο))
    (s s' : Provider κ ρ × List (Exchange ι ο)) : Prop :=
  ∃ requests, s'.2 = s.2 ++ requests ∧
    s'.1 = (requests.map fun e => ask e.items).foldl Provider.after s.1 ∧
    Forall₂ (Heard ask hear) requests (s.1.hears (requests.map fun e => ask e.items))

instance : IsPreorder (Provider κ ρ × List (Exchange ι ο)) (Called ask hear) where
  refl _ := ⟨[], (List.append_nil _).symm, rfl, .nil⟩
  trans _ _ _ h h' := by
    obtain ⟨requests, hlog, hworld, hheard⟩ := h
    obtain ⟨requests', hlog', hworld', hheard'⟩ := h'
    refine ⟨requests ++ requests', ?_, ?_, ?_⟩
    · rw [hlog', hlog, List.append_assoc]
    · rw [hworld', hworld, List.map_append, List.foldl_append]
    · rw [List.map_append, Provider.hears_append, ← hworld]
      exact List.rel_append hheard hheard'

/-- A request that is written down is a call. -/
theorem Operation.Asks.within_submit (hop : op.Asks ask hear) (items : List ι) :
    Action.Within (Called ask hear) (op.recorded.submit items) := by
  intro s
  have hsubmit : op.recorded.submit items s = ((op.submit items s.1).1,
      ((op.submit items s.1).2, s.2 ++ [⟨items, (op.submit items s.1).1⟩])) := rfl
  rw [hsubmit, hop]
  exact ⟨[⟨items, hear s.1.next⟩], rfl, rfl, .cons ⟨rfl, rfl⟩ .nil⟩

/-- The requests of a run are the calls of its transcript, and come to what is made of the answers. -/
theorem Operation.Asks.heard_requests (hop : op.Asks ask hear) (b : Backoff) (random : Nat → Nat)
    (items : List ι) (c : Clocked (Provider κ ρ)) :
    Forall₂ (Heard ask hear) (requests op b random items c)
      (transcript c.world (run op b random items c).2.world) := by
  have hwithin : Action.Within (Order.Preimage Clocked.world (Called ask hear))
      (run op.recorded b random items) :=
    within_run (fun _ => True) (fun items _ => hop.within_submit items)
      (fun _ _ _ _ _ _ _ _ => trivial) fun _ _ => trivial
  obtain ⟨calls, hlog, hworld, hheard⟩ := hwithin ⟨(c.world, []), c.slept⟩
  have hrequests : requests op b random items c = calls := hlog
  have hrun : (run op b random items c).2.world = _ := congrArg (fun r => r.2.world)
    (shows_run_recorded op b random items ⟨(c.world, []), c.slept⟩)
  have hafter : (run op b random items c).2.world =
      (calls.map fun e => ask e.items).foldl Provider.after c.world := hrun.trans hworld
  rw [hrequests, hafter, Provider.transcript_foldl_after]
  exact hheard

end Batch

end Salvage
