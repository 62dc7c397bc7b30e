import Mathlib.Data.List.Forall2
import Mathlib.Order.RelClasses
import Salvage.Batch
import Salvage.Proofs.Action

/-!
# What batches get done

A reply splits the items of its request into those that it answers and those that it leaves. When a
run is done nothing is left: its requests together have answered every item as often as it was
given, though maybe in another order, and what they did to the state is what these answers do. A run
of requests that leave nothing is done. Whatever a request does to the state when it fails, a run
does nothing else.
-/

namespace Salvage.Batch

open List (Forall₂)

variable {σ ι ο : Type} {op : Operation σ ι ο} {b : Backoff} {random : Nat → Nat}

/-- In states with a property that requests keep, each reply answers some of the items and leaves all
others, and the items answered tell what was done to the state and what was put out. -/
structure Splits (op : Operation σ ι ο) (inv : σ → Prop) (effect : List ι → σ → σ → Prop)
    (answers : List ι → ο → Prop) : Prop where
  nothing : ∀ s, effect [] s s
  append : ∀ as bs s t u, effect as s t → effect bs t u → effect (as ++ bs) s u
  request : ∀ items s reply s', inv s → op.submit items s = (.done reply, s') →
    inv s' ∧ ∃ answered, (answered ++ reply.unprocessed).Perm items ∧ effect answered s s' ∧
      answers answered reply.output

variable {inv : σ → Prop} {effect : List ι → σ → σ → Prop} {answers : List ι → ο → Prop}
  {items : List ι} {outputs : List ο} {c c' : Clocked σ}

/-- An action below the clock leaves the clock alone. -/
theorem onWorld_eq_done {α : Type} {x : Action σ α} {a : α} :
    onWorld x c = (.done a, c') ↔ ∃ w, x c.world = (.done a, w) ∧ c' = { c with world := w } :=
  Action.on_eq_done

/-- Waiting stays within every preorder of the world, which it leaves alone. -/
theorem within_wait {R : σ → σ → Prop} [IsPreorder σ R] (b : Backoff) (random : Nat → Nat)
    (retry : Nat) : Action.Within (Order.Preimage Clocked.world R) (wait b random retry) :=
  (Action.within_orAbort _).bind fun _ c => Std.Refl.refl (r := R) c.world

/-- Waiting that is done has left the world alone. -/
theorem world_of_wait {retry : Nat} {u : Unit} (h : wait b random retry c = (.done u, c')) :
    c'.world = c.world := by
  have hwithin := within_wait (R := Eq) b random retry c
  rw [h] at hwithin
  exact hwithin.symm

/-- An action without its clock is done when it is done with a clock. -/
theorem unclocked_eq_done {α : Type} {x : Action (Clocked σ) α} {s s' : σ} {a : α} :
    unclocked x s = (.done a, s') ↔ ∃ c, x ⟨s, 0⟩ = (.done a, c) ∧ s' = c.world := by
  rw [unclocked]
  rcases x ⟨s, 0⟩ with ⟨o, c⟩
  constructor
  · intro hgiven
    cases hgiven
    exact ⟨c, rfl, rfl⟩
  · intro hgiven
    obtain ⟨_, ⟨⟩, rfl⟩ := hgiven
    rfl

/-- A request that leaves nothing has answered its items whole. -/
theorem request_whole (hop : Splits op inv effect answers) {s s' : σ} {reply : Reply ι ο}
    (hinv : inv s) (h : op.submit items s = (.done reply, s')) (hnone : reply.unprocessed.isEmpty) :
    inv s' ∧ ∃ parts, parts.flatten.Perm items ∧ effect parts.flatten s s' ∧
      Forall₂ answers parts [reply.output] := by
  obtain ⟨hkept, answered, hperm, heffect, hanswers⟩ := hop.request _ _ _ _ hinv h
  rw [List.isEmpty_iff.1 hnone, List.append_nil] at hperm
  refine ⟨hkept, [answered], ?_, ?_, .cons hanswers .nil⟩
  · rwa [List.flatten_singleton]
  · rwa [List.flatten_singleton]

/-- A drained chunk has been answered whole. -/
theorem drain_done (hop : Splits op inv effect answers) {retriesLeft : Nat} (hinv : inv c.world)
    (h : drain op b random retriesLeft items c = (.done outputs, c')) :
    inv c'.world ∧ ∃ parts, parts.flatten.Perm items ∧ effect parts.flatten c.world c'.world ∧
      Forall₂ answers parts outputs := by
  induction retriesLeft generalizing items c outputs with
  | zero =>
    rw [drain] at h
    simp only [Action.bind_eq_done, onWorld_eq_done] at h
    obtain ⟨reply, _, ⟨w, hsubmit, rfl⟩, h⟩ := h
    split at h
    · rename_i hnone
      obtain ⟨rfl, rfl⟩ := Action.pure_eq_done.1 h
      exact request_whole hop hinv hsubmit hnone
    · rw [giveUp] at h
      split at h <;> simp at h
  | succ n ih =>
    rw [drain] at h
    simp only [Action.bind_eq_done, onWorld_eq_done] at h
    obtain ⟨reply, _, ⟨w, hsubmit, rfl⟩, h⟩ := h
    split at h
    · rename_i hnone
      obtain ⟨rfl, rfl⟩ := Action.pure_eq_done.1 h
      exact request_whole hop hinv hsubmit hnone
    · simp only [Action.bind_eq_done, Action.pure_eq_done] at h
      obtain ⟨_, c₁, hwait, rest, c₂, hrest, rfl, rfl⟩ := h
      obtain ⟨hkept, answered, hperm, heffect, hanswers⟩ := hop.request _ _ _ _ hinv hsubmit
      have hworld : c₁.world = w := world_of_wait hwait
      rw [← hworld] at hkept heffect
      obtain ⟨hkept', parts, hperm', heffect', hanswers'⟩ := ih hkept hrest
      refine ⟨hkept', answered :: parts, ?_, ?_, .cons hanswers hanswers'⟩
      · exact (hperm'.append_left answered).trans hperm
      · exact hop.append _ _ _ _ _ heffect heffect'

/-- Chunks that are drained one after another have been answered whole. -/
theorem each_drain_done (hop : Splits op inv effect answers) {retries : Nat} {parts : List (List ι)}
    {results : List (List ο)} (hinv : inv c.world)
    (h : Action.each (drain op b random retries) parts c = (.done results, c')) :
    inv c'.world ∧ ∃ answered, answered.flatten.Perm parts.flatten ∧
      effect answered.flatten c.world c'.world ∧ Forall₂ answers answered results.flatten := by
  induction parts generalizing c results with
  | nil =>
    obtain ⟨rfl, rfl⟩ := Action.each_nil_eq_done.1 h
    exact ⟨hinv, [], .nil, hop.nothing _, .nil⟩
  | cons part rest ih =>
    obtain ⟨first, others, c₁, rfl, hdrain, hrest⟩ := Action.each_cons_eq_done.1 h
    obtain ⟨hkept, answered, hperm, heffect, hanswers⟩ := drain_done hop hinv hdrain
    obtain ⟨hkept', answered', hperm', heffect', hanswers'⟩ := ih hkept hrest
    refine ⟨hkept', answered ++ answered', ?_, ?_, List.rel_append hanswers hanswers'⟩
    · rw [List.flatten_append, List.flatten_cons]
      exact hperm.append hperm'
    · rw [List.flatten_append]
      exact hop.append _ _ _ _ _ heffect heffect'

/-- Chunks are made of the items and of nothing else. -/
theorem flatten_chunks (limit : Nat) (items : List ι) : (chunks limit items).flatten = items := by
  have hcut := flatten_cut limit 0 items
  have hfirst : (cut limit 0 items).1 = [] := by cases items <;> rfl
  rwa [hfirst, List.nil_append] at hcut

/-- The first part of a cut list fits into the room, and no chunk is empty or too long. -/
theorem length_cut_le (limit room : Nat) (items : List ι) :
    (cut limit room items).1.length ≤ room ∧
      ∀ part ∈ (cut limit room items).2, part ≠ [] ∧ part.length ≤ max limit 1 := by
  induction items generalizing room with
  | nil => simp [cut]
  | cons a as ih =>
    cases room with
    | zero =>
      obtain ⟨hfirst, hothers⟩ := ih (limit - 1)
      refine ⟨Nat.le_refl 0, List.forall_mem_cons.2 ⟨⟨List.cons_ne_nil _ _, ?_⟩, hothers⟩⟩
      rw [List.length_cons]
      omega
    | succ room =>
      obtain ⟨hfirst, hothers⟩ := ih room
      exact ⟨Nat.succ_le_succ hfirst, hothers⟩

/-- What does not fit into the room is cut into as few chunks as there can be. -/
theorem length_cut (limit room : Nat) (items : List ι) :
    (cut limit room items).2.length =
      (items.length - room + (max limit 1 - 1)) / max limit 1 := by
  induction items generalizing room with
  | nil =>
    have hsmall : max limit 1 - 1 < max limit 1 := by omega
    simp [cut, Nat.div_eq_of_lt hsmall]
  | cons a as ih =>
    cases room with
    | zero =>
      have hcut : (cut limit 0 (a :: as)).2.length = (cut limit (limit - 1) as).2.length + 1 := rfl
      have hsum : as.length + 1 - 0 + (max limit 1 - 1) = as.length + max limit 1 := by omega
      rw [hcut, ih, List.length_cons, hsum, Nat.add_div_right _ (by omega)]
      congr 1
      by_cases hshort : as.length < max limit 1
      · rw [Nat.div_eq_of_lt hshort, Nat.div_eq_of_lt (by omega)]
      · congr 1
        omega
    | succ room =>
      have hcut : (cut limit (room + 1) (a :: as)).2.length = (cut limit room as).2.length := rfl
      rw [hcut, ih, List.length_cons, Nat.add_sub_add_right]

/-- No chunk is empty, and none is longer than the limit. -/
theorem of_mem_chunks {limit : Nat} {part : List ι} (h : part ∈ chunks limit items) :
    part ≠ [] ∧ part.length ≤ max limit 1 :=
  (length_cut_le limit 0 items).2 part h

/-- What is in a chunk is one of the items. -/
theorem subset_of_mem_chunks {limit : Nat} {part : List ι} (h : part ∈ chunks limit items) :
    part ⊆ items := by
  intro i hi
  rw [← flatten_chunks limit items]
  exact List.mem_flatten.2 ⟨part, h, hi⟩

/-- A list is cut into as many chunks as its length needs. -/
theorem length_chunks (limit : Nat) (items : List ι) :
    (chunks limit items).length = (items.length + (max limit 1 - 1)) / max limit 1 :=
  length_cut limit 0 items

/-- A run that is done has answered all items. -/
theorem run_done (hop : Splits op inv effect answers) (hinv : inv c.world)
    (h : run op b random items c = (.done outputs, c')) :
    inv c'.world ∧ ∃ answered, answered.flatten.Perm items ∧
      effect answered.flatten c.world c'.world ∧ Forall₂ answers answered outputs := by
  simp only [run, Action.bind_eq_done, Action.pure_eq_done] at h
  obtain ⟨results, _, h, rfl, rfl⟩ := h
  have hdone := each_drain_done hop hinv h
  rwa [flatten_chunks] at hdone

/-- A run of requests that leave nothing is done. -/
theorem run_succeeds (hop : ∀ items s, inv s →
      ∃ output s', op.submit items s = (.done ⟨output, []⟩, s') ∧ inv s')
    (hinv : inv c.world) (items : List ι) :
    ∃ outputs c', run op b random items c = (.done outputs, c') ∧ inv c'.world := by
  have hdrain (items : List ι) (c : Clocked σ) (hinv : inv c.world) :
      ∃ outputs c', drain op b random b.maxAttempts items c = (.done outputs, c') ∧
        inv c'.world := by
    obtain ⟨output, w, hsubmit, hkept⟩ := hop items c.world hinv
    refine ⟨[output], { c with world := w }, ?_, hkept⟩
    rw [drain, Action.bind_eq_done]
    exact ⟨⟨output, []⟩, _, onWorld_eq_done.2 ⟨w, hsubmit, rfl⟩, rfl⟩
  have heach (parts : List (List ι)) (c : Clocked σ) (hinv : inv c.world) :
      ∃ results c', Action.each (drain op b random b.maxAttempts) parts c = (.done results, c') ∧
        inv c'.world := by
    induction parts generalizing c with
    | nil => exact ⟨[], c, Action.each_nil_eq_done.2 ⟨rfl, rfl⟩, hinv⟩
    | cons part rest ih =>
      obtain ⟨first, c₁, hfirst, hkept⟩ := hdrain part c hinv
      obtain ⟨others, c₂, hothers, hkept'⟩ := ih c₁ hkept
      exact ⟨first :: others, c₂,
        Action.each_cons_eq_done.2 ⟨first, others, c₁, rfl, hfirst, hothers⟩, hkept'⟩
  obtain ⟨results, c', hresults, hkept⟩ := heach (chunks op.limit items) c hinv
  refine ⟨results.flatten, c', ?_, hkept⟩
  rw [run, Action.bind_eq_done]
  exact ⟨results, c', hresults, rfl⟩

/-- A run over any items fails with its first request when that fails. -/
theorem run_of_failed {e : Error} {w : σ}
    (hop : ∀ items, op.submit items c.world = (.failed e, w)) (hitems : items ≠ []) :
    run op b random items c = (.failed e, { c with world := w }) := by
  have hdrain (items : List ι) :
      drain op b random b.maxAttempts items c = (.failed e, { c with world := w }) := by
    rw [drain.eq_def]
    exact Action.bind_of_failed (Action.on_apply_of (hop items))
  obtain ⟨a, as, rfl⟩ := List.exists_cons_of_ne_nil hitems
  have heach : Action.each (drain op b random b.maxAttempts) (chunks op.limit (a :: as)) c =
      (.failed e, { c with world := w }) := Action.bind_of_failed (hdrain _)
  exact Action.bind_of_failed heach

/-! ## However a run ends -/

section Within

variable {R : σ → σ → Prop} [IsPreorder σ R] (allowed : ι → Prop)

/-- Draining a chunk of some items does no more to the world than requests for such items do. -/
theorem within_drain
    (hop : ∀ items, (∀ i ∈ items, allowed i) → Action.Within R (op.submit items))
    (hleft : ∀ items s reply s', (∀ i ∈ items, allowed i) →
      op.submit items s = (.done reply, s') → ∀ i ∈ reply.unprocessed, allowed i)
    (retriesLeft : Nat) (hitems : ∀ i ∈ items, allowed i) :
    Action.Within (Order.Preimage Clocked.world R) (drain op b random retriesLeft items) := by
  have hsubmit {items : List ι} (hitems : ∀ i ∈ items, allowed i) :
      Action.Within (Order.Preimage Clocked.world R) (onWorld (op.submit items)) :=
    (hop items hitems).on fun _ _ h => h
  have hkept {items : List ι} (hitems : ∀ i ∈ items, allowed i) {c c' : Clocked σ}
      {reply : Reply ι ο} (h : onWorld (op.submit items) c = (.done reply, c')) :
      ∀ i ∈ reply.unprocessed, allowed i := by
    obtain ⟨w, hdone, -⟩ := onWorld_eq_done.1 h
    exact hleft _ _ _ _ hitems hdone
  induction retriesLeft generalizing items with
  | zero =>
    rw [drain]
    refine (hsubmit hitems).bind fun reply => ?_
    split
    · exact Action.within_pure _
    · dsimp only
      rw [giveUp]
      split
      · exact Action.within_fail _
      · exact Action.within_abort
  | succ n ih =>
    intro c
    rw [drain]
    have hfirst := hsubmit hitems c
    refine Action.snd_bind_of hfirst fun reply t hdone => ?_
    rw [hdone] at hfirst
    refine IsTrans.trans (r := R) _ _ _ hfirst ?_
    split
    · exact Std.Refl.refl (r := R) t.world
    · have hrest := ih (hkept hitems hdone)
      exact ((within_wait b random _).bind fun _ => hrest.bind fun _ => Action.within_pure _) t

/-- A run does no more to the world than requests for its items do. -/
theorem within_run
    (hop : ∀ items, (∀ i ∈ items, allowed i) → Action.Within R (op.submit items))
    (hleft : ∀ items s reply s', (∀ i ∈ items, allowed i) →
      op.submit items s = (.done reply, s') → ∀ i ∈ reply.unprocessed, allowed i)
    (hitems : ∀ i ∈ items, allowed i) :
    Action.Within (Order.Preimage Clocked.world R) (run op b random items) := by
  have hchunk : ∀ part ∈ chunks op.limit items, ∀ i ∈ part, allowed i :=
    fun part hpart i hi => hitems i (subset_of_mem_chunks hpart hi)
  exact (Action.within_each fun part hpart =>
    within_drain allowed hop hleft b.maxAttempts (hchunk part hpart)).bind fun _ => Action.within_pure _

end Within

/-- An action without its clock does to the state what it does with a clock. -/
theorem within_unclocked {α : Type} {R : σ → σ → Prop} {x : Action (Clocked σ) α}
    (hx : Action.Within (Order.Preimage Clocked.world R) x) : Action.Within R (unclocked x) :=
  fun s => hx ⟨s, 0⟩

end Salvage.Batch
