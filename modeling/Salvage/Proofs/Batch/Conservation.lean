import Mathlib.Data.List.Perm.Subperm
import Salvage.Rehearsal
import Salvage.Proofs.Batch.Requests

/-!
# Nothing is lost and nothing is done twice

At each request a provider may choose anew what it leaves, as long as it was asked to do it. What a
request processes together with what it leaves is what it was for, and what it leaves is what the next
request is for. So the parts that the requests of a chunk processed make up the chunk, and those of all
requests make up the items of the run, however often something was left.
-/

namespace Salvage.Batch

open List (Forall₂)

variable {σ ι ο : Type} {op : Operation σ ι ο} {b : Backoff} {random : Nat → Nat}

/-- Every reply leaves a part of the items that it is for; the others are processed. -/
def Operation.LeavesPart (op : Operation σ ι ο) : Prop :=
  ∀ items s reply s', op.submit items s = (.done reply, s') → reply.unprocessed.Subperm items

/-- A request processes the items that it is for and does not leave. -/
def Exchange.Processes (e : Exchange ι ο) (part : List ι) : Prop :=
  (part ++ e.left).Perm e.items

/-- The requests of a run, in rounds, lose nothing and do nothing twice. -/
structure Conserves (limit : Nat) (items : List ι) (outputs : List ο)
    (rounds : List (List (Exchange ι ο))) : Prop where
  /-- Each request has its part in the items, and the parts of all requests are the items. -/
  processed : ∃ parts, Forall₂ Exchange.Processes rounds.flatten parts ∧ parts.flatten.Perm items
  /-- All requests have a reply, and the outputs are those of the replies in order. -/
  outputs : Forall₂ (fun e output => ∃ left, e.outcome = .done ⟨output, left⟩) rounds.flatten outputs
  /-- No request is empty or too large. -/
  sizes : ∀ e ∈ rounds.flatten, 1 ≤ e.items.length ∧ e.items.length ≤ max limit 1
  /-- There is a round for each chunk, and the chunks are the items in order. -/
  chunks : ∃ parts, parts.flatten = items ∧ Forall₂ IsRound parts rounds

variable {items : List ι} {outputs : List ο} {c c' : Clocked σ} {n slept : Nat}
  {round : List (Exchange ι ο)} {rounds : List (List (Exchange ι ο))} {parts : List (List ι)}
  {outcome : Outcome (List ο)}

/-- What a request leaves is a part of what it is for, also when there is no reply to it. -/
theorem Operation.LeavesPart.left_subperm (hop : op.LeavesPart) {e : Exchange ι ο}
    (he : op.Makes e) : e.left.Subperm e.items := by
  obtain ⟨s, s', hsubmit⟩ := he
  by_cases hleft : e.left = []
  · rw [hleft]
    exact List.nil_subperm
  · obtain ⟨reply, hreply, hunprocessed⟩ := Exchange.exists_reply_of_left hleft
    rw [hreply] at hsubmit
    rw [← hunprocessed]
    exact hop _ _ _ _ hsubmit

/-- A request of such an operation processes something or nothing, but no more than it is for. -/
theorem Operation.LeavesPart.exists_processes (hop : op.LeavesPart) {e : Exchange ι ο}
    (he : op.Makes e) : ∃ part, e.Processes part := by
  obtain ⟨items, hitems, hsub⟩ := List.subperm_iff.1 (hop.left_subperm he)
  obtain ⟨part, hpart⟩ := hsub.exists_perm_append
  exact ⟨part, List.perm_append_comm.trans (hpart.symm.trans hitems)⟩

/-- What the requests for a chunk process makes up the chunk when it is drained. -/
theorem Drains.perm_processed {part : Exchange ι ο → List ι}
    (h : Drains op b random n items round outcome slept) (hdone : outcome.isDone)
    (hpart : ∀ e ∈ round, e.Processes (part e)) : (round.flatMap part).Perm items := by
  induction h with
  | @ended n e _ hleft =>
    have hwhole : (part e ++ e.left).Perm e.items := hpart e (List.mem_singleton_self e)
    rw [hleft, List.append_nil] at hwhole
    rwa [List.flatMap_singleton]
  | spent | aborted => cases hdone
  | @again n delay slept e round outcome _ _ _ _ ih =>
    rw [Outcome.isDone_map] at hdone
    obtain ⟨hfirst, hothers⟩ := List.forall_mem_cons.1 hpart
    rw [List.flatMap_cons]
    exact ((ih hdone hothers).append_left (part e)).trans hfirst

/-- What the requests of a run process makes up its chunks when it is done. -/
theorem Runs.perm_processed {part : Exchange ι ο → List ι}
    (h : Runs op b random parts rounds outcome slept) (hdone : outcome.isDone)
    (hpart : ∀ e ∈ rounds.flatten, e.Processes (part e)) :
    (rounds.flatten.flatMap part).Perm parts.flatten := by
  induction h with
  | nil => exact .nil
  | stopped _ hstop =>
    rw [hdone] at hstop
    cases hstop
  | cons hchunk _ ih =>
    rw [Outcome.isDone_map] at hdone
    rw [List.flatten_cons, List.forall_mem_append] at hpart
    rw [List.flatten_cons, List.flatMap_append, List.flatten_cons]
    exact (hchunk.perm_processed rfl hpart.1).append (ih hdone hpart.2)

/-- Each item of a chunk that is drained is one that some request is for and does not leave. -/
theorem Drains.exists_processed (h : Drains op b random n items round outcome slept)
    (hdone : outcome.isDone) : ∀ i ∈ items, ∃ e ∈ round, i ∈ e.items ∧ i ∉ e.left := by
  induction h with
  | @ended n e _ hleft =>
    intro i hi
    refine ⟨e, List.mem_singleton_self e, hi, ?_⟩
    rw [hleft]
    exact List.not_mem_nil
  | spent | aborted => cases hdone
  | @again n delay slept e round outcome _ _ _ _ ih =>
    rw [Outcome.isDone_map] at hdone
    intro i hi
    by_cases hagain : i ∈ e.left
    · obtain ⟨e', he', hprocessed⟩ := ih hdone i hagain
      exact ⟨e', List.mem_cons_of_mem e he', hprocessed⟩
    · exact ⟨e, List.mem_cons_self, hi, hagain⟩

/-- Each item of a run that is done is one that some request is for and does not leave. -/
theorem Runs.exists_processed (h : Runs op b random parts rounds outcome slept)
    (hdone : outcome.isDone) :
    ∀ i ∈ parts.flatten, ∃ e ∈ rounds.flatten, i ∈ e.items ∧ i ∉ e.left := by
  induction h with
  | nil => simp
  | stopped _ hstop =>
    rw [hdone] at hstop
    cases hstop
  | cons hchunk _ ih =>
    rw [Outcome.isDone_map] at hdone
    rw [List.flatten_cons, List.flatten_cons, List.forall_mem_append]
    refine ⟨fun i hi => ?_, fun i hi => ?_⟩
    · obtain ⟨e, he, hprocessed⟩ := hchunk.exists_processed rfl i hi
      exact ⟨e, List.mem_append_left _ he, hprocessed⟩
    · obtain ⟨e, he, hprocessed⟩ := ih hdone i hi
      exact ⟨e, List.mem_append_right _ he, hprocessed⟩

/-- No request for a chunk is empty or larger than the chunk. -/
theorem Drains.sizes (hop : op.LeavesPart) (h : Drains op b random n items round outcome slept)
    (hitems : items ≠ []) : ∀ e ∈ round, 1 ≤ e.items.length ∧ e.items.length ≤ items.length := by
  refine h.forall_items (P := fun l => 1 ≤ l.length ∧ l.length ≤ items.length)
    ⟨List.length_pos_iff.2 hitems, Nat.le_refl _⟩ ?_
  intro e _ hmade hleft hsize
  have hshorter := (hop.left_subperm hmade).length_le
  exact ⟨List.length_pos_iff.2 hleft, hshorter.trans hsize.2⟩

/-- Requests that all have a reply have one output each. -/
theorem forall₂_outputs {requests : List (Exchange ι ο)}
    (h : ∀ e ∈ requests, ∃ reply, e.outcome = .done reply) :
    Forall₂ (fun e output => ∃ left, e.outcome = .done ⟨output, left⟩) requests
      (requests.flatMap Exchange.outputs) := by
  induction requests with
  | nil => exact .nil
  | cons e others ih =>
    obtain ⟨⟨reply, hreply⟩, hothers⟩ := List.forall_mem_cons.1 h
    have houtputs : e.outputs = [reply.output] := by rw [Exchange.outputs, hreply]
    rw [List.flatMap_cons, houtputs]
    exact .cons ⟨reply.unprocessed, hreply⟩ (ih hothers)

/-- When a run is done, every item was processed by exactly one of its requests, whatever the replies
left in between, and the requests are as few and as large as chunks and replies make them. -/
theorem run_conserves (hop : op.LeavesPart)
    (h : run op b random items c = (.done outputs, c')) :
    ∃ rounds, requests op b random items c = rounds.flatten ∧
      Conserves op.limit items outputs rounds := by
  obtain ⟨rounds, slept, hruns, hrequests, -⟩ := runs_requests op b random items c
  rw [h] at hruns
  obtain ⟨hlength, hanswered, hvalue⟩ := hruns.answered rfl
  cases hvalue
  have hdrains := hruns.drains
  rw [hlength, List.take_length] at hdrains
  refine ⟨rounds, hrequests, ?_, ?_, ?_, ?_⟩
  · have hexists : ∀ e ∈ rounds.flatten, ∃ part, e.Processes part := by
      intro e he
      obtain ⟨_, _, _, _, _, _, hmem, hchunk⟩ := hruns.exists_drains e he
      exact hop.exists_processes (hchunk.makes e hmem)
    choose! part hpart using hexists
    have hperm := hruns.perm_processed rfl hpart
    rw [flatten_chunks] at hperm
    refine ⟨rounds.flatten.map part, List.forall₂_map_right_iff.2 ?_, hperm⟩
    exact List.forall₂_same.2 hpart
  · exact forall₂_outputs (replies_flatten hanswered)
  · intro e he
    obtain ⟨part, hpart, _, _, _, _, hmem, hchunk⟩ := hruns.exists_drains e he
    obtain ⟨hne, hle⟩ := of_mem_chunks hpart
    obtain ⟨hsome, hfits⟩ := hchunk.sizes hop hne e hmem
    exact ⟨hsome, hfits.trans hle⟩
  · refine ⟨_, flatten_chunks op.limit items, hdrains.imp ?_⟩
    rintro _ _ ⟨_, _, hdrain⟩
    exact hdrain.isRound

/-- Whatever a script says, what a request leaves is the end of what it is for. -/
theorem leavesPart_script (limit : Nat) : (Script.operation (ι := ι) limit).LeavesPart := by
  intro items s reply s' h
  simp only [Script.operation, Action.bind_eq_done, Action.get_eq_done, Action.set_eq_done] at h
  obtain ⟨_, script, ⟨rfl, rfl⟩, _, _, rfl, h⟩ := h
  rcases hline : script.lines.head? with _ | text | n <;> rw [hline] at h
  · obtain ⟨rfl, -⟩ := Action.pure_eq_done.1 h
    exact List.nil_subperm
  · simp at h
  · obtain ⟨rfl, -⟩ := Action.pure_eq_done.1 h
    exact (List.drop_sublist _ items).subperm

/-- The first chunk of five items takes three requests, since the provider leaves something twice. -/
theorem run_conserves_leftovers :
    ∃ rounds, requests (Script.operation 3) .immediate (fun _ => 0) [1, 2, 3, 4, 5]
        ⟨⟨[.leave 2, .leave 1], []⟩, 0⟩ = rounds.flatten ∧
      Conserves 3 [1, 2, 3, 4, 5] [[1], [2], [3], [4, 5]] rounds :=
  run_conserves (leavesPart_script 3)
    (show run _ _ _ _ _ = (.done [[1], [2], [3], [4, 5]],
      ⟨⟨[], [[1, 2, 3], [2, 3], [3], [4, 5]]⟩, 0⟩) from rfl)

end Salvage.Batch
