import Salvage.Proofs.Tables.RollUp
import Salvage.Proofs.Workspace.Run
import Salvage.Proofs.Workspace.Storage

/-!
# Storage totals of a run

Where the storage totals roll up, they do so after every turn of a run of requests and of deliveries
of the messages that these queued. Such a message is true of the packages as they are now, because
what it says of them never changes: so a delivery counts leaves only, all of them in one dataset.
-/

namespace Salvage.Workspace

open List (Forall₂)
open Restoration (leafRows)

/-- A message is true of the tables when its dataset is there, and its package with its kind. -/
structure Truthful (t : Tables) (m : RestoreMessage) : Prop where
  dataset : ∃ d ∈ t.datasets, d.id = m.datasetId
  package : ∃ p ∈ t.packages, p.nodeId = m.package.nodeId ∧ p.kind = m.package.kind

/-- If the turn is a delivery, its message was queued behind the first so many ones. -/
def Turn.DeliversQueued (start : Nat) (t : Turn) : Prop :=
  ∀ token m, t.command = .deliver token m → m ∈ t.before.queue.messages.drop start

/-- The totals of an organization roll up, and the messages in the queue behind the first so many
ones are true. -/
structure RollsUp (org : Int) (start : Nat) (w : Workspace) : Prop where
  organization : w.packages.org = org
  consistent : w.packages.tables.Consistent org
  truthful : ∀ m ∈ w.queue.messages.drop start, Truthful w.packages.tables m

variable {w w' : Workspace} {start : Nat} {m : RestoreMessage} {token : Int → String}
  {events : List Event} {send : RestoreMessage → Action RestoreQueue Unit} {org : Int}
  {datasetNode userId : String} {r : RestoreRequest} {k : Conditions} {command : Command}
  {steps : List (Conditions × Command)}

/-! ## Messages -/

/-- A message stays true when names and states change. -/
theorem Truthful.of_rows {t t' : Tables} (h : Truthful t m)
    (hrows : Forall₂ Package.Retouched t.packages t'.packages) (hdatasets : t'.datasets = t.datasets) :
    Truthful t' m := by
  obtain ⟨p, hp, hnode, hkind⟩ := h.package
  obtain ⟨q, hq, hsame⟩ := exists_of_mem_left hrows hp
  exact ⟨hdatasets ▸ h.dataset, q, hq, hsame.nodeId_eq.trans hnode, hsame.kind_eq.trans hkind⟩

/-- The messages of a request are true. -/
theorem truthful_of_mem_messagesTo {t : Tables} {d : Dataset} {nodeIds : List String}
    (hdataset : t.datasetByNode? datasetNode = some d)
    (hm : m ∈ RestoreRequest.messagesTo t org d.id userId nodeIds) : Truthful t m := by
  have hmessages := RestoreRequest.forall₂_messagesTo t org d.id datasetNode userId nodeIds
  obtain ⟨_, -, p, hp, -, -, -, rfl⟩ := exists_of_mem_left hmessages.flip hm
  exact ⟨⟨d, List.mem_of_find?_eq_some hdataset, rfl⟩, p, hp, rfl, rfl⟩

/-- What a request puts on the queue, whether it is done or not, are true messages. -/
theorem exists_sent_of_request {outcome : Outcome RestoreResponse}
    (hd : w.packages.tables.Distinct) (hsend : Appends send)
    (hrun : requestBy send org datasetNode r userId w = (outcome, w')) :
    ∃ sent, w'.queue.messages = w.queue.messages ++ sent ∧
      ∀ m ∈ sent, Truthful w.packages.tables m := by
  cases hdone : outcome.isDone with
  | true =>
    obtain ⟨response, rfl⟩ := Outcome.exists_of_isDone hdone
    obtain ⟨-, d, us, hdataset, -, hsent, -⟩ := request_done hd hrun
    exact ⟨_, messages_of_each_send hsend hsent, fun m => truthful_of_mem_messagesTo hdataset⟩
  | false =>
    rcases request_stopped hd hsend hrun hdone with
      ⟨-, -, hsame⟩ | ⟨-, -, hsame⟩ | ⟨d, sent, hdataset, hfirst, hmore, -⟩
    · exact ⟨[], by rw [hsame, List.append_nil], by simp⟩
    · exact ⟨[], by rw [hsame, List.append_nil], by simp⟩
    · exact ⟨sent, hmore, fun m hm => truthful_of_mem_messagesTo hdataset (hfirst.subset hm)⟩

/-- A delivery leaves the queue alone. -/
theorem queue_restore (token : Int → String) (m : RestoreMessage) (w : Workspace) :
    (restore token m w).2.queue = w.queue := by
  rw [restore_apply]
  rcases PackageStore.transact m.org .sound (Restoration.restore token m)
    (w.packages, w.content) with ⟨_ | _ | _, s, content⟩
  · dsimp only
    rw [report_eq]
  · rfl
  · rfl

/-- What a turn puts on the queue are true messages. -/
theorem exists_sent_of_turn (command : Command) (hd : w.packages.tables.Distinct)
    (hsend : Appends k.send) :
    ∃ sent, (turn k command w).after.queue.messages = w.queue.messages ++ sent ∧
      ∀ m ∈ sent, Truthful w.packages.tables m := by
  have hd' : (w.under k).packages.tables.Distinct := hd
  cases command with
  | request org datasetNode r userId =>
    obtain ⟨sent, hqueue, hsent⟩ :=
      exists_sent_of_request (r := r) hd' hsend rfl
    refine ⟨sent, ?_, hsent⟩
    rw [turn, carryOut, Action.bind_pure_apply]
    exact hqueue
  | deliver token m =>
    refine ⟨[], ?_, by simp⟩
    rw [turn, carryOut, Action.bind_pure_apply, List.append_nil]
    exact congrArg RestoreQueue.messages (queue_restore token m (w.under k))

/-! ## Totals -/

/-- What a delivery of a true message counts are leaves of its dataset. -/
theorem leaf_of_truthful {t : Tables} {l : Package} (hf : t.Forest) (hparented : t.Parented)
    (htrue : Truthful t m) {way : Traversal} (hclaimed : (Restoration.claimed? t m).isSome)
    (hl : l ∈ leafRows t way m) :
    l ∈ t.packages ∧ ¬ l.kind.isCollection ∧ l.datasetId = m.datasetId := by
  obtain ⟨target, htarget, hdataset, hnode, hbrings⟩ := (mem_leafRows_iff hf hclaimed).1 hl
  obtain ⟨p, hp, hpnode, hkind⟩ := htrue.package
  obtain rfl := hf.eq_of_nodeId hp htarget (hpnode.trans hnode.symm)
  split at hbrings
  · obtain ⟨hcovers, hleaf⟩ := hbrings
    refine ⟨hcovers.mem, hleaf, ?_⟩
    exact ((hparented.oneDataset hf.keyed).datasetId_eq hf.keyed hp hcovers.mem
      hcovers.below).trans hdataset
  · rename_i hleaf
    rw [hbrings, hkind]
    exact ⟨htarget, hleaf, hdataset⟩

/-- A delivery of a true message that is done keeps the totals rolled up. -/
theorem consistent_of_delivery (h : w.packages.tables.Consistent w.packages.org)
    (htrue : Truthful w.packages.tables m) (hrun : restore token m w = (.done events, w')) :
    w'.packages.org = w.packages.org ∧ w'.packages.tables.datasets = w.packages.tables.datasets ∧
      w'.packages.tables.Consistent w.packages.org := by
  have hf := h.forest
  obtain ⟨hclaimed, hcounts⟩ := counts_of_restore hf.keyed hrun
  obtain ⟨horg, tx, content, hflow, hafter⟩ := restore_eq_done.1 hrun
  obtain ⟨_, _, _, hrest⟩ := Restoration.rest_restore hf.keyed hflow
  obtain ⟨-, hreturned, -⟩ := Restoration.rows_restore hf hflow
  have hpackages : w'.packages = w.packages.commit tx := by rw [hafter, report_eq]
  have hrows : Forall₂ Package.Retouched w.packages.tables.packages
      w'.packages.tables.packages := by
    rw [hpackages]
    exact hreturned.imp fun _ _ hpq => hpq.retouched
  have hdatasets : w'.packages.tables.datasets = w.packages.tables.datasets := by
    rw [hpackages]
    exact (congrArg Tables.datasets hrest :)
  refine ⟨by rw [hpackages]; rfl, hdatasets, ?_⟩
  refine h.of_counted hrows hdatasets htrue.dataset
    (fun l => leaf_of_truthful hf h.parented htrue hclaimed) hcounts.packages hcounts.datasets ?_
  rw [hcounts.organizations, if_pos horg]

/-- A request that is done keeps the totals rolled up. -/
theorem consistent_of_request {response : RestoreResponse}
    (h : w.packages.tables.Consistent w.packages.org)
    (hrun : requestBy send org datasetNode r userId w = (.done response, w')) :
    w'.packages.org = w.packages.org ∧ w'.packages.tables.datasets = w.packages.tables.datasets ∧
      w'.packages.tables.Consistent w.packages.org := by
  have hd := h.forest.toDistinct
  obtain ⟨-, d, us, hdataset, -, -, hafter⟩ := request_done hd hrun
  rw [hafter]
  refine ⟨rfl, rfl, h.of_evolves (Tables.evolves_change _ _ _) fun p q hpq => ?_⟩
  rw [hpq]
  split <;> rfl

/-- A turn keeps the totals rolled up, if it sends messages to the end of the queue and delivers no
other ones than true ones. -/
theorem RollsUp.turn (h : RollsUp org start w) (hsend : Appends k.send)
    (hqueued : (turn k command w).DeliversQueued start) :
    RollsUp org start (turn k command w).after := by
  obtain ⟨rfl, hconsistent, htruthful⟩ := h
  have hkept : (turn k command w).after.packages.org = w.packages.org ∧
      (turn k command w).after.packages.tables.datasets = w.packages.tables.datasets ∧
      (turn k command w).after.packages.tables.Consistent w.packages.org := by
    have hbefore : (w.under k).packages.tables.Consistent (w.under k).packages.org := hconsistent
    cases comes_turn k command hconsistent.forest.toDistinct with
    | request hcommand houtcome hrun => exact consistent_of_request (w := w.under k) hbefore hrun
    | delivery hcommand houtcome hrun =>
      exact consistent_of_delivery (w := w.under k) hbefore (htruthful _ (hqueued _ _ hcommand)) hrun
    | stopped hnot hsame =>
      rw [hsame]
      exact ⟨rfl, rfl, hbefore⟩
  obtain ⟨horg, hdatasets, hafter⟩ := hkept
  have hrows := (advances_turn k command hconsistent.forest).1.imp fun _ _ => Advances.retouched
  obtain ⟨sent, hqueue, hsent⟩ := exists_sent_of_turn command hconsistent.forest.toDistinct hsend
  refine ⟨horg, hafter, fun m hm => Truthful.of_rows ?_ hrows hdatasets⟩
  rw [hqueue, List.drop_append, List.mem_append] at hm
  rcases hm with hold | hnew
  · exact htruthful m hold
  · exact hsent m (List.mem_of_mem_drop hnew)

/-! ## Runs -/

/-- What holds of the start of such a run holds after each of its turns and at its end. -/
theorem RollsUp.run (h : RollsUp org start w) (hsend : ∀ step ∈ steps, Appends step.1.send)
    (hqueued : ∀ t ∈ turns steps w, t.DeliversQueued start) :
    (∀ t ∈ turns steps w, RollsUp org start t.after) ∧ RollsUp org start (run steps w) := by
  induction steps generalizing w with
  | nil => exact ⟨by simp [turns], h⟩
  | cons step steps ih =>
    obtain ⟨k, command⟩ := step
    rw [turns, List.forall_mem_cons] at hqueued
    rw [List.forall_mem_cons] at hsend
    have hnext := h.turn hsend.1 hqueued.1
    obtain ⟨hrest, hend⟩ := ih hnext hsend.2 hqueued.2
    exact ⟨List.forall_mem_cons.2 ⟨hnext, hrest⟩, hend⟩

/-- Storage totals that roll up do so after every turn of a run, whatever requests are made, and
whichever of the messages that they queue are delivered, in whatever order and however often, under
any faults. -/
theorem totals_roll_up (h : w.packages.tables.Consistent w.packages.org)
    (hsend : ∀ step ∈ steps, Appends step.1.send)
    (hqueued : ∀ t ∈ turns steps w, t.DeliversQueued w.queue.messages.length) :
    (∀ t ∈ turns steps w, t.after.packages.tables.Consistent w.packages.org) ∧
      (run steps w).packages.tables.Consistent w.packages.org := by
  have hstart : RollsUp w.packages.org w.queue.messages.length w := ⟨rfl, h, by simp⟩
  obtain ⟨hturns, hend⟩ := hstart.run hsend hqueued
  exact ⟨fun t ht => (hturns t ht).consistent, hend.consistent⟩

/-- In the small workspace, where a file was asked for and its message is delivered twice, the first
time while its content cannot be reached, the organization has the size of the file at the end. -/
theorem totals_roll_up_sample :
    ∃ steps, (run steps sample).packages.tables.organizationStorage.get 1 = 5 ∧
      (run steps sample).packages.tables.Consistent 1 := by
  let message : RestoreMessage :=
    ⟨1, 1, "user", ⟨4, "a", "__DELETED__a_A", some 3, .text, none⟩⟩
  let steps : List (Conditions × Command) :=
    [(.calm, .request 1 "N:dataset:1" ⟨["a"]⟩ "user"),
      ({ Conditions.calm with faults := ⟨[], true, 0⟩ }, .deliver sampleToken message),
      (.calm, .deliver sampleToken message)]
  have hconsistent : sample.packages.tables.Consistent sample.packages.org :=
    ⟨forest_sampleTables, by decide, by decide, by decide, by decide, by decide⟩
  have hsend : ∀ step ∈ steps, Appends step.1.send := by
    simp only [steps, List.forall_mem_cons]
    exact ⟨appends_send, appends_send, appends_send, by simp⟩
  have hqueued : ∀ t ∈ turns steps sample, t.DeliversQueued sample.queue.messages.length := by
    simp only [steps, turns, List.forall_mem_cons]
    refine ⟨?_, ?_, ?_, by simp⟩
    · rintro _ _ ⟨⟩
    · rintro _ _ ⟨⟩
      decide +kernel
    · rintro _ _ ⟨⟩
      decide +kernel
  exact ⟨steps, by decide +kernel, (totals_roll_up hconsistent hsend hqueued).2⟩

end Salvage.Workspace
