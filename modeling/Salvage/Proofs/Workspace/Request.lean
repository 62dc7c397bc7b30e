import Salvage.Proofs.Request
import Salvage.Proofs.Workspace.Delivery

/-!
# Requests are all or nothing

A request marks its packages and sends their messages in one transaction, so when a message cannot be
sent all marks are undone. What has been sent by then cannot be taken back; but no mark is ever
committed without its message.
-/

namespace Salvage.Workspace

open List (Forall₂)
open RestoreRequest (Marked grants messagesTo responseTo)

/-- A way to send puts each message at the end of the queue when it is done. When it is not, the
message may have arrived or not. -/
structure Appends (send : RestoreMessage → Action RestoreQueue Unit) : Prop where
  done : ∀ m q q', send m q = (.done (), q') → q'.messages = q.messages ++ [m]
  other : ∀ m q, (send m q).1.isDone = false →
    (send m q).2.messages = q.messages ∨ (send m q).2.messages = q.messages ++ [m]

/-- Every package that is marked for restoring has a message in the queue. -/
def MarksQueued (w : Workspace) : Prop :=
  ∀ p ∈ w.packages.tables.packages, p.state = .restoring →
    ∃ m ∈ w.queue.messages, m.datasetId = p.datasetId ∧ m.package.nodeId = p.nodeId

variable {send : RestoreMessage → Action RestoreQueue Unit} {q q' : RestoreQueue}
  {messages : List RestoreMessage} {w : Workspace} {org : Int} {datasetNode userId : String}
  {r : RestoreRequest}

/-! ## Sending -/

/-- Messages that are all sent arrive in their order. -/
theorem messages_of_each_send (hsend : Appends send) {us : List Unit}
    (h : Action.each send messages q = (.done us, q')) :
    q'.messages = q.messages ++ messages := by
  induction messages generalizing q us with
  | nil =>
    obtain ⟨-, rfl⟩ := Action.each_nil_eq_done.1 h
    rw [List.append_nil]
  | cons m messages ih =>
    obtain ⟨_, _, q₁, -, hfirst, hrest⟩ := Action.each_cons_eq_done.1 h
    rw [ih hrest, hsend.done m q q₁ hfirst, List.append_assoc, List.singleton_append]

/-- When messages are not all sent, those before one whose send is not done have arrived, and maybe
that one too. -/
theorem prefix_of_each_send (hsend : Appends send)
    (h : (Action.each send messages q).1.isDone = false) :
    (∃ m ∈ messages, ∃ q₁,
      (send m q₁).1 = (Action.each send messages q).1.map fun _ => ()) ∧
    ∃ arrived, arrived <+: messages ∧
      (Action.each send messages q).2.messages = q.messages ++ arrived := by
  obtain ⟨before, m, after, us, q₁, rfl, hbefore, hstop, houtcome, hqueue⟩ :=
    Action.each_not_done h
  have hsame : (send m q₁).1.map (fun _ => ()) = (send m q₁).1 := by
    cases (send m q₁).1 <;> rfl
  refine ⟨⟨m, by simp, q₁, hsame.symm.trans houtcome.symm⟩, ?_⟩
  rw [hqueue]
  rcases hsend.other m q₁ hstop with hlost | harrived
  · refine ⟨before, List.prefix_append _ _, ?_⟩
    rw [hlost, messages_of_each_send hsend hbefore]
  · refine ⟨before ++ [m], ⟨after, by simp⟩, ?_⟩
    rw [harrived, messages_of_each_send hsend hbefore, List.append_assoc]

/-- A request is decided by the organization, the dataset, and the sends. -/
theorem requestBy_apply (hd : w.packages.tables.Distinct) :
    requestBy send org datasetNode r userId w =
      if w.packages.org ≠ org then (.aborted, w)
      else
        match w.packages.tables.datasetByNode? datasetNode with
        | none => (.failed (.datasetNotFound org (.nodeId datasetNode)), w)
        | some d =>
          let sent := Action.each send (messagesTo w.packages.tables org d.id userId r.nodeIds) w.queue
          (sent.1.map fun _ => responseTo w.packages.tables d.id datasetNode r.nodeIds,
            { w with
              packages := if sent.1.isDone then
                { w.packages with
                  tables := RestoreRequest.marked w.packages.tables d.id r.nodeIds }
                else w.packages
              queue := sent.2 }) := by
  have hd' : w.packages.begin.working.Distinct := hd
  have hflow := RestoreRequest.accept_apply hd' send w.queue r datasetNode userId
  have htransact : requestBy send org datasetNode r userId w =
      let result := PackageStore.transact org .sound (r.accept send datasetNode userId)
        (w.packages, w.queue)
      (result.1, { w with packages := result.2.1, queue := result.2.2 }) := rfl
  rw [htransact]
  split
  · rename_i hother
    rw [PackageStore.transact, if_pos hother]
  · rename_i horg
    rw [not_not] at horg
    subst horg
    rw [PackageStore.transact_of_flow rfl hflow]
    change _ = match w.packages.begin.working.datasetByNode? datasetNode with
      | none => _
      | some d => _
    cases w.packages.begin.working.datasetByNode? datasetNode with
    | none => rfl
    | some d =>
      dsimp only
      rw [Outcome.isDone_map]
      rfl

/-- A request that is done has found its dataset and sent all messages, and its marks are
committed. -/
theorem request_done {response : RestoreResponse} {w' : Workspace}
    (hd : w.packages.tables.Distinct)
    (h : requestBy send org datasetNode r userId w = (.done response, w')) :
    w.packages.org = org ∧ ∃ d us, w.packages.tables.datasetByNode? datasetNode = some d ∧
      response = responseTo w.packages.tables d.id datasetNode r.nodeIds ∧
      Action.each send (messagesTo w.packages.tables org d.id userId r.nodeIds) w.queue =
        (.done us, w'.queue) ∧
      w' = { w with
        packages := { w.packages with
          tables := RestoreRequest.marked w.packages.tables d.id r.nodeIds }
        queue := w'.queue } := by
  rw [requestBy_apply hd] at h
  split at h
  · cases h
  · rename_i horg
    refine ⟨not_not.1 horg, ?_⟩
    split at h
    · cases h
    · rename_i d hdataset
      dsimp only at h
      rcases hsent : Action.each send (messagesTo w.packages.tables org d.id userId r.nodeIds)
        w.queue with ⟨us | e | _, q'⟩
      · rw [hsent] at h
        cases h
        exact ⟨d, us, hdataset, rfl, hsent, rfl⟩
      · rw [hsent] at h
        cases h
      · rw [hsent] at h
        cases h

/-- A request that is not done leaves everything but the queue alone. -/
theorem request_not_done {outcome : Outcome RestoreResponse} {w' : Workspace}
    (hd : w.packages.tables.Distinct)
    (h : requestBy send org datasetNode r userId w = (outcome, w'))
    (hnot : outcome.isDone = false) : w' = { w with queue := w'.queue } := by
  rw [requestBy_apply hd] at h
  split at h
  · cases h
    rfl
  · split at h
    · cases h
      rfl
    · cases h
      rw [Outcome.isDone_map] at hnot
      simp only [hnot, Bool.false_eq_true, if_false]

/-- A request that is not done was for another organization or an unknown dataset, or it stopped at a
send; then only the first messages, up to that one, have been sent. -/
theorem request_stopped {outcome : Outcome RestoreResponse} {w' : Workspace}
    (hd : w.packages.tables.Distinct) (hsend : Appends send)
    (h : requestBy send org datasetNode r userId w = (outcome, w'))
    (hnot : outcome.isDone = false) :
    outcome = .aborted ∧ w.packages.org ≠ org ∧ w'.queue = w.queue ∨
      outcome = .failed (.datasetNotFound org (.nodeId datasetNode)) ∧
        w.packages.tables.datasetByNode? datasetNode = none ∧ w'.queue = w.queue ∨
      ∃ d sent, w.packages.tables.datasetByNode? datasetNode = some d ∧
        sent <+: messagesTo w.packages.tables org d.id userId r.nodeIds ∧
        w'.queue.messages = w.queue.messages ++ sent ∧
        ∃ m ∈ messagesTo w.packages.tables org d.id userId r.nodeIds, ∃ q,
          (send m q).1 = outcome.map fun _ => () := by
  rw [requestBy_apply hd] at h
  split at h
  · rename_i hother
    cases h
    exact .inl ⟨rfl, hother, rfl⟩
  · split at h
    · rename_i hdataset
      cases h
      exact .inr (.inl ⟨rfl, hdataset, rfl⟩)
    · rename_i d hdataset
      cases h
      rw [Outcome.isDone_map] at hnot
      obtain ⟨⟨m, hm, q, hstop⟩, sent, hprefix, hmessages⟩ := prefix_of_each_send hsend hnot
      refine .inr (.inr ⟨d, sent, hdataset, hprefix, hmessages, m, hm, q, ?_⟩)
      rw [hstop, Outcome.map_map]

/-! ## All or nothing -/

/-- When the rows of some successes are marked, and their messages are in the queue with those from
before, every mark still has its message. -/
theorem MarksQueued.of_marked {w' : Workspace} {datasetId : Int} {success : List String}
    (h : MarksQueued w)
    (hrows : Forall₂ (Marked datasetId success) w.packages.tables.packages
      w'.packages.tables.packages)
    (hkept : w.queue.messages ⊆ w'.queue.messages)
    (hsent : ∀ n ∈ success, ∃ m ∈ w'.queue.messages, m.datasetId = datasetId ∧
      m.package.nodeId = n) : MarksQueued w' := by
  intro p' hp' hstate
  obtain ⟨p, hp, hmarked⟩ := exists_of_mem_right hrows hp'
  by_cases hin : p.nodeId ∈ success
  · obtain ⟨hdataset, -, rfl⟩ := hmarked.granted hin
    obtain ⟨m, hm, hown, hnode⟩ := hsent p.nodeId hin
    exact ⟨m, hm, hown.trans hdataset.symm, hnode⟩
  · obtain rfl := hmarked.other hin
    obtain ⟨m, hm, hown⟩ := h p' hp hstate
    exact ⟨m, hkept hm, hown⟩

/-- A request commits no mark without its message. -/
theorem MarksQueued.of_request {outcome : Outcome RestoreResponse} {w' : Workspace}
    (hqueued : MarksQueued w) (hd : w.packages.tables.Distinct) (hsend : Appends send)
    (h : requestBy send org datasetNode r userId w = (outcome, w')) : MarksQueued w' := by
  cases hdone : outcome.isDone with
  | true =>
    obtain ⟨response, rfl⟩ := Outcome.exists_of_isDone hdone
    obtain ⟨-, d, us, -, -, hsent, hstate⟩ := request_done hd h
    have hqueue := messages_of_each_send hsend hsent
    have hmessages := RestoreRequest.forall₂_messagesTo w.packages.tables org d.id datasetNode userId
      r.nodeIds
    have hrows := (RestoreRequest.evolves_marked hd d.id datasetNode r.nodeIds).rows
    have htables : w'.packages.tables = RestoreRequest.marked w.packages.tables d.id r.nodeIds := by
      rw [hstate]
    rw [← htables] at hrows
    refine hqueued.of_marked hrows ?_ fun n hn => ?_
    · rw [hqueue]
      exact List.subset_append_left _ _
    · obtain ⟨m, hm, p, -, -, hnode, -, rfl⟩ := exists_of_mem_left hmessages hn
      rw [hqueue]
      exact ⟨_, List.mem_append_right _ hm, rfl, hnode⟩
  | false =>
    have hkept : w.queue.messages ⊆ w'.queue.messages := by
      rcases request_stopped hd hsend h hdone with
        ⟨-, -, hsame⟩ | ⟨-, -, hsame⟩ | ⟨_, sent, -, -, hmore, -⟩
      · rw [hsame]
        exact List.Subset.refl _
      · rw [hsame]
        exact List.Subset.refl _
      · rw [hmore]
        exact List.subset_append_left _ _
    intro p hp hmark
    rw [request_not_done hd h hdone] at hp
    obtain ⟨m, hm, hown⟩ := hqueued p hp hmark
    exact ⟨m, hkept hm, hown⟩

/-- A request is all or nothing.

When it is done, an occurrence of a node id is a success exactly when it is the first one of a trashed
package of the dataset, and every other one is a failure; the queue has got one message for each
success, and the tables differ in these rows, which are marked now. When it is not done the tables
are the same and the queue has got no more than the first of these messages; that is so only for
another organization, for an unknown dataset, or when a send was not done. Either way no mark is
without its message if none was before. -/
theorem request_all_or_nothing {outcome : Outcome RestoreResponse} {w' : Workspace}
    (hd : w.packages.tables.Distinct) (hsend : Appends send)
    (h : requestBy send org datasetNode r userId w = (outcome, w')) :
    (∀ response, outcome = .done response →
      ∃ d sent, w.packages.tables.datasetByNode? datasetNode = some d ∧
        response.success =
          (r.nodeIds.zipIdx.filter (grants w.packages.tables d.id r.nodeIds)).map Prod.fst ∧
        response.failures =
          (r.nodeIds.zipIdx.filter fun o => !grants w.packages.tables d.id r.nodeIds o).map
            (fun o => RestoreRequest.failureFor datasetNode o.1) ∧
        sent = messagesTo w.packages.tables org d.id userId r.nodeIds ∧
        w'.queue.messages = w.queue.messages ++ sent ∧
        Forall₂ (fun n m => ∃ p ∈ w.packages.tables.packages, p.datasetId = d.id ∧
          p.nodeId = n ∧ p.state = .deleted ∧
          m = ⟨org, d.id, userId, ⟨p.id, p.nodeId, p.name, p.parentId, p.kind, none⟩⟩)
          response.success sent ∧
        w.packages.tables.Evolves (Marked d.id response.success) w'.packages.tables ∧
        w' = { w with
          packages := { w.packages with tables := w'.packages.tables }, queue := w'.queue }) ∧
    (outcome.isDone = false →
      w' = { w with queue := w'.queue } ∧
        (outcome = .aborted ∧ w.packages.org ≠ org ∧ w'.queue = w.queue ∨
          outcome = .failed (.datasetNotFound org (.nodeId datasetNode)) ∧
            w.packages.tables.datasetByNode? datasetNode = none ∧ w'.queue = w.queue ∨
          ∃ d sent, w.packages.tables.datasetByNode? datasetNode = some d ∧
            sent <+: messagesTo w.packages.tables org d.id userId r.nodeIds ∧
            w'.queue.messages = w.queue.messages ++ sent ∧
            ∃ m ∈ messagesTo w.packages.tables org d.id userId r.nodeIds, ∃ q,
              (send m q).1 = outcome.map fun _ => ())) ∧
    (MarksQueued w → MarksQueued w') := by
  refine ⟨fun response hresponse => ?_, fun hnot => ?_, fun hqueued => ?_⟩
  · rw [hresponse] at h
    obtain ⟨rfl, d, us, hdataset, rfl, hsent, hstate⟩ := request_done hd h
    have hmessages := RestoreRequest.forall₂_messagesTo w.packages.tables w.packages.org d.id
      datasetNode userId r.nodeIds
    have hrows := RestoreRequest.evolves_marked hd d.id datasetNode r.nodeIds
    refine ⟨d, _, hdataset, rfl, rfl, rfl, messages_of_each_send hsend hsent, hmessages, ?_, ?_⟩
    · rwa [hstate]
    · rw [hstate]
  · exact ⟨request_not_done hd h hnot, request_stopped hd hsend h hnot⟩
  · exact hqueued.of_request hd hsend h

/-- The queue of the workspace puts messages at its end. -/
theorem appends_send : Appends RestoreQueue.send where
  done m q q' h := by
    rw [RestoreQueue.send, Action.get_bind_apply] at h
    split at h
    · cases h
    · rw [Action.set_eq_done.1 h]
  other m q h := by
    rw [RestoreQueue.send, Action.get_bind_apply] at h ⊢
    split
    · exact .inl rfl
    · rename_i hup
      rw [if_neg hup] at h
      cases h

/-- In the small workspace a request for a trashed file, named twice, for no package and for the
marked folder is granted once. -/
theorem request_all_or_nothing_sample :
    ∃ w', requestBy RestoreQueue.send 1 "N:dataset:1" ⟨["a", "x", "a", "f"]⟩ "user" sample =
        (.done ⟨["a"], ["x", "a", "f"].map (RestoreRequest.failureFor "N:dataset:1")⟩, w') ∧
      w'.queue.messages = [⟨1, 1, "user", ⟨4, "a", "__DELETED__a_A", some 3, .text, none⟩⟩] := by
  rcases hrun : requestBy RestoreQueue.send 1 "N:dataset:1" ⟨["a", "x", "a", "f"]⟩ "user" sample
    with ⟨outcome, w'⟩
  have houtcome : outcome =
      .done ⟨["a"], ["x", "a", "f"].map (RestoreRequest.failureFor "N:dataset:1")⟩ := by
    have heval : (requestBy RestoreQueue.send 1 "N:dataset:1" ⟨["a", "x", "a", "f"]⟩ "user"
        sample).1 = .done ⟨["a"], ["x", "a", "f"].map (RestoreRequest.failureFor "N:dataset:1")⟩ := by
      decide +kernel
    rwa [hrun] at heval
  obtain ⟨hdone, -, -⟩ := request_all_or_nothing forest_sampleTables.toDistinct appends_send hrun
  obtain ⟨d, sent, hdataset, -, -, hsent, hqueue, -⟩ := hdone _ houtcome
  obtain rfl : d = ⟨1, "Dataset", some "N:dataset:1"⟩ := by
    have hfound : sampleTables.datasetByNode? "N:dataset:1" =
        some ⟨1, "Dataset", some "N:dataset:1"⟩ := by decide
    exact Option.some.inj (hdataset.symm.trans hfound)
  refine ⟨w', by rw [houtcome], ?_⟩
  rw [hqueue, hsent]
  decide +kernel

end Salvage.Workspace
