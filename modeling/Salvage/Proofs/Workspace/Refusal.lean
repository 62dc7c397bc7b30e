import Salvage.Proofs.Workspace.States

/-!
# Messages without a mark

A message is of use only while its package is marked for restoring. Every other one is refused before
anything is changed or asked of the content, whether it is a message that came too late, that came
twice, or that a request left behind without committing its marks. Nothing is assumed of the tree here,
only that node ids occur once.
-/

namespace Salvage

open List (Forall₂)

/-- Why a message whose package is not marked is refused. -/
inductive Refusal (t : Tables) (m : RestoreMessage) : Error → Prop
  | missing : m.package.kind.isCollection →
      (∀ p ∈ t.packages, p.datasetId = m.datasetId → p.nodeId ≠ m.package.nodeId) →
      Refusal t m (.folderNotFound m.org (.id m.datasetId) m.package.nodeId none)
  | leaf {p : Package} : m.package.kind.isCollection → p ∈ t.packages →
      p.datasetId = m.datasetId → p.nodeId = m.package.nodeId → ¬ p.kind.isCollection →
      Refusal t m (.folderNotFound m.org (.id m.datasetId) m.package.nodeId (some p.kind))
  | unmarked : (m.package.kind.isCollection → ∃ p ∈ t.packages, p.datasetId = m.datasetId ∧
      p.nodeId = m.package.nodeId ∧ p.kind.isCollection) →
      Refusal t m (.packageNotFound m.org (some (.id m.datasetId)) (.nodeId m.package.nodeId))

/-- There is always a reason to refuse a message. -/
theorem exists_refusal (t : Tables) (m : RestoreMessage) : ∃ e, Refusal t m e := by
  by_cases hthere : ∃ p ∈ t.packages, p.datasetId = m.datasetId ∧ p.nodeId = m.package.nodeId
  · obtain ⟨p, hp, hdataset, hnode⟩ := hthere
    by_cases hleaf : m.package.kind.isCollection ∧ ¬ p.kind.isCollection
    · exact ⟨_, .leaf hleaf.1 hp hdataset hnode hleaf.2⟩
    · exact ⟨_, .unmarked fun hfolder =>
        ⟨p, hp, hdataset, hnode, not_not.1 fun hnot => hleaf ⟨hfolder, hnot⟩⟩⟩
  · by_cases hfolder : m.package.kind.isCollection
    · exact ⟨_, .missing hfolder fun p hp hdataset hnode => hthere ⟨p, hp, hdataset, hnode⟩⟩
    · exact ⟨_, .unmarked fun h => absurd h hfolder⟩

namespace Restoration

variable {tx tx' : Transaction} {c c' : Content} {token : Int → String} {m : RestoreMessage}
  {events : List Event} {e : Error}

/-- A message whose package is not marked is refused for the reason there is, and the flow does nothing
else. -/
theorem restore_of_refusal (token : Int → String) (c : Content) (hd : tx.working.Distinct)
    (horg : tx.org = m.org) (hnone : claimed? tx.working m = none)
    (h : Refusal tx.working m e) : restore token m (tx, c) = (.failed e, (tx, c)) := by
  have hclaim := claim_of_not_claimed c hnone
  have hcheck := checkFolder_apply m tx
  rw [restore]
  rw [horg] at hclaim hcheck
  cases h with
  | missing hfolder hmissing =>
    have hrow : tx.working.packageByNode? m.datasetId m.package.nodeId = none := by
      refine List.find?_eq_none.2 fun p hp => ?_
      simpa using hmissing p hp
    rw [hrow] at hcheck
    rw [if_pos hfolder]
    exact Action.bind_of_failed (Action.on_apply_of hcheck)
  | @leaf p hfolder hp hdataset hnode hleaf =>
    rw [hd.packageByNode?_eq_some_iff.2 ⟨hp, hdataset, hnode⟩] at hcheck
    rw [if_pos hfolder]
    exact Action.bind_of_failed (Action.on_apply_of (hcheck.trans (if_neg hleaf)))
  | unmarked hthere =>
    split
    · rename_i hfolder
      obtain ⟨p, hp, hdataset, hnode, hkind⟩ := hthere hfolder
      rw [hd.packageByNode?_eq_some_iff.2 ⟨hp, hdataset, hnode⟩] at hcheck
      have hfirst : inTransaction (checkFolder m) (tx, c) = (.done (), (tx, c)) :=
        Action.on_apply_of (hcheck.trans (if_pos hkind))
      rw [restoreFolder, Action.bind_of_done hfirst]
      exact Action.bind_of_failed hclaim
    · exact Action.bind_of_failed hclaim

/-- A move that is done leaves a row with the node id in the new state. -/
theorem exists_moved {datasetId : Int} {nodeId : String} {expected target : Package.State}
    {moved : Package}
    (h : Transaction.move datasetId nodeId expected target tx = (.done moved, tx')) :
    ∃ p ∈ tx'.working.packages, p.nodeId = nodeId ∧ p.state = target := by
  obtain ⟨p, hp, -, rfl⟩ := Transaction.move_eq_done.1 h
  have hfits := List.find?_some hp
  simp only [Bool.and_eq_true, beq_iff_eq] at hfits
  refine ⟨p.moveTo target, List.mem_map.2 ⟨p, List.mem_of_find?_eq_some hp, ?_⟩, hfits.1.2, rfl⟩
  simp

/-- A restore that is done leaves packages with different numbers and node ids. -/
theorem distinct_restore (hd : tx.working.Distinct)
    (h : restore token m (tx, c) = (.done events, (tx', c'))) : tx'.working.Distinct := by
  obtain ⟨-, tx₁, tx₂, hbefore, hleaves, hafter⟩ := restore_leaves hd.keyed h
  have hrows := hafter.working.rows
  rw [packages_restoreLeaves hleaves] at hrows
  exact (hd.of_rows hbefore.working.rows).of_rows hrows

/-- A restore that is done leaves the row of its message in a state for restored packages. -/
theorem state_of_restore (hd : tx.working.Distinct)
    (h : restore token m (tx, c) = (.done events, (tx', c'))) :
    ∀ p ∈ tx'.working.packages, p.nodeId = m.package.nodeId → ∃ k, p.state = .restored k := by
  have hd' := distinct_restore hd h
  obtain ⟨p, hp, hnode, hstate⟩ : ∃ p ∈ tx'.working.packages, p.nodeId = m.package.nodeId ∧
      ∃ k, p.state = .restored k := by
    rw [restore] at h
    split at h
    · obtain ⟨p, q, infos, folder, others, us, moved, tx₁, tx₂, tx₃, tx₄, hp, -, -, -, -, -, -, -,
        hmove, -⟩ := restoreFolder_done hd.keyed h
      obtain ⟨r, hr, hnode, hready⟩ := exists_moved hmove
      exact ⟨r, hr, hnode.trans (of_claimed? hp).2.2.1, .collection, hready⟩
    · obtain ⟨p, restored, tx₁, tx₂, hp, -, -, hfinish, -⟩ := restoreLeaf_done h
      obtain ⟨moved, hmove⟩ := finish_done hfinish
      obtain ⟨r, hr, hnode, hback⟩ := exists_moved hmove
      exact ⟨r, hr, hnode.trans (of_claimed? hp).2.2.1, _, hback⟩
  intro q hq hown
  rwa [hd'.eq_of_nodeId hq hp (hown.trans hnode.symm)]

end Restoration

namespace Workspace

variable {token : Int → String} {m : RestoreMessage} {w w' : Workspace} {events : List Event}

/-- Deliveries of a message are refused for the reason there is, and change nothing. -/
def Refused (m : RestoreMessage) (w : Workspace) : Prop :=
  (∃ e, Refusal w.packages.tables m e) ∧
    ∀ e, Refusal w.packages.tables m e → ∀ token, restore token m w = (.failed e, w)

/-- A message is refused if its package is not marked. -/
theorem refused_of_unmarked (hd : w.packages.tables.Distinct) (horg : m.org = w.packages.org)
    (h : ∀ p ∈ w.packages.tables.packages, p.datasetId = m.datasetId →
      p.nodeId = m.package.nodeId → p.state ≠ .restoring) : Refused m w := by
  have hnone : Restoration.claimed? w.packages.begin.working m = none := by
    refine List.find?_eq_none.2 fun p hp hfits => ?_
    simp only [Bool.and_eq_true, beq_iff_eq] at hfits
    exact h p hp hfits.1.1 hfits.1.2 hfits.2
  refine ⟨exists_refusal _ m, fun e he token => ?_⟩
  have hflow : Restoration.restore token m (w.packages.begin, w.content) =
      (.failed e, (w.packages.begin, w.content)) :=
    Restoration.restore_of_refusal token w.content hd horg.symm hnone he
  rw [restore_apply, PackageStore.transact_of_flow horg.symm hflow]
  rfl

/-- A message is refused if its package has come all the way. -/
theorem refused_of_reached (hd : w.packages.tables.Distinct) (horg : m.org = w.packages.org)
    (h : Reached m.package.nodeId 2 w) : Refused m w := by
  refine refused_of_unmarked hd horg fun p hp _ hnode hmarked => ?_
  have hstage := h p hp hnode
  rw [hmarked] at hstage
  exact absurd hstage (by decide)

/-- A delivery that is done leaves the package of its message as far as a package can come. -/
theorem reached_of_restore (hd : w.packages.tables.Distinct)
    (h : restore token m w = (.done events, w')) :
    w'.packages.tables.Distinct ∧ m.org = w'.packages.org ∧ Reached m.package.nodeId 2 w' := by
  obtain ⟨horg, tx, content, hflow, rfl⟩ := restore_eq_done.1 h
  have hbegin : w.packages.begin.working.Distinct := hd
  rw [report_eq]
  refine ⟨Restoration.distinct_restore hbegin hflow, horg.symm, fun p hp hnode => ?_⟩
  obtain ⟨k, hstate⟩ := Restoration.state_of_restore hbegin hflow p hp hnode
  rw [hstate, Package.State.stage_restored]

/-- A turn leaves the organization of the packages alone. -/
theorem org_turn (k : Conditions) (command : Command) (hd : w.packages.tables.Distinct) :
    (turn k command w).after.packages.org = w.packages.org := by
  have hd' : (turn k command w).before.packages.tables.Distinct := hd
  have hbefore : (turn k command w).before.packages.org = w.packages.org := rfl
  rw [← hbefore]
  cases comes_turn k command hd with
  | request _ _ hrun =>
    obtain ⟨-, d, us, -, -, -, hstate⟩ := request_done hd' hrun
    rw [hstate]
  | delivery _ _ hrun =>
    obtain ⟨-, tx, content, -, hstate⟩ := restore_eq_done.1 hrun
    rw [hstate, report_eq]
    rfl
  | stopped _ hsame => rw [hsame]

/-- A message that a request has sent is refused if the request is not done. -/
theorem refused_of_request_not_done {send : RestoreMessage → Action RestoreQueue Unit} {org : Int}
    {datasetNode userId : String} {r : RestoreRequest} {outcome : Outcome RestoreResponse}
    (hd : w.packages.tables.Distinct) (hsend : Appends send)
    (h : requestBy send org datasetNode r userId w = (outcome, w'))
    (hnot : outcome.isDone = false) :
    ∃ sent, w'.queue.messages = w.queue.messages ++ sent ∧ ∀ m ∈ sent, Refused m w' := by
  have hkept := request_not_done hd h hnot
  have hnone (hqueue : w'.queue = w.queue) :
      ∃ sent, w'.queue.messages = w.queue.messages ++ sent ∧ ∀ m ∈ sent, Refused m w' :=
    ⟨[], by rw [hqueue, List.append_nil], List.forall_mem_nil _⟩
  by_cases horg : w.packages.org = org
  · rcases request_stopped hd hsend h hnot with
      ⟨-, -, hqueue⟩ | ⟨-, -, hqueue⟩ | ⟨d, sent, -, hinitial, hqueue, -⟩
    · exact hnone hqueue
    · exact hnone hqueue
    · refine ⟨sent, hqueue, fun m hm => ?_⟩
      have hmessages := RestoreRequest.forall₂_messagesTo w.packages.tables org d.id datasetNode
        userId r.nodeIds
      obtain ⟨_, -, p, hp, -, -, hdeleted, rfl⟩ :=
        exists_of_mem_left hmessages.flip (hinitial.subset hm)
      rw [hkept]
      refine refused_of_unmarked hd horg.symm fun q hq _ hnode hmarked => ?_
      rw [hd.eq_of_nodeId hq hp hnode, hdeleted] at hmarked
      cases hmarked
  · rw [requestBy_apply hd, if_pos horg] at h
    cases h
    exact hnone rfl

/-- A message for the organization of the workspace whose package is not marked is refused, and so are
a message that was handled, at once and after any run, and the messages that a request has sent and then
was not done. -/
theorem refused_without_mark (hd : w.packages.tables.Distinct) :
    (∀ m : RestoreMessage, m.org = w.packages.org →
      (∀ p ∈ w.packages.tables.packages, p.datasetId = m.datasetId →
        p.nodeId = m.package.nodeId → p.state ≠ .restoring) → Refused m w) ∧
    (∀ token m events w', restore token m w = (.done events, w') →
      Refused m w' ∧ (w'.packages.tables.Forest → ∀ steps, Refused m (run steps w'))) ∧
    ∀ send, Appends send → ∀ org datasetNode r userId outcome w',
      requestBy send org datasetNode r userId w = (outcome, w') → outcome.isDone = false →
      ∃ sent, w'.queue.messages = w.queue.messages ++ sent ∧ ∀ m ∈ sent, Refused m w' := by
  refine ⟨fun m => refused_of_unmarked hd, fun token m events w' h => ?_,
    fun send hsend org datasetNode r userId outcome w' h hnot =>
      refused_of_request_not_done hd hsend h hnot⟩
  obtain ⟨hd', horg, hreached⟩ := reached_of_restore hd h
  refine ⟨refused_of_reached hd' horg hreached, fun hf steps => ?_⟩
  have hend := (forall_turns steps (P := fun _ => True)
    (I := fun w => w.packages.tables.Forest ∧ m.org = w.packages.org ∧ Reached m.package.nodeId 2 w)
    (fun k command w hw => ⟨forest_turn k command hw.1,
      hw.2.1.trans (org_turn k command hw.1.toDistinct).symm, reached_turn k command hw.1 hw.2.2⟩)
    (fun _ _ _ _ => trivial) ⟨hf, horg, hreached⟩).2
  exact refused_of_reached hend.1.toDistinct hend.2.1 hend.2.2

/-- In the small workspace a message for a trashed file is refused, and the message for the folder is
refused when it comes again. -/
theorem refused_without_mark_sample :
    restore sampleToken ⟨1, 1, "user", ⟨4, "a", "A", none, .collection, none⟩⟩ sample =
        (.failed (.folderNotFound 1 (.id 1) "a" (some .text)), sample) ∧
      restore sampleToken ⟨1, 1, "user", ⟨4, "a", "A", none, .text, none⟩⟩ sample =
        (.failed (.packageNotFound 1 (some (.id 1)) (.nodeId "a")), sample) ∧
      ∃ events w', restore sampleToken sampleMessage sample = (.done events, w') ∧
        Refused sampleMessage w' := by
  obtain ⟨hunmarked, hagain, -⟩ := refused_without_mark (w := sample) forest_sampleTables.toDistinct
  obtain ⟨events, h⟩ := restore_of_isDone sampleToken sampleMessage sample (by decide +kernel)
  refine ⟨?_, ?_, events, _, h, (hagain _ _ _ _ h).1⟩
  · exact (hunmarked ⟨1, 1, "user", ⟨4, "a", "A", none, .collection, none⟩⟩ rfl (by decide)).2 _
      (.leaf (p := ⟨4, "__DELETED__a_A", .text, .deleted, "a", some 3, 1, 1, none, false⟩) rfl
        (by decide) rfl rfl (by decide)) _
  · exact (hunmarked ⟨1, 1, "user", ⟨4, "a", "A", none, .text, none⟩⟩ rfl (by decide)).2 _
      (.unmarked fun h => absurd h (by decide)) _

end Workspace

end Salvage
