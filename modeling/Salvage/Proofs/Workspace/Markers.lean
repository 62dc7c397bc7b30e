import Salvage.Proofs.Workspace.Run
import Salvage.Proofs.Workspace.Storage

/-!
# Delete records and delete markers in a run

Delete records and stored versions are not part of any transaction, so every delivery leaves its
traces in them, whether it is done or not. Whatever the faults are, the two never get out of step in
the way that loses content: a record is not gone before its marker is. And what a delivery that is
done has brought back is hidden by nothing any more.
-/

namespace Salvage.Workspace

variable {w w' : Workspace} {k : Conditions} {command : Command}
  {steps : List (Conditions × Command)} {token : Int → String} {m : RestoreMessage}
  {events : List Event} {l : Package}

/-- Different version ids under each key. -/
def VersionsDiffer (w : Workspace) : Prop :=
  ∀ bucket key,
    ((w.content.objects.versions bucket key).map StoredVersion.versionId).Nodup

/-- Version ids differ under each key if they do in each object. -/
theorem versionsDiffer_of_objects
    (h : ∀ o ∈ w.content.objects.objects, (o.versions.map StoredVersion.versionId).Nodup) :
    VersionsDiffer w :=
  ObjectTable.nodup_versions h

/-- A leaf is not hidden: it has no delete record, and the marker that its record told of before is
not stored. -/
structure Uncovered (w : Workspace) (l : Package) (w' : Workspace) : Prop where
  record : w'.content.recordOf l.nodeId = none
  marker : ∀ r, w.content.recordOf l.nodeId = some r → r.versionId ≠ "" →
    ∀ s ∈ w'.content.objects.versions r.bucket r.key, s.versionId ≠ r.versionId

/-! ## One turn -/

/-- What is carried out takes away no delete records but those of content that is not hidden any
more. -/
theorem within_carryOut (send : RestoreMessage → Action RestoreQueue Unit) (command : Command) :
    Action.Within (Order.Preimage Workspace.content Content.Clears) (carryOut send command) := by
  cases command with
  | request org datasetNode r userId =>
    have hrequest : Action.Within (Order.Preimage Workspace.content Content.Clears)
        (requestBy send org datasetNode r userId) :=
      fun w => Std.Refl.refl (r := Content.Clears) w.content
    exact hrequest.bind fun _ => Action.within_pure _
  | deliver token m =>
    have hdelivery : Action.Within (Order.Preimage Workspace.content Content.Clears)
        (restore token m) := clears_restore token m
    exact hdelivery.bind fun _ => Action.within_pure _

/-- Different version ids stay different when versions are taken out. -/
theorem VersionsDiffer.of_inStep (h : VersionsDiffer w) (hstep : w.content.InStep w'.content) :
    VersionsDiffer w' :=
  fun bucket key => (h bucket key).sublist ((hstep.fewer bucket key).map _)

/-- A delivery that is done leaves nothing that hides the leaves it brought back. -/
theorem uncovered_of_restore (hf : w.packages.tables.Forest) (hids : VersionsDiffer w)
    (h : restore token m w = (.done events, w'))
    (hl : Brings w.packages.tables w.packages.way m l) : Uncovered w l w' := by
  obtain ⟨hclaimed, -⟩ := counts_of_restore hf.keyed h
  obtain ⟨found, hcleared⟩ := cleared_of_restore hf.keyed h
  have hleaf : l.nodeId ∈ (Restoration.leafRows w.packages.tables w.packages.way m).map
      Package.nodeId := List.mem_map_of_mem ((mem_leafRows_iff hf hclaimed).2 hl)
  refine ⟨?_, fun r hr hhidden s hs => ?_⟩
  · exact (hcleared.emptied.recordOf_eq l.nodeId).trans (if_pos hleaf)
  · have hnode : r.nodeId = l.nodeId := RecordSet.nodeId_of_find? hr
    rw [← hnode] at hleaf hr
    exact hcleared.ne_of_mem_versions (hids r.bucket r.key) hleaf hr hhidden hs

/-- A turn that is a delivery and done has restored a message. -/
theorem restore_of_turn (hd : w.packages.tables.Distinct)
    (hcommand : (turn k command w).command = .deliver token m)
    (houtcome : (turn k command w).outcome = .done (.restored events)) :
    restore token m (turn k command w).before = (.done events, (turn k command w).after) := by
  cases comes_turn k command hd with
  | request hrequest =>
    rw [hcommand] at hrequest
    cases hrequest
  | delivery hdelivery hdone hrun =>
    rw [hcommand] at hdelivery
    rw [houtcome] at hdone
    cases hdelivery
    cases hdone
    exact hrun
  | stopped hnot =>
    rw [houtcome] at hnot
    cases hnot

/-! ## Whole runs -/

/-- A turn of a run from a workspace with a forest of packages: at its start and at its end no more
of the content is gone than what is not hidden any more. -/
structure TurnOf (w : Workspace) (t : Turn) : Prop where
  forest : t.before.packages.tables.Forest
  before : w.content.Clears t.before.content
  after : w.content.Clears t.after.content
  restores : ∀ token m events, t.command = .deliver token m →
    t.outcome = .done (.restored events) → restore token m t.before = (.done events, t.after)

/-- All turns of a run are such turns, and what is gone at its end is not hidden any more either. -/
theorem turnOf_turns (steps : List (Conditions × Command)) (hf : w.packages.tables.Forest) :
    (∀ t ∈ turns steps w, TurnOf w t) ∧ w.content.Clears (run steps w).content := by
  have hkept : ∀ k command v, v.packages.tables.Forest ∧ w.content.Clears v.content →
      (turn k command v).after.packages.tables.Forest ∧
        w.content.Clears (turn k command v).after.content := by
    intro k command v hv
    refine ⟨forest_turn k command hv.1, IsTrans.trans (r := Content.Clears) _ _ _ hv.2 ?_⟩
    exact within_carryOut k.send command (v.under k)
  have hturn : ∀ k command v, v.packages.tables.Forest ∧ w.content.Clears v.content →
      TurnOf w (turn k command v) := by
    intro k command v hv
    exact ⟨hv.1, hv.2, (hkept k command v hv).2, fun _ _ _ => restore_of_turn hv.1.toDistinct⟩
  obtain ⟨hturns, -, hend⟩ := forall_turns steps hkept hturn
    ⟨hf, Std.Refl.refl (r := Content.Clears) w.content⟩
  exact ⟨hturns, hend⟩

/-- Delete records and stored versions stay in step in every run, whatever its faults are: at its end
and after each of its turns. And a delivery that is done leaves nothing that hides the leaves it
brought back. -/
theorem content_in_step (steps : List (Conditions × Command)) (hf : w.packages.tables.Forest)
    (hids : VersionsDiffer w) :
    w.content.InStep (run steps w).content ∧
      ∀ t ∈ turns steps w, w.content.InStep t.after.content ∧
        ∀ token m events, t.command = .deliver token m → t.outcome = .done (.restored events) →
          ∀ l, Brings t.before.packages.tables t.before.packages.way m l →
            Uncovered t.before l t.after := by
  obtain ⟨hturns, hend⟩ := turnOf_turns steps hf
  refine ⟨hend.inStep hids, fun t ht => ?_⟩
  have hturn := hturns t ht
  refine ⟨hturn.after.inStep hids, fun token m events hcommand houtcome l hl => ?_⟩
  exact uncovered_of_restore hturn.forest (hids.of_inStep (hturn.before.inStep hids))
    (hturn.restores token m events hcommand houtcome) hl

/-- The message for a folder, which comes while one of the keys fails and once more after that. -/
def faultySteps : List (Conditions × Command) :=
  [({ Conditions.calm with faults := ⟨["y"], false, 0⟩ }, .deliver sampleToken sampleMessage),
    (.calm, .deliver sampleToken sampleMessage)]

/-- In the small workspace the first delivery fails, but the record that it removed told of a marker
that is not stored any more. -/
theorem content_in_step_sample :
    ∃ t₁ t₂, turns faultySteps sample = [t₁, t₂] ∧ t₁.outcome.isDone = false ∧
      t₁.after.content.recordOf "a" = none ∧
      ∀ s ∈ t₁.after.content.objects.versions "store" "x", s.versionId ≠ "v" := by
  have hids : VersionsDiffer sample := versionsDiffer_of_objects (by decide)
  obtain ⟨-, hturns⟩ := content_in_step faultySteps forest_sampleTables hids
  have hrecord : (turns faultySteps sample)[0].after.content.recordOf "a" = none := by
    decide +kernel
  refine ⟨_, _, rfl, by decide +kernel, hrecord, ?_⟩
  have hgone := (hturns _ List.mem_cons_self).1.gone ⟨"a", "store", "x", "v", some 5⟩ rfl hrecord
  exact hgone.resolve_left (by decide)

end Salvage.Workspace
