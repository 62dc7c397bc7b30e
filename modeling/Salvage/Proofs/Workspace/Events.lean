import Salvage.Proofs.Restoration.Events
import Salvage.Proofs.Workspace.Delivery

/-!
# What a folder restore reports

The events of a folder restore that is done, compared with the committed rows before and after it: one
event for each row that came back, folders before what is in them, and nothing in an event that the
rows do not say.
-/

namespace Salvage.Workspace

open List (Forall₂)

/-- Events tell the truth about a folder and the packages that are restored below it. -/
structure TruthfulEvents (t t' : Tables) (way : Traversal) (datasetId : Int) (folder : Package)
    (below : List Package) (events : List Event) : Prop where
  covers : ∀ p, p ∈ below ↔ t.Covers way datasetId folder.id .deleted p
  /-- The packages with events are those whose states changed. -/
  changed : Forall₂ (fun p q => q.state ≠ p.state ↔ p ∈ folder :: below) t.packages t'.packages
  once : (folder :: below).Nodup
  order : (folder :: below).Pairwise fun p q => ¬ t.IsAncestor q.id p.id
  first : ∀ e ∈ events.head?, e.parent = none
  tells : Forall₂
    (Restoration.Tells t' ((folder :: below).filter fun p => p.kind.isCollection))
    (folder :: below) events

variable {token : Int → String} {m : RestoreMessage} {w w' : Workspace} {events : List Event}

/-- The events of a folder message that is handled tell the truth: first there is one for the marked
folder that the message names, without a parent, and then one for each package that is restored below
the folder. -/
theorem restore_folder_events (hf : w.packages.tables.Forest)
    (hfolder : m.package.kind.isCollection) (h : restore token m w = (.done events, w')) :
    ∃ folder ∈ w.packages.tables.packages, folder.datasetId = m.datasetId ∧
      folder.nodeId = m.package.nodeId ∧ folder.kind.isCollection ∧ folder.state = .restoring ∧
      ∃ below, TruthfulEvents w.packages.tables w'.packages.tables w.packages.way m.datasetId folder
        below events := by
  obtain ⟨-, tx, content, hflow, rfl⟩ := restore_eq_done.1 h
  obtain ⟨-, hrows, -⟩ := Restoration.rows_restore hf hflow
  rw [Restoration.restore, if_pos hfolder] at hflow
  obtain ⟨folder, hclaimed, hkind, htells, hfirst⟩ := Restoration.tells_restoreFolder hf hflow
  obtain ⟨hmem, hdataset, hnode, hstate⟩ := Restoration.of_claimed? hclaimed
  rw [Restoration.takenRows_of_folder hclaimed hfolder] at hrows
  refine ⟨folder, hmem, hdataset, hnode, hkind, hstate,
    w.packages.tables.descendants w.packages.way m.datasetId folder.id .deleted, ?_⟩
  rw [report_eq]
  refine ⟨fun p => hf.mem_descendants_iff, hrows.imp fun p q hback => hback.state_ne_iff,
    List.nodup_cons.2 ⟨Restoration.claimed_not_mem_descendants hclaimed, hf.nodup_descendants⟩,
    Restoration.pairwise_takenRows hf, fun e he => ?_, htells⟩
  rwa [he] at hfirst

/-- The small workspace, where two files below the folder had the same name. -/
def rivals : Workspace :=
  { sample with packages.tables := sampleTables.changeId 6 (·.rename "__DELETED__c_B") }

/-- The second file comes back under another name, and the file in the inner folder names that. -/
theorem restore_folder_events_rivals :
    ∃ events w', restore sampleToken sampleMessage rivals = (.done events, w') ∧
      events.map (fun e => (e.nodeId, e.name, e.formerName, e.parent.map EventParent.nodeId)) =
        [("f", "F", none, none), ("g", "G", none, some "f"), ("b", "B", none, some "f"),
          ("c", "B-restored_1", some "B", some "f"), ("a", "A", none, some "g")] ∧
      ∃ folder below, TruthfulEvents rivals.packages.tables w'.packages.tables .bounded 1 folder
        below events := by
  obtain ⟨events, h⟩ := restore_of_isDone sampleToken sampleMessage rivals (by decide +kernel)
  have hforest : rivals.packages.tables.Forest :=
    Tables.forest_of_lt (by decide) (by decide) (by decide)
  obtain ⟨folder, -, -, -, -, -, below, htruth⟩ := restore_folder_events hforest rfl h
  refine ⟨events, _, h, Outcome.done.inj ?_, folder, below, htruth⟩
  have hevents : Outcome.done events = (restore sampleToken sampleMessage rivals).1 :=
    (congrArg Prod.fst h).symm
  rw [← Outcome.map, hevents]
  decide +kernel

end Salvage.Workspace
