import Salvage.Proofs.Restoration.Rows
import Salvage.Proofs.Workspace.Delivery

/-!
# What a folder restore restores

The committed rows before and after a folder restore, in terms of the forest of packages alone: the
folder and all that a move of its trashed descendants covers have come back, and nothing else has
changed.
-/

namespace Salvage.Workspace

open List (Forall₂)

/-- A row before and after the restore of a folder from a dataset. -/
structure RestoredRow (t : Tables) (way : Traversal) (datasetId : Int) (folder p p' : Package) :
    Prop where
  fixed : p'.fixed = p.fixed
  changed : p'.state ≠ p.state ∨ p'.name ≠ p.name ↔
    p = folder ∨ t.Covers way datasetId folder.id .deleted p
  target : p = folder → p'.state = .ready
  subfolder : t.Covers way datasetId folder.id .deleted p → p.kind.isCollection → p'.state = .ready
  leaf : t.Covers way datasetId folder.id .deleted p → ¬ p.kind.isCollection →
    p'.state = .uploaded
  other : p ≠ folder → ¬ t.Covers way datasetId folder.id .deleted p → p' = p

variable {token : Int → String} {m : RestoreMessage} {w w' : Workspace} {events : List Event}

/-- A folder message that is handled restores the marked folder that it names and the trashed
packages below it that its way of walking down covers, and changes no other row. -/
theorem restore_folder_rows (hf : w.packages.tables.Forest) (hfolder : m.package.kind.isCollection)
    (h : restore token m w = (.done events, w')) :
    ∃ folder ∈ w.packages.tables.packages, folder.datasetId = m.datasetId ∧
      folder.nodeId = m.package.nodeId ∧ folder.kind.isCollection ∧ folder.state = .restoring ∧
      Forall₂ (RestoredRow w.packages.tables w.packages.way m.datasetId folder)
        w.packages.tables.packages w'.packages.tables.packages := by
  obtain ⟨-, tx, content, hflow, rfl⟩ := restore_eq_done.1 h
  rw [Restoration.restore, if_pos hfolder] at hflow
  obtain ⟨folder, hclaimed, hkind, hrows⟩ := Restoration.rows_restoreFolder hf hflow
  obtain ⟨hmem, hdataset, hnode, hstate⟩ := Restoration.of_claimed? hclaimed
  refine ⟨folder, hmem, hdataset, hnode, hkind, hstate, ?_⟩
  rw [report_eq]
  refine forall₂_imp_of_mem hrows fun p hp p' hback => ?_
  have hcovered : p ∈ w.packages.tables.descendants w.packages.way m.datasetId folder.id .deleted ↔
      w.packages.tables.Covers w.packages.way m.datasetId folder.id .deleted p :=
    hf.mem_descendants_iff
  refine ⟨hback.retouched, ⟨fun hchanged => ?_, fun hin => .inl ?_⟩, hback.ready, ?_, ?_, ?_⟩
  · by_contra hnot
    obtain ⟨hne, habsent⟩ := not_or.1 hnot
    rw [hback.other hne fun hmem => habsent (hcovered.1 hmem)] at hchanged
    simp at hchanged
  · rcases hin with rfl | hcovers
    · rw [hback.ready rfl, hstate]
      decide
    · rw [hback.finished (hcovered.2 hcovers), hcovers.state, Package.State.restored]
      split <;> decide
  · intro hcovers hcollection
    rw [hback.finished (hcovered.2 hcovers), Package.State.restored, if_pos hcollection]
  · intro hcovers hleaf
    rw [hback.finished (hcovered.2 hcovers), Package.State.restored, if_neg hleaf]
  · exact fun hne habsent => hback.other hne fun hmem => habsent (hcovered.1 hmem)

/-- In the small workspace the folder is found and its rows are compared. -/
theorem restore_folder_rows_sample :
    ∃ events w', restore sampleToken sampleMessage sample = (.done events, w') ∧
      ∃ folder ∈ sampleTables.packages, folder.nodeId = "f" ∧
        Forall₂ (RestoredRow sampleTables .bounded 1 folder) sampleTables.packages
          w'.packages.tables.packages := by
  obtain ⟨events, h⟩ := restore_of_isDone sampleToken sampleMessage sample (by decide +kernel)
  obtain ⟨folder, hmem, -, hnode, -, -, hrows⟩ := restore_folder_rows forest_sampleTables rfl h
  exact ⟨events, _, h, folder, hmem, hnode, hrows⟩

end Salvage.Workspace
