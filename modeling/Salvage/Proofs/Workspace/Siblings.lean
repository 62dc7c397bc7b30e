import Salvage.Proofs.Tables.Siblings
import Salvage.Proofs.Workspace.Order

/-!
# Names of siblings in a run

Every step of a flow that touches the rows either moves some of them to another state or gives one a
name that none of its siblings has. So when a flow is done the names of siblings are as far apart as
they were, however many candidates were tried on the way, and nothing else of the rows has changed.
A flow that is not done commits nothing. Node ids play no part in this: they may occur twice.
-/

namespace Salvage

open List (Forall₂)
open Tables (KeepsApart)

variable {σ : Type} {datasetId id : Int} {nodeId : String} {token : Int → String}

namespace Transaction

/-- A move that is done keeps names apart. -/
theorem whenDone_move (datasetId : Int) (nodeId : String) (expected target : Package.State) :
    Action.WhenDone (Order.Preimage working KeepsApart)
      (move datasetId nodeId expected target) := by
  intro tx moved tx' h
  obtain ⟨p, -, -, rfl⟩ := move_eq_done.1 h
  exact Tables.keepsApart_change_moveTo _ _ _

/-- A move of descendants keeps names apart. -/
theorem whenDone_moveDescendants (datasetId id : Int) (expected target : Package.State) :
    Action.WhenDone (Order.Preimage working KeepsApart)
      (moveDescendants datasetId id expected target) := by
  intro tx moved tx' h
  obtain ⟨-, rfl⟩ := moveDescendants_eq_done.1 h
  exact Tables.keepsApart_change_moveTo _ _ _

/-- A renaming that is done keeps names apart. -/
theorem whenDone_rename (id : Int) (name : String) :
    Action.WhenDone (Order.Preimage working KeepsApart) (rename id name) := by
  intro tx u tx' h
  obtain ⟨p, hp, hfree, rfl⟩ := rename_eq_done.1 h
  exact Tables.keepsApart_rename hp hfree

end Transaction

/-! ## Deliveries -/

namespace Restoration

/-- Giving a package its name back keeps names apart. -/
theorem whenDone_restoreName (text : String) (info : PackageInfo) :
    Action.WhenDone (Order.Preimage Transaction.working KeepsApart) (restoreName text info) := by
  intro tx restored tx' h
  obtain ⟨-, -, hrename⟩ := restoreName_done h
  exact Transaction.whenDone_rename _ _ hrename

/-- Giving packages their names back keeps names apart. -/
theorem whenDone_restoreNames (token : Int → String) (parents : List EventParent)
    (infos : List PackageInfo) :
    Action.WhenDone (Order.Preimage Transaction.working KeepsApart)
      (restoreNames token parents infos) := by
  induction infos generalizing parents with
  | nil => exact Action.whenDone_pure []
  | cons info infos ih =>
    rw [restoreNames]
    exact (whenDone_restoreName _ info).bind fun _ => (ih _).bind fun _ => Action.whenDone_pure _

/-- Finishing a package keeps names apart. -/
theorem whenDone_finish (datasetId : Int) (info : PackageInfo) :
    Action.WhenDone (Order.Preimage Transaction.working KeepsApart) (finish datasetId info) :=
  (Transaction.whenDone_move _ _ _ _).bind fun _ => Action.whenDone_pure _

/-- The check for a folder changes nothing. -/
theorem whenDone_checkFolder (m : RestoreMessage) :
    Action.WhenDone (Order.Preimage Transaction.working KeepsApart) (checkFolder m) := by
  intro tx u tx' h
  obtain ⟨rfl, -⟩ := checkFolder_done h
  exact Tables.keepsApart_of_packages rfl

/-- A restore that is done keeps names apart. -/
theorem whenDone_restore (token : Int → String) (m : RestoreMessage) :
    Action.WhenDone (Order.Preimage (fun s : Transaction × Content => s.1.working) KeepsApart)
      (restore token m) := by
  have htx {α : Type} {x : Action Transaction α}
      (hx : Action.WhenDone (Order.Preimage Transaction.working KeepsApart) x) :
      Action.WhenDone (Order.Preimage (fun s : Transaction × Content => s.1.working) KeepsApart)
        (inTransaction x) :=
    hx.on fun _ _ h => h
  have hleaves (leaves : List PackageInfo) :
      Action.WhenDone (Order.Preimage (fun s : Transaction × Content => s.1.working) KeepsApart)
        (restoreLeaves m.datasetId leaves) :=
    fun _ _ _ h => Tables.keepsApart_of_packages (packages_restoreLeaves h)
  have hclaim := htx (Transaction.whenDone_move m.datasetId m.package.nodeId .restoring .restoring)
  rw [restore]
  split
  · rw [restoreFolder]
    refine (htx (whenDone_checkFolder m)).bind fun _ => hclaim.bind fun p => ?_
    refine (htx (Transaction.whenDone_moveDescendants _ _ _ _)).bind fun below => ?_
    refine (htx (whenDone_restoreName _ _)).bind fun folder => ?_
    refine (htx (whenDone_restoreNames _ _ _)).bind fun events => (hleaves _).bind fun _ => ?_
    refine (htx (Action.whenDone_each (whenDone_finish m.datasetId) _)).bind fun _ => ?_
    exact (htx (Transaction.whenDone_move _ _ _ _)).bind fun _ => Action.whenDone_pure _
  · rw [restoreLeaf]
    refine hclaim.bind fun p => (htx (whenDone_restoreName _ _)).bind fun restored => ?_
    refine (hleaves _).bind fun _ => (htx (whenDone_finish _ _)).bind fun _ => ?_
    exact Action.whenDone_pure _

end Restoration

/-! ## Requests -/

namespace RestoreRequest

/-- Marking a node keeps names apart. -/
theorem whenDone_markOne (datasetId : Int) (nodeId : String) :
    Action.WhenDone (Order.Preimage Transaction.working KeepsApart) (markOne datasetId nodeId) := by
  intro tx answer tx' h
  rw [markOne_apply] at h
  split at h
  · cases h
    exact Tables.keepsApart_change_moveTo _ _ _
  · cases h
    exact Tables.keepsApart_of_packages rfl

/-- Looking for a dataset changes nothing. -/
theorem whenDone_dataset (nodeId : String) :
    Action.WhenDone (Order.Preimage Transaction.working KeepsApart)
      (Transaction.dataset nodeId) := by
  intro tx d tx' h
  rw [Transaction.dataset, Action.get_bind_apply] at h
  cases hfound : tx.working.datasetByNode? nodeId with
  | none =>
    rw [hfound] at h
    cases h
  | some found =>
    rw [hfound] at h
    cases h
    exact Tables.keepsApart_of_packages rfl

/-- A request that is done keeps names apart, whatever is done to send its messages. -/
theorem whenDone_accept (send : RestoreMessage → Action σ Unit) (datasetNode : String)
    (r : RestoreRequest) (userId : String) :
    Action.WhenDone (Order.Preimage (fun s : Transaction × σ => s.1.working) KeepsApart)
      (r.accept send datasetNode userId) := by
  have htx {α : Type} {x : Action Transaction α}
      (hx : Action.WhenDone (Order.Preimage Transaction.working KeepsApart) x) :
      Action.WhenDone (Order.Preimage (fun s : Transaction × σ => s.1.working) KeepsApart)
        (x.on Prod.fst fun tx s => (tx, s.2)) :=
    hx.on fun _ _ h => h
  have hget : Action.WhenDone (Order.Preimage (fun s : Transaction × σ => s.1.working) KeepsApart)
      Action.get := by
    intro s a s' h
    obtain ⟨-, rfl⟩ := Action.get_eq_done.1 h
    exact Tables.keepsApart_of_packages rfl
  have hsends (messages : List RestoreMessage) :
      Action.WhenDone (Order.Preimage (fun s : Transaction × σ => s.1.working) KeepsApart)
        ((Action.each send messages).on Prod.snd fun q s => (s.1, q)) := by
    intro s a s' h
    obtain ⟨t, -, rfl⟩ := Action.on_eq_done.1 h
    exact Tables.keepsApart_of_packages rfl
  rw [accept]
  refine (htx (whenDone_dataset datasetNode)).bind fun d => hget.bind fun s => ?_
  refine (htx (Action.whenDone_each (whenDone_markOne d.id) r.nodeIds)).bind fun marked => ?_
  exact (hsends _).bind fun _ => Action.whenDone_pure _

end RestoreRequest

/-! ## Whole runs -/

namespace Workspace

variable {w : Workspace}

/-- What is carried out keeps names apart, however it ends. -/
theorem within_carryOut_keepsApart (send : RestoreMessage → Action RestoreQueue Unit)
    (command : Command) :
    Action.Within (Order.Preimage (fun w : Workspace => w.packages.tables) KeepsApart)
      (carryOut send command) := by
  cases command with
  | request org datasetNode r userId =>
    have hrequest : Action.Within
        (Order.Preimage (fun w : Workspace => w.packages.tables) KeepsApart)
        (requestBy send org datasetNode r userId) :=
      (PackageStore.within_transact org (r.whenDone_accept send datasetNode userId)).on
        fun _ _ h => h
    exact hrequest.bind fun _ => Action.within_pure _
  | deliver token m =>
    exact (within_restore m (Restoration.whenDone_restore token m)).bind fun _ =>
      Action.within_pure _

/-- Names of siblings stay apart in every run, and the tree of packages stays as it is: at its end and
after each of its turns no two packages in the same place have the same name, and the packages are
those from the start, row by row, with other names, states and update times at most. -/
theorem siblings_stay_apart (steps : List (Conditions × Command)) (hk : w.packages.tables.Keyed)
    (hnames : w.packages.tables.NamesApart) :
    ((run steps w).packages.tables.NamesApart ∧
      Forall₂ Package.Retouched w.packages.tables.packages
        (run steps w).packages.tables.packages) ∧
    ∀ t ∈ turns steps w, t.after.packages.tables.NamesApart ∧
      Forall₂ Package.Retouched w.packages.tables.packages t.after.packages.tables.packages := by
  have hkept (k : Conditions) (command : Command) (v : Workspace)
      (hv : KeepsApart w.packages.tables v.packages.tables) :
      KeepsApart w.packages.tables (turn k command v).after.packages.tables :=
    IsTrans.trans (r := KeepsApart) _ _ _ hv (within_carryOut_keepsApart k.send command (v.under k))
  obtain ⟨hturns, hend⟩ := forall_turns steps (P := fun t =>
    KeepsApart w.packages.tables t.after.packages.tables) hkept hkept
    (Std.Refl.refl (r := KeepsApart) w.packages.tables)
  refine ⟨⟨hend.names hk hnames, hend.rows⟩, fun t ht => ?_⟩
  exact ⟨(hturns t ht).names hk hnames, (hturns t ht).rows⟩

/-- A request for a file that had the name of the folder beside it, and the message for the folder that
both lie in. -/
def contestedSteps : List (Conditions × Command) :=
  [(.calm, .request 1 "N:dataset:1" ⟨["b"]⟩ "user"),
    (.calm, .deliver sampleToken
      ⟨1, 1, "user", ⟨2, "f", "__DELETED__f_F", none, .collection, none⟩⟩),
    (.calm, .deliver sampleToken
      ⟨1, 1, "user", ⟨5, "b", "__DELETED__b_G", some 2, .text, none⟩⟩),
    (.calm, .deliver sampleToken
      ⟨1, 1, "user", ⟨3, "g", "__DELETED__g_G", some 2, .collection, none⟩⟩)]

/-- In the nested workspace the file gets the name, and the folder beside it another one. -/
theorem siblings_stay_apart_nested :
    (run contestedSteps nested).packages.tables.packages.map Package.name =
      ["F", "G-restored_1", "A", "G"] ∧
      (run contestedSteps nested).packages.tables.NamesApart := by
  obtain ⟨⟨hnames, -⟩, -⟩ := siblings_stay_apart (w := nested) contestedSteps (by decide) (by decide)
  exact ⟨by decide +kernel, hnames⟩

end Workspace

end Salvage
