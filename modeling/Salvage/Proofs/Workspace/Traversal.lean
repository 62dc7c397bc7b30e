import Salvage.Proofs.Restoration.Traversal
import Salvage.Proofs.Workspace.Delivery

/-!
# Workspaces with both ways of walking

The two ways of walking down were made for trees in which something live lies between things in the
trash. Where there is nothing like that below the package of a message, they are one:
`restore_either_way` compares the outcome, the events and all stores of the workspace, also when the
restore fails halfway or is aborted.
-/

namespace Salvage

variable {way : Traversal}

namespace PackageStore

variable {σ α : Type} {flow : Action (Transaction × σ) α} {others : σ}

/-- The same tables with another way of walking. -/
def walking (way : Traversal) (s : PackageStore) : PackageStore :=
  { s with way }

/-- Closing a transaction does not see the way of walking. -/
theorem settle_walking (s : PackageStore) (tx : Transaction) (handle : Handle) (o : Outcome α) :
    (s.walking way).settle (tx.walking way) handle o =
      ((s.settle tx handle o).1, (s.settle tx handle o).2.walking way) := by
  rcases handle with _ | ⟨_ | _, _ | _⟩ <;> cases o <;> rfl

/-- A transaction does not see the way of walking if its flow does not. -/
theorem blind_transact (org : Int) (handle : Handle) (s : PackageStore)
    (hflow : Action.Blind (fun u => (u.1.walking way, u.2)) flow (s.begin, others)) :
    Action.Blind (fun u => (u.1.walking way, u.2)) (transact org handle flow) (s, others) := by
  have hbegin : flow ((s.walking way).begin, others) = ((flow (s.begin, others)).1,
      (flow (s.begin, others)).2.1.walking way, (flow (s.begin, others)).2.2) := hflow
  have horg : (s.walking way).org = s.org := rfl
  unfold Action.Blind transact
  dsimp only
  rw [horg]
  split
  · rfl
  · dsimp only
    rw [hbegin]
    dsimp only
    rw [settle_walking]

end PackageStore

namespace Workspace

/-- The same stores with another way of walking. -/
def walking (way : Traversal) (w : Workspace) : Workspace :=
  { w with packages := w.packages.walking way }

/-- A report does not see the way of walking. -/
theorem report_walking (m : RestoreMessage) (events : List Event) (w : Workspace) :
    report m events (w.walking way) = (report m events w).walking way := by
  rw [report, report]
  split <;> rfl

/-- When the package of a message is plainly trashed, handling the message ends in the same way with
both ways of walking, returns the same events and leaves the same in all stores. -/
theorem restore_either_way {m : RestoreMessage} {w : Workspace}
    (ht : w.packages.tables.Treelike)
    (hplain : ∀ p ∈ w.packages.tables.packages, p.datasetId = m.datasetId →
      p.nodeId = m.package.nodeId → w.packages.tables.PlainlyTrashed p.id)
    (token : Int → String) :
    ∃ (outcome : Outcome (List Event)) (after : Workspace), ∀ way,
      restore token m (w.walking way) = (outcome, after.walking way) := by
  refine ⟨(restore token m w).1, (restore token m w).2, fun way => ?_⟩
  have hclaimed : ∀ p, Restoration.claimed? w.packages.begin.working m = some p →
      w.packages.begin.working.PlainlyTrashed p.id := by
    intro p hp
    obtain ⟨hmem, hdataset, hnode, -⟩ := Restoration.of_claimed? hp
    exact hplain p hmem hdataset hnode
  have hflow : Action.Blind (fun u => (u.1.walking way, u.2))
      (PackageStore.transact m.org .sound (Restoration.restore token m)) (w.packages, w.content) :=
    PackageStore.blind_transact m.org .sound w.packages (Restoration.blind_restore ht hclaimed)
  have hrest : Action.Blind (walking way) (restore token m) w := by
    apply Action.Blind.bind
    · exact hflow.on _ rfl fun _ => rfl
    · intro events w' _
      apply Action.Blind.bind
      · exact Prod.ext rfl (report_walking m events w')
      · exact fun _ w'' _ => Action.blind_pure _ _ w''
  exact hrest

/-- The small workspace with a live folder beside the trashed packages, and a live file in that. -/
def mixed : Workspace :=
  { sample with packages.tables := { sampleTables with
      packages := sampleTables.packages ++
        [⟨7, "L", .collection, .ready, "l", some 2, 1, 1, none, false⟩,
          ⟨8, "D", .text, .uploaded, "d", some 7, 1, 1, none, false⟩] } }

/-- Nothing live stands above the trashed packages of the small workspace, so its folder comes back
in one way, and with five events. -/
theorem restore_either_way_mixed :
    ∃ (events : List Event) (after : Workspace), events.length = 5 ∧ ∀ way,
      restore sampleToken sampleMessage (mixed.walking way) =
        (.done events, after.walking way) := by
  have hf : mixed.packages.tables.Forest :=
    Tables.forest_of_lt (by decide) (by decide) (by decide)
  have hids : ∀ p ∈ mixed.packages.tables.packages, p.nodeId = "f" → p.id = 2 := by decide
  have hplain : mixed.packages.tables.PlainlyTrashed 2 :=
    hf.treelike.plainlyTrashed_of_live [7, 8] (by decide) (by decide)
  obtain ⟨outcome, after, hways⟩ := restore_either_way (w := mixed) (m := sampleMessage)
    hf.treelike (fun p hp _ hnode => (hids p hp hnode).symm ▸ hplain) sampleToken
  have hdone : ((restore sampleToken sampleMessage (mixed.walking .bounded)).1.map
      List.length) = .done 5 := by decide +kernel
  rw [hways .bounded] at hdone
  cases outcome with
  | done events => exact ⟨events, after, Outcome.done.inj hdone, hways⟩
  | failed => cases hdone
  | aborted => cases hdone

end Workspace

end Salvage
