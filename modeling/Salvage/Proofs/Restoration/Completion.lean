import Salvage.Proofs.Accounting.Range
import Salvage.Proofs.Restoration.Names

/-!
# When a restore is done

A restore is done when its message claims a package, all packages that it takes are in the dataset and
can be given names, and its leaves are brought back. These are brought back when the content has no
faults, unless a total leaves its range; and none does when all totals have room for the leaves.
-/

namespace Salvage.Restoration

open List (Forall₂)
open Tables (keepsName_change_moveTo)

variable {α : Type} {reason : Prop} {may : Int → String → Prop} {t : Tables} {tx tx' : Transaction}
  {c : Content} {token : Int → String} {m : RestoreMessage} {infos : List PackageInfo}
  {p q : Package} {datasetId : Int}

/-! ## Single steps -/

/-- Work in the transaction is done beside the content. -/
theorem doneUnless_inTransaction {x : Action Transaction α} (h : Action.DoneUnless reason x tx)
    (c : Content) : Action.DoneUnless reason (inTransaction x) (tx, c) :=
  Action.DoneUnless.on Prod.fst _ h

/-- After work in the transaction that is done the rest of the flow decides. -/
theorem doneUnless_inTransaction_bind {β : Type} {x : Action Transaction α} {f : α → Flow β} {a : α}
    (h : x tx = (.done a, tx')) (hf : Action.DoneUnless reason (f a) (tx', c)) :
    Action.DoneUnless reason (inTransaction x >>= f) (tx, c) :=
  Action.doneUnless_bind_of_done (inTransaction_eq_done.2 ⟨h, rfl⟩) hf

/-- The check for a folder finds the package that is marked. -/
theorem checkFolder_of_claimed (hd : tx.working.Distinct) (hp : claimed? tx.working m = some p)
    (hfolder : p.kind.isCollection) : checkFolder m tx = (.done (), tx) := by
  obtain ⟨hmem, hdataset, hnode, -⟩ := of_claimed? hp
  exact checkFolder_of_found (hd.packageByNode?_eq_some_iff.2 ⟨hmem, hdataset, hnode⟩) hfolder

/-! ## Leaves -/

section Leaves

variable {leaves : List PackageInfo} {n : Nat} (hrecords : c.records.throttled = 0)
  (hobjects : ObjectTable.HasFaults [] false c.objects)
include hrecords hobjects

/-- Bringing leaves back does not fail when the content has no faults. -/
theorem doneUnless_restoreLeaves (tx : Transaction) (datasetId : Int) (leaves : List PackageInfo) :
    Action.DoneUnless True (restoreLeaves datasetId leaves) (tx, c) := by
  obtain ⟨found, c', hundelete, -⟩ :=
    Content.undelete_succeeds (leaves.map PackageInfo.nodeId) hrecords hobjects
  rw [restoreLeaves]
  refine Action.doneUnless_bind_of_done (inContent_eq_done.2 ⟨hundelete, rfl⟩) ?_
  refine (doneUnless_inTransaction (Accounting.doneUnless_leafSizes tx leaves found) c').bind ?_
  intro sizes s _
  refine (doneUnless_inTransaction (Accounting.doneUnless_propagate s.1 datasetId leaves sizes)
    s.2).bind fun _ _ _ => Action.doneUnless_of_done rfl

/-- Different leaves of a forest are brought back when the content has no faults and there is room for
their sizes. -/
theorem restoreLeaves_of_room (datasetId : Int) (hf : tx.working.Forest)
    (hrows : ∀ l ∈ leaves, Accounting.IsRow tx.working l)
    (hids : ∀ l ∈ leaves, ∀ l' ∈ leaves, l.id = l'.id → l = l')
    (hfiles : tx.working.FilesFit) (hroom : tx.working.Room n)
    (hsizes : (leaves.map fun l =>
      (Accounting.countedSize tx.working c.records.records l).natAbs).sum ≤ n) :
    ∃ s, restoreLeaves datasetId leaves (tx, c) = (.done (), s) := by
  obtain ⟨found, c', hundelete, -⟩ :=
    Content.undelete_succeeds (leaves.map PackageInfo.nodeId) hrecords hobjects
  obtain ⟨sizes, hsizesDone⟩ := Accounting.leafSizes_of_fit leaves found hfiles
  have hcounted : (leaves.map fun l => (sizes.get l.id).natAbs) = leaves.map fun l =>
      (Accounting.countedSize tx.working c.records.records l).natAbs := by
    refine List.map_congr_left fun l hl => ?_
    rw [(Accounting.leafSizes_done hids hsizesDone).2 l hl, Accounting.countedSize,
      Accounting.countedSize, (Content.undelete_done hundelete).found,
      if_pos (List.mem_map_of_mem hl)]
    rfl
  rw [← hcounted] at hsizes
  obtain ⟨total, tx', hpropagate⟩ := Accounting.propagate_of_room datasetId hf hrows hroom hsizes
  refine ⟨(tx', c'), ?_⟩
  simp only [restoreLeaves, Action.bind_eq_done, Prod.exists, inContent_eq_done,
    inTransaction_eq_done, Action.pure_eq_done]
  exact ⟨found, tx, c', ⟨hundelete, rfl⟩, sizes, tx, c', ⟨hsizesDone, rfl⟩, total, tx', c',
    ⟨hpropagate, rfl⟩, trivial, rfl⟩

end Leaves

/-- The leaves of a message are brought back, whatever the names and states of packages are by then,
unless there is a reason to be aborted. -/
def LeavesDone (reason : Prop) (m : RestoreMessage) (tx : Transaction) (c : Content) : Prop :=
  ∀ tx₁, tx.Evolves Package.Retouched tx₁ → Action.DoneUnless reason
    (restoreLeaves m.datasetId ((leafRows tx.working tx.way m).map (leafInfo m))) (tx₁, c)

/-- In a forest the leaves of a message are brought back when the content has no faults, unless there
is no room for their sizes. -/
theorem leavesDone_unless {fits : Prop} (hf : tx.working.Forest)
    (hfits : fits → tx.working.FilesFit ∧ ∃ n, tx.working.Room n ∧
      ((leafRows tx.working tx.way m).map fun l =>
        (Accounting.countedSize tx.working c.records.records (leafInfo m l)).natAbs).sum ≤ n)
    (hrecords : c.records.throttled = 0) (hobjects : ObjectTable.HasFaults [] false c.objects) :
    LeavesDone (¬ fits) m tx c := by
  intro tx₁ hevolves
  by_cases hgiven : fits
  swap
  · exact (doneUnless_restoreLeaves hrecords hobjects tx₁ _ _).mono fun _ => hgiven
  obtain ⟨hfiles, n, hroom, hsizes⟩ := hfits hgiven
  have hrest := hevolves.working.rest
  have hcounted : (((leafRows tx.working tx.way m).map (leafInfo m)).map fun l =>
      (Accounting.countedSize tx₁.working c.records.records l).natAbs).sum ≤ n := by
    rw [Accounting.countedSize_of_evolves hevolves.working, List.map_map]
    exact hsizes
  have hfiles₁ : tx₁.working.FilesFit := by
    rw [hrest]
    exact hfiles
  have hroom₁ : tx₁.working.Room n := by
    rw [hrest]
    exact ⟨hroom.packages, hroom.datasets, hroom.organizations⟩
  have hrows : ∀ l ∈ (leafRows tx.working tx.way m).map (leafInfo m),
      Accounting.IsRow tx₁.working l := by
    intro l hl
    obtain ⟨p, hp, rfl⟩ := List.mem_map.1 hl
    obtain ⟨q, hq, hpq⟩ := exists_of_mem_left hevolves.working.rows (mem_of_mem_leafRows hp)
    exact ⟨q, hq, hpq.id_eq, hpq.parentId_eq⟩
  obtain ⟨s, hdone⟩ := restoreLeaves_of_room hrecords hobjects m.datasetId
    (hf.of_rows hevolves.working.rows) hrows
    (fun _ hl _ hl' => eq_of_id_of_mem_leaves hf.keyed hl hl') hfiles₁ hroom₁ hcounted
  exact Action.doneUnless_of_done hdone

/-! ## Finishing -/

/-- A package that is marked can be finished. -/
theorem finish_of_mem (info : PackageInfo) (hq : q ∈ tx.working.packages)
    (hdataset : q.datasetId = datasetId) (hnode : q.nodeId = info.nodeId)
    (hstate : q.state = .restoring) : ∃ tx', finish datasetId info tx = (.done (), tx') := by
  obtain ⟨moved, tx', hmove⟩ :=
    Transaction.move_of_mem (.restored info.kind) hq hdataset hnode hstate
  exact ⟨tx', Action.bind_of_done hmove⟩

/-- Packages with different node ids that are all marked can be finished. -/
theorem each_finish_of_mem (hd : tx.working.Distinct)
    (hnodup : (infos.map PackageInfo.nodeId).Nodup)
    (hrows : ∀ info ∈ infos, ∃ q ∈ tx.working.packages, q.datasetId = datasetId ∧
      q.nodeId = info.nodeId ∧ q.state = .restoring) :
    ∃ us tx', Action.each (finish datasetId) infos tx = (.done us, tx') := by
  induction infos generalizing tx with
  | nil => exact ⟨[], tx, rfl⟩
  | cons info infos ih =>
    rw [List.map_cons, List.nodup_cons] at hnodup
    obtain ⟨⟨q, hq, hdataset, hnode, hstate⟩, hothers⟩ := List.forall_mem_cons.1 hrows
    obtain ⟨tx₁, hfirst⟩ := finish_of_mem info hq hdataset hnode hstate
    have hfinished := (rows_finish hd hfirst).working.rows
    have hd₁ := hd.of_rows (retouched_finish hfirst).working.rows
    obtain ⟨us, tx', hrest⟩ := ih hd₁ hnodup.2 fun info' hinfo' => by
      obtain ⟨r, hr, hdataset', hnode', hstate'⟩ := hothers info' hinfo'
      obtain ⟨r', hr', hkept⟩ := exists_of_mem_left hfinished hr
      -- the package that this step finishes has another node id
      have hne : r.nodeId ≠ info.nodeId := fun heq =>
        hnodup.1 (List.mem_map.2 ⟨info', hinfo', hnode'.symm.trans heq⟩)
      rw [if_neg hne] at hkept
      subst hkept
      exact ⟨r', hr', hdataset', hnode', hstate'⟩
    refine ⟨() :: us, tx', ?_⟩
    rw [Action.each_cons_of_done infos hfirst, hrest]
    rfl

/-! ## Whole flows -/

/-- The leaf of a message is restored if its name can be given back and it is brought back. -/
theorem doneUnless_restoreLeaf (hd : tx.working.Distinct) (hp : claimed? tx.working m = some p)
    (hleaf : ¬ m.package.kind.isCollection) (hnamed : WellNamed may tx.working)
    (hnameable : Nameable may tx.working (token p.id) (PackageInfo.ofPackage p))
    (hleaves : LeavesDone reason m tx c) :
    Action.DoneUnless reason (restoreLeaf token m) (tx, c) := by
  obtain ⟨hmem, hdataset, hnode, -⟩ := of_claimed? hp
  have hmarked := (Transaction.evolves_changeId tx p.id (·.moveTo .restoring)).working.rows
  have hretouched := (retouched_move (claim_of_claimed hp)).working.rows
  have hnamed₀ : WellNamed may
      ({ tx with working := tx.working.changeId p.id (·.moveTo .restoring) } : Transaction).working :=
    hnamed.of_keepsName (keepsName_change_moveTo _ _ _)
  have hinfo : Nameable may (tx.working.changeId p.id (·.moveTo .restoring)) (token p.id)
      { PackageInfo.ofPackage (p.moveTo .restoring) with size := m.package.size } := by
    have hkept := hnameable.of_rows hretouched
    exact ⟨hkept.row, hkept.former⟩
  obtain ⟨restored, tx₁, hname, -⟩ :=
    restoreName_of_nameable (hd.of_rows hretouched).keyed hnamed₀ hinfo
  rw [restoreLeaf]
  refine doneUnless_inTransaction_bind (claim_of_claimed hp) ?_
  refine doneUnless_inTransaction_bind hname ?_
  have hown := hleaves tx₁ (IsTrans.trans _ _ _ (retouched_move (claim_of_claimed hp))
    ((evolves_restoreName hname).imp fun _ _ _ => Renamed.retouched))
  rw [map_leafRows_of_leaf hp hleaf] at hown
  refine hown.bind fun u s hleaves => ?_
  obtain ⟨tx₂, c₂⟩ := s
  -- the row was marked, and since then no more than its name has changed
  obtain ⟨q, hq, hpq⟩ := exists_of_mem_left hmarked hmem
  obtain ⟨r, hr, hqr⟩ := exists_of_mem_left (evolves_restoreName hname).working.rows hq
  rw [if_pos rfl] at hpq
  have hrow : r.datasetId = m.datasetId ∧ r.nodeId = m.package.nodeId ∧ r.state = .restoring := by
    rcases hqr with rfl | ⟨-, name, rfl⟩ <;> rw [hpq] <;> exact ⟨hdataset, hnode, rfl⟩
  rw [← packages_restoreLeaves hleaves] at hr
  obtain ⟨tx₃, hfinish⟩ := finish_of_mem
    { PackageInfo.ofPackage (p.moveTo .restoring) with size := m.package.size }
    hr hrow.1 (hrow.2.1.trans hnode.symm) hrow.2.2
  exact doneUnless_inTransaction_bind hfinish (Action.doneUnless_of_done rfl)

section Folder

variable {below : List Package}

/-- Once they are marked, a folder and all packages below it get names that can be given back. -/
theorem names_of_nameable (hf : tx.working.Forest) (hnamed : WellNamed may tx.working)
    (hnameable : ∀ q ∈ p :: below, Nameable may tx.working (token q.id) (PackageInfo.ofPackage q)) :
    ∃ restored tx₁ events tx₂,
      restoreName (token p.id) (PackageInfo.ofPackage p)
        { tx with working := marked tx.working tx.way m.datasetId p.id } = (.done restored, tx₁) ∧
      restoreNames token [Event.asParent (PackageInfo.ofPackage p) restored]
        (below.map PackageInfo.ofPackage) tx₁ = (.done events, tx₂) := by
  have hmarked := (retouched_marked tx.working tx.way m.datasetId p.id).rows
  have hnamed₀ : WellNamed may
      ({ tx with working := marked tx.working tx.way m.datasetId p.id } : Transaction).working :=
    hnamed.of_keepsName (keepsName_marked _ _ _ _)
  have hd₀ := hf.toDistinct.of_rows hmarked
  obtain ⟨hfirst, hothers⟩ := List.forall_mem_cons.1 hnameable
  obtain ⟨restored, tx₁, hname, hnamed₁⟩ :=
    restoreName_of_nameable hd₀.keyed hnamed₀ (hfirst.of_rows hmarked)
  have hrows := ((evolves_restoreName hname).imp fun _ _ _ => Renamed.retouched).working.rows
  have hrest : ∀ info ∈ below.map PackageInfo.ofPackage,
      Nameable may tx₁.working (token info.id) info := by
    intro info hinfo
    obtain ⟨q, hq, rfl⟩ := List.mem_map.1 hinfo
    exact ((hothers q hq).of_rows hmarked).of_rows hrows
  obtain ⟨events, tx₂, hnames⟩ := restoreNames_of_nameable
    [Event.asParent (PackageInfo.ofPackage p) restored] (hd₀.of_rows hrows) hnamed₁ hrest
  exact ⟨restored, tx₁, events, tx₂, hname, hnames⟩

/-- Once all of them are marked and named, the packages below a folder can be finished, and then the
folder. -/
theorem finish_of_prepared (hf : t.Forest) (hp : claimed? t m = some p) (way : Traversal)
    (hdataset : ∀ q ∈ t.descendants way m.datasetId p.id .deleted, q.datasetId = m.datasetId)
    (hrows : Forall₂ (Prepared p (t.descendants way m.datasetId p.id .deleted)) t.packages
      tx.working.packages) :
    let infos := (t.descendants way m.datasetId p.id .deleted).map PackageInfo.ofPackage
    ∃ us tx₁ moved tx₂,
      Action.each (finish m.datasetId) ((infos.filter fun info => info.kind.isCollection) ++
        infos.filter fun info => !info.kind.isCollection) tx = (.done us, tx₁) ∧
      Transaction.move m.datasetId p.nodeId .restoring .ready tx₁ = (.done moved, tx₂) := by
  intro infos
  obtain ⟨hmem, hown, -, -⟩ := of_claimed? hp
  have hd := hf.toDistinct.of_rows (hrows.imp fun _ _ hpq => hpq.retouched)
  have hmarked : ∀ q ∈ t.packages, q.datasetId = m.datasetId →
      q = p ∨ q ∈ t.descendants way m.datasetId p.id .deleted →
      ∃ r ∈ tx.working.packages, r.datasetId = m.datasetId ∧ r.nodeId = q.nodeId ∧
        r.state = .restoring := by
    intro q hq hin htaken
    obtain ⟨r, hr, hqr⟩ := exists_of_mem_left hrows hq
    exact ⟨r, hr, hqr.retouched.datasetId_eq.trans hin, hqr.retouched.nodeId_eq, hqr.state htaken⟩
  have hnodup := nodup_finished hf way m.datasetId p.id
  have hinfos (info : PackageInfo) : info ∈ (infos.filter fun info => info.kind.isCollection) ++
      (infos.filter fun info => !info.kind.isCollection) → ∃ q ∈ t.packages,
        q ∈ t.descendants way m.datasetId p.id .deleted ∧ PackageInfo.ofPackage q = info := by
    intro hinfo
    obtain ⟨q, hq, rfl⟩ := List.mem_map.1 ((List.filter_append_perm _ infos).mem_iff.1 hinfo)
    exact ⟨q, Tables.mem_of_mem_descendants hq, hq, rfl⟩
  obtain ⟨us, tx₁, hfinish⟩ := each_finish_of_mem hd hnodup fun info hinfo => by
    obtain ⟨q, hq, hbelow, rfl⟩ := hinfos info hinfo
    exact hmarked q hq (hdataset q hbelow) (.inr hbelow)
  -- the folder is none of them, so it is still marked after that
  obtain ⟨r, hr, hrdataset, hrnode, hrstate⟩ := hmarked p hmem hown (.inl rfl)
  obtain ⟨r', hr', hfinished⟩ :=
    exists_of_mem_left (rows_each_finish hd hnodup hfinish).working.rows hr
  obtain rfl : r' = r := by
    refine hfinished.other fun info hinfo heq => ?_
    obtain ⟨q, hq, hbelow, rfl⟩ := hinfos info hinfo
    obtain rfl := hf.eq_of_nodeId hq hmem (heq.trans hrnode)
    exact claimed_not_mem_descendants hp hbelow
  obtain ⟨moved, tx₂, hmove⟩ := Transaction.move_of_mem .ready hr' hrdataset hrnode hrstate
  exact ⟨us, tx₁, moved, tx₂, hfinish, hmove⟩

end Folder

/-- What is to be restored below a folder that was marked is marked too. -/
theorem moveDescendants_of_claimed (hk : tx.working.Keyed) (hp : claimed? tx.working m = some p) :
    Transaction.moveDescendants m.datasetId p.id .deleted .restoring
        { tx with working := tx.working.changeId p.id (·.moveTo .restoring) } =
      (.done ((tx.working.descendants tx.way m.datasetId p.id .deleted).map (·.moveTo .restoring)),
        { tx with working := marked tx.working tx.way m.datasetId p.id }) := by
  rw [Transaction.moveDescendants_eq_done]
  dsimp only
  rw [moveDescendants_changeId hk hp]
  exact ⟨rfl, rfl⟩

/-- The folder of a message is restored if the names of all packages that the message takes can be
given back, all of them are in the dataset, and its leaves are brought back. -/
theorem doneUnless_restoreFolder (hf : tx.working.Forest) (hp : claimed? tx.working m = some p)
    (hkind : m.package.kind = p.kind) (hfolder : m.package.kind.isCollection)
    (hdataset : ∀ q ∈ tx.working.descendants tx.way m.datasetId p.id .deleted,
      q.datasetId = m.datasetId)
    (hnamed : WellNamed may tx.working)
    (hnameable : ∀ q ∈ p :: tx.working.descendants tx.way m.datasetId p.id .deleted,
      Nameable may tx.working (token q.id) (PackageInfo.ofPackage q))
    (hleaves : LeavesDone reason m tx c) :
    Action.DoneUnless reason (restoreFolder token m) (tx, c) := by
  have hmoved := moveDescendants_of_claimed hf.keyed hp
  obtain ⟨restored, tx₁, events, tx₂, hname, hnames⟩ := names_of_nameable hf hnamed hnameable
  have hprepared := (rows_prepared hf.keyed (of_claimed? hp).1 rfl hname hnames).rows
  rw [restoreFolder]
  refine doneUnless_inTransaction_bind (checkFolder_of_claimed hf.toDistinct hp (hkind ▸ hfolder)) ?_
  refine doneUnless_inTransaction_bind (claim_of_claimed hp) ?_
  refine doneUnless_inTransaction_bind hmoved ?_
  refine doneUnless_inTransaction_bind hname ?_
  dsimp only
  rw [map_ofPackage_moveTo]
  refine doneUnless_inTransaction_bind hnames ?_
  simp only [List.partition_eq_filter_filter]
  have hmarked : tx.Evolves Package.Retouched
      { tx with working := marked tx.working tx.way m.datasetId p.id } :=
    ⟨retouched_marked _ _ _ _, rfl⟩
  have hown := hleaves tx₂ (IsTrans.trans _ _ _ (IsTrans.trans _ _ _ hmarked
    ((evolves_restoreName hname).imp fun _ _ _ => Renamed.retouched))
    ((evolves_restoreNames hnames).imp fun _ _ _ => Renamed.retouched))
  rw [map_leafRows_of_folder hp hfolder] at hown
  refine hown.bind fun u s hleaves => ?_
  obtain ⟨tx₃, c₃⟩ := s
  rw [← packages_restoreLeaves hleaves] at hprepared
  obtain ⟨us, tx₄, moved, tx₅, hfinish, hmove⟩ :=
    finish_of_prepared hf hp tx.way hdataset hprepared
  refine doneUnless_inTransaction_bind hfinish ?_
  exact doneUnless_inTransaction_bind hmove (Action.doneUnless_of_done rfl)

/-- A message that claims a package of its own kind is restored if the names of all packages that it
takes can be given back, all of them are in the dataset, and its leaves are brought back. -/
theorem doneUnless_restore (hf : tx.working.Forest) (hp : claimed? tx.working m = some p)
    (hkind : m.package.kind = p.kind)
    (hdataset : ∀ q ∈ takenRows tx.working tx.way m, q.datasetId = m.datasetId)
    (hnamed : WellNamed may tx.working)
    (hnameable : ∀ q ∈ takenRows tx.working tx.way m,
      Nameable may tx.working (token q.id) (PackageInfo.ofPackage q))
    (hleaves : LeavesDone reason m tx c) :
    Action.DoneUnless reason (restore token m) (tx, c) := by
  rw [restore]
  split
  · rename_i hfolder
    rw [takenRows_of_folder hp hfolder] at hdataset hnameable
    exact doneUnless_restoreFolder hf hp hkind hfolder
      (fun q hq => hdataset q (List.mem_cons_of_mem _ hq)) hnamed hnameable hleaves
  · rename_i hleaf
    rw [takenRows_of_leaf hp hleaf] at hnameable
    exact doneUnless_restoreLeaf hf.toDistinct hp hleaf hnamed
      (hnameable p (List.mem_singleton_self p)) hleaves

end Salvage.Restoration
