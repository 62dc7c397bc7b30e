import Salvage.Proofs.Tables.Trash
import Salvage.Proofs.Workspace.Order

/-!
# Trashing and restoring

A package that was trashed with all that lies below it, and marked then, comes back with all of it,
and every name is what it was. The walk of the restore finds what the walk of the trashing found,
since by then everything below the package is in the trash. While names are given back, each package
in the subtree has its old name or that behind the prefix of trashed packages. No old name is one of a
sibling, and none starts like a prefix; so the first candidate is always free.
-/

namespace Salvage

open List (Forall₂)
open Restoration (Contested Nameable NamedBack Takes Uncontested WellNamed takenRows)

namespace Tables

/-- A package can be trashed and marked so that everything comes back: the packages form a forest in
which trees lie in one dataset, only folders have packages in them and siblings have different names,
and nothing in the subtree of the package is in the trash or named as if it were. -/
structure Trashable (t : Tables) (r : Package) : Prop where
  forest : t.Forest
  oneDataset : t.OneDataset
  foldersOnly : t.FoldersOnly
  namesApart : t.NamesApart
  row : r ∈ t.packages
  alive : ∀ p ∈ t.packages, t.InSubtree r.id p → p.state ≠ .deleted
  unprefixed : ∀ p ∈ t.packages, t.InSubtree r.id p → ¬ Name.LooksDeleted p.name

/-- The names that the package with a number has while a subtree comes back from the trash: its own
and, if it is in the subtree, that behind the prefix. -/
def HalfRestored (t : Tables) (r : Package) (id : Int) (name : String) : Prop :=
  ∃ p ∈ t.packages, p.id = id ∧ (name = p.name ∨
    t.InSubtree r.id p ∧ name = Name.deletedPrefix p.nodeId ++ p.name)

/-- A row before a package is trashed and after it is restored. -/
structure RoundTrip (t : Tables) (id : Int) (p q : Package) : Prop where
  retouched : p.Retouched q
  name : t.InSubtree id p → q.name = p.name
  state : t.InSubtree id p → q.state = if p.kind.isCollection then .ready else .uploaded
  other : ¬ t.InSubtree id p → q = p

namespace Trashable

variable {t : Tables} {r p q : Package} {m : RestoreMessage} {way : Traversal} (h : t.Trashable r)
include h

/-- Trashing leaves a forest. -/
theorem forest_trashAndMark : (t.trashAndMark r.id).Forest :=
  h.forest.of_rows ((h.forest.rows_trashAndMark r.id).rows.imp fun _ _ => Trashed.retouched)

/-- The package is a marked row after it was trashed. -/
theorem mem_trashAndMark : setState .restoring r.trashed ∈ (t.trashAndMark r.id).packages := by
  obtain ⟨q, hq, hrow⟩ := exists_of_mem_left (h.forest.rows_trashAndMark r.id).rows h.row
  rwa [hrow.top rfl] at hq

/-- A message that names the package claims it. -/
theorem claimed (hdataset : m.datasetId = r.datasetId) (hnode : m.package.nodeId = r.nodeId) :
    Restoration.claimed? (t.trashAndMark r.id) m = some (setState .restoring r.trashed) := by
  have hkept := r.retouched_trashed
  exact Restoration.claimed_of_mem h.forest_trashAndMark.toDistinct h.mem_trashAndMark rfl
    (hdataset.trans hkept.datasetId_eq.symm) (hnode.trans hkept.nodeId_eq.symm)

/-- The marked package is the row of the one that was trashed. -/
theorem eq_top (hrow : Trashed t r.id p q) (hp : p ∈ t.packages) (hid : p.id = r.id) :
    q = setState .restoring r.trashed := by
  rw [hrow.top hid, h.forest.keyed.eq_of_id hp h.row hid]

/-- A message for the package takes exactly the subtree, however far changes of state go. -/
theorem takes_iff (hp : p ∈ t.packages) (hq : q ∈ (t.trashAndMark r.id).packages)
    (hrow : Trashed t r.id p q) :
    Takes (t.trashAndMark r.id) way (setState .restoring r.trashed) q ↔ t.InSubtree r.id p := by
  have hrows := (h.forest.rows_trashAndMark r.id).rows
  have hparents := isParent_eq_of_rows (hrows.imp fun _ _ => Trashed.retouched)
  have htop : (setState .restoring r.trashed).id = r.id := r.retouched_trashed.id_eq
  have hkind : (setState .restoring r.trashed).kind = r.kind := r.retouched_trashed.kind_eq
  have hdataset : (setState .restoring r.trashed).datasetId = r.datasetId :=
    r.retouched_trashed.datasetId_eq
  rw [Takes, htop, hkind, hdataset, Tables.inSubtree_iff]
  constructor
  · intro hgiven
    rcases hgiven with rfl | ⟨-, hcovers⟩
    · exact .inl (hrow.retouched.id_eq.symm.trans htop)
    · have hbelow := hcovers.below
      rw [IsAncestor, hparents, hrow.retouched.id_eq] at hbelow
      exact .inr hbelow
  · intro hin
    rcases hin with hid | hbelow
    · exact .inl (h.eq_top hrow hp hid)
    · have hfolder : r.kind.isCollection := by
        by_contra hleaf
        have hsame := (h.foldersOnly.inSubtree_iff h.forest.keyed h.row hleaf hp).1
          (Tables.inSubtree_iff.2 (.inr hbelow))
        exact h.forest.acyclic r.id (hsame ▸ hbelow)
      refine .inr ⟨hfolder, hq, hrow.state_of_isAncestor hbelow, ?_, ?_, ?_⟩
      · rw [IsAncestor, hparents, hrow.retouched.id_eq]
        exact hbelow
      · intro b hb hparent _
        obtain ⟨a, ha, hab⟩ := exists_of_mem_right hrows hb
        rw [hab.retouched.parentId_eq] at hparent
        exact hab.retouched.datasetId_eq.trans (h.oneDataset a ha r h.row hparent)
      · intro _ b hb habove _
        obtain ⟨a, ha, hab⟩ := exists_of_mem_right hrows hb
        rw [IsAncestor, hparents, hab.retouched.id_eq] at habove
        exact hab.state_of_isAncestor habove

/-- After the trashing all names are ones that the packages have while they come back. -/
theorem wellNamed : WellNamed (HalfRestored t r) (t.trashAndMark r.id) := by
  intro q hq
  obtain ⟨p, hp, hrow⟩ := exists_of_mem_right (h.forest.rows_trashAndMark r.id).rows hq
  refine ⟨p, hp, hrow.retouched.id_eq.symm, ?_⟩
  by_cases hin : t.InSubtree r.id p
  · exact .inr ⟨hin, hrow.name_eq hin (h.alive p hp hin)⟩
  · rw [hrow.other hin]
    exact .inl rfl

/-- No sibling of a package in the subtree has the old name of the package at any time. -/
theorem not_contested (hp : p ∈ t.packages) (hin : t.InSubtree r.id p) (hpq : p.Retouched q) :
    ¬ Contested (HalfRestored t r) (t.trashAndMark r.id) q p.name := by
  intro hgiven
  obtain ⟨s, hs, hsibling, a, ha, hid, hname⟩ := hgiven
  obtain ⟨b, hb, hrow⟩ := exists_of_mem_right (h.forest.rows_trashAndMark r.id).rows hs
  obtain rfl := h.forest.keyed.eq_of_id ha hb (hid.trans hrow.retouched.id_eq)
  obtain ⟨hne, hdataset, hparent⟩ := Package.isSiblingOf_iff.1 hsibling
  rw [hpq.id_eq, hrow.retouched.id_eq] at hne
  rw [hpq.datasetId_eq, hrow.retouched.datasetId_eq] at hdataset
  rw [hpq.parentId_eq, hrow.retouched.parentId_eq] at hparent
  rcases hname with hsame | ⟨-, hprefixed⟩
  · exact hne (congrArg Package.id (h.namesApart p hp a ha hdataset hparent hsame))
  · refine h.unprefixed p hp hin ?_
    rw [hprefixed]
    exact Name.looksDeleted_deletedPrefix _ _

/-- The old name of a package in the subtree is found behind the prefix. -/
theorem former_eq (hp : p ∈ t.packages) (hin : t.InSubtree r.id p) (hrow : Trashed t r.id p q) :
    Name.former q.name q.nodeId = .ok p.name := by
  rw [hrow.name_eq hin (h.alive p hp hin), hrow.retouched.nodeId_eq]
  exact Name.former_deletedPrefix p.nodeId p.name

/-- No sibling of a package in the subtree may have the old name of the package. -/
theorem uncontested (hp : p ∈ t.packages) (hin : t.InSubtree r.id p) (hrow : Trashed t r.id p q) :
    Uncontested (HalfRestored t r) (t.trashAndMark r.id) (PackageInfo.ofPackage q) := by
  intro old hformer s hs hid
  obtain ⟨a, ha, has⟩ := exists_of_mem_right (h.forest.rows_trashAndMark r.id).rows hs
  obtain rfl := h.forest.keyed.eq_of_id ha hp
    (has.retouched.id_eq.symm.trans (hid.trans hrow.retouched.id_eq))
  obtain rfl : a.name = old := by
    have hfound : Name.former q.name q.nodeId = .ok old := hformer
    rw [h.former_eq hp hin hrow] at hfound
    cases hfound
    rfl
  exact h.not_contested hp hin has.retouched

/-- A package in the subtree can be given its name back. -/
theorem nameable (hp : p ∈ t.packages) (hin : t.InSubtree r.id p)
    (hq : q ∈ (t.trashAndMark r.id).packages) (hrow : Trashed t r.id p q) (text : String) :
    Nameable (HalfRestored t r) (t.trashAndMark r.id) text (PackageInfo.ofPackage q) := by
  have hname : q.name = Name.deletedPrefix q.nodeId ++ p.name := by
    rw [hrow.retouched.nodeId_eq]
    exact hrow.name_eq hin (h.alive p hp hin)
  refine ⟨⟨q, hq, rfl⟩, p.name, hname, [], p.name, _, rfl, ?_, ?_⟩
  · refine List.forall_mem_singleton.2 ⟨p, hp, ?_, .inl rfl⟩
    exact hrow.retouched.id_eq.symm
  · exact h.uncontested hp hin hrow p.name (h.former_eq hp hin hrow)

/-- A package in the subtree has its old name when its name was given back. -/
theorem name_of_namedBack {token : Int → String} {infos : List PackageInfo} {s : Package}
    (hp : p ∈ t.packages) (hin : t.InSubtree r.id p) (hq : q ∈ (t.trashAndMark r.id).packages)
    (hrow : Trashed t r.id p q) (hinfo : PackageInfo.ofPackage q ∈ infos)
    (hname : NamedBack (HalfRestored t r) (t.trashAndMark r.id) token infos q s) :
    s.name = p.name := by
  obtain ⟨old, hformer, -, hsame | hcontested⟩ := hname.given (PackageInfo.ofPackage q) hinfo rfl
  · have hown : Name.former q.name q.nodeId = .ok old := hformer
    rw [h.former_eq hp hin hrow] at hown
    cases hown
    exact hsame
  · exact absurd hcontested (h.uncontested hp hin hrow old hformer q hq rfl)

section Message

variable (hdataset : m.datasetId = r.datasetId) (hnode : m.package.nodeId = r.nodeId)
  (hkind : m.package.kind = r.kind)
include hdataset hnode hkind

/-- What a message for the package takes is the subtree. -/
theorem mem_takenRows_iff (way : Traversal) (hp : p ∈ t.packages)
    (hq : q ∈ (t.trashAndMark r.id).packages) (hrow : Trashed t r.id p q) :
    q ∈ takenRows (t.trashAndMark r.id) way m ↔ t.InSubtree r.id p := by
  rw [Restoration.mem_takenRows_iff h.forest_trashAndMark (h.claimed hdataset hnode)
    (hkind.trans r.retouched_trashed.kind_eq.symm)]
  exact h.takes_iff hp hq hrow

/-- A row that a message for the package takes is one of the subtree. -/
theorem exists_of_mem_takenRows (hq : q ∈ takenRows (t.trashAndMark r.id) way m) :
    ∃ p ∈ t.packages, t.InSubtree r.id p ∧ q ∈ (t.trashAndMark r.id).packages ∧
      Trashed t r.id p q := by
  have hmem := Restoration.mem_of_mem_takenRows hq
  obtain ⟨p, hp, hrow⟩ := exists_of_mem_right (h.forest.rows_trashAndMark r.id).rows hmem
  exact ⟨p, hp, (h.mem_takenRows_iff hdataset hnode hkind way hp hmem hrow).1 hq, hmem, hrow⟩

/-- All names that a message for the package gives back can be given back. -/
theorem nameable_of_mem_takenRows (token : Int → String) (way : Traversal) :
    ∀ q ∈ takenRows (t.trashAndMark r.id) way m, Nameable (HalfRestored t r) (t.trashAndMark r.id)
      (token q.id) (PackageInfo.ofPackage q) := by
  intro q hq
  obtain ⟨p, hp, hin, hmem, hrow⟩ := h.exists_of_mem_takenRows hdataset hnode hkind hq
  exact h.nameable hp hin hmem hrow _

/-- The message for the package is handled, if its leaves are brought back. -/
theorem doneUnless_restore {reason : Prop} {tx : Transaction} {c : Content} {token : Int → String}
    (htables : tx.working = t.trashAndMark r.id) (hleaves : Restoration.LeavesDone reason m tx c) :
    Action.DoneUnless reason (Restoration.restore token m) (tx, c) := by
  have hclaimed : Restoration.claimed? tx.working m = some (setState .restoring r.trashed) := by
    rw [htables]
    exact h.claimed hdataset hnode
  have hnamed : WellNamed (HalfRestored t r) tx.working := by
    rw [htables]
    exact h.wellNamed
  refine Restoration.doneUnless_restore ?_ hclaimed
    (hkind.trans r.retouched_trashed.kind_eq.symm) ?_ hnamed ?_ hleaves
  · rw [htables]
    exact h.forest_trashAndMark
  · rw [htables]
    intro q hq
    obtain ⟨p, hp, hin, -, hrow⟩ := h.exists_of_mem_takenRows hdataset hnode hkind hq
    rw [hrow.retouched.datasetId_eq, hdataset]
    rcases Tables.inSubtree_iff.1 hin with hid | hbelow
    · rw [h.forest.keyed.eq_of_id hp h.row hid]
    · exact h.oneDataset.datasetId_eq h.forest.keyed h.row hp hbelow
  · rw [htables]
    exact h.nameable_of_mem_takenRows hdataset hnode hkind token tx.way

/-- When the message for the package is handled, the subtree is back under its names. -/
theorem roundTrip_restore {tx tx' : Transaction} {c c' : Content} {token : Int → String}
    {events : List Event} (htables : tx.working = t.trashAndMark r.id)
    (hrun : Restoration.restore token m (tx, c) = (.done events, (tx', c'))) :
    Forall₂ (RoundTrip t r.id) t.packages tx'.working.packages ∧
      ∀ e ∈ events, e.formerName = none := by
  have hforest : tx.working.Forest := by
    rw [htables]
    exact h.forest_trashAndMark
  have hnamed : WellNamed (HalfRestored t r) tx.working := by
    rw [htables]
    exact h.wellNamed
  have hnameable : ∀ q ∈ takenRows tx.working tx.way m, Nameable (HalfRestored t r) tx.working
      (token q.id) (PackageInfo.ofPackage q) := by
    rw [htables]
    exact h.nameable_of_mem_takenRows hdataset hnode hkind token tx.way
  have hfree : ∀ q ∈ takenRows tx.working tx.way m,
      Uncontested (HalfRestored t r) tx.working (PackageInfo.ofPackage q) := by
    rw [htables]
    intro q hq
    obtain ⟨p, hp, hin, -, hrow⟩ := h.exists_of_mem_takenRows hdataset hnode hkind hq
    exact h.uncontested hp hin hrow
  refine ⟨?_, Restoration.formerName_restore hforest.toDistinct hnamed hnameable hfree hrun⟩
  obtain ⟨-, hreturned, -⟩ := Restoration.rows_restore hforest hrun
  have hback := hreturned.mp (fun _ _ => And.intro)
    (Restoration.names_restore hnamed hnameable hforest hrun)
  rw [htables] at hback
  have hboth := forall₂_comp (h.forest.rows_trashAndMark r.id).rows
    (forall₂_imp_of_mem hback fun q hq s hqs => And.intro hq hqs)
  refine forall₂_imp_of_mem hboth fun p hp s hgiven => ?_
  obtain ⟨q, hrow, hq, hqs, hname⟩ := hgiven
  have htaken := h.mem_takenRows_iff hdataset hnode hkind tx.way hp hq hrow
  refine ⟨hqs.retouched.trans hrow.retouched, fun hin => ?_, fun hin => ?_, fun hout => ?_⟩
  · exact h.name_of_namedBack hp hin hq hrow (List.mem_map_of_mem (htaken.2 hin)) hname
  · rw [(hqs.back (htaken.2 hin)).2.1, hrow.retouched.kind_eq]
    rfl
  · rw [hqs.other fun hmem => hout (htaken.1 hmem), hrow.other hout]

end Message

end Trashable

end Tables

namespace Workspace

variable {w : Workspace} {r p : Package}

/-- A message for a marked package brings its leaves back, unless there is no room for them. -/
theorem leavesDone_of_claimed (org datasetId : Int) (userId : String) {q : Package}
    (hf : w.packages.tables.Forest)
    (hclaimed : Restoration.claimed? w.packages.tables
      (RestoreRequest.messageFor org datasetId userId q) = some p) (hkind : q.kind = p.kind)
    (hunthrottled : w.content.records.throttled = 0)
    (hfaultless : ObjectTable.HasFaults [] false w.content.objects) :
    Restoration.LeavesDone (¬ Fits w) (RestoreRequest.messageFor org datasetId userId q)
      w.packages.begin w.content := by
  refine Restoration.leavesDone_unless hf (fun hfits => ?_) hunthrottled hfaultless
  have htaken : ∀ l ∈ takenRows w.packages.tables w.packages.way
      (RestoreRequest.messageFor org datasetId userId q),
      l ∈ w.packages.tables.packages ∧ Restoration.Unrestored l := fun l hl =>
    ⟨Restoration.mem_of_mem_takenRows hl, ((Restoration.mem_takenRows_iff hf hclaimed hkind).1
      hl).unrestored (Restoration.of_claimed? hclaimed).2.2.2⟩
  have hsizes : ((Restoration.leafRows w.packages.tables w.packages.way
      (RestoreRequest.messageFor org datasetId userId q)).map fun l =>
        (restoredSize w (RestoreRequest.messageFor org datasetId userId q) l).natAbs).sum ≤
      pendingSize w := by
    rw [Restoration.leafRows_eq_leaves hclaimed hkind,
      List.map_congr_left fun l _ => by rw [restoredSize_messageFor rfl rfl]]
    exact sum_le_pendingSize (Restoration.nodup_takenRows hf _ _) htaken
  exact ⟨hfits.files, _, hfits.room, hsizes⟩

/-- A workspace in which a package was trashed with everything below it and then marked for
restoring. -/
def trashAndMark (w : Workspace) (id : Int) : Workspace :=
  { w with packages := { w.packages with tables := w.packages.tables.trashAndMark id } }

/-- Restoring a package undoes its trashing. When nothing in the subtree of a package is in the trash or
named as if it were, the package is trashed and marked, and the message for it is handled without
faults, then every package of the subtree has its name back and its final state, no other row has
changed, and no event tells an old name. No total leaves its range: either all of them have room for
what is counted, or there happens to be room. -/
theorem restore_undoes_trash (token : Int → String) (userId name : String)
    (h : w.packages.tables.Trashable r)
    (hrange : Fits (w.trashAndMark r.id) ∨
      (restore token (RestoreRequest.messageFor w.packages.org r.datasetId userId (r.rename name))
        ((w.trashAndMark r.id).withFaults .none)).1 ≠ .aborted) :
    ∃ events w', restore token
        (RestoreRequest.messageFor w.packages.org r.datasetId userId (r.rename name))
        ((w.trashAndMark r.id).withFaults .none) = (.done events, w') ∧
      Forall₂ (w.packages.tables.RoundTrip r.id) w.packages.tables.packages
        w'.packages.tables.packages ∧
      ∀ e ∈ events, e.formerName = none := by
  have hdone : Action.DoneUnless (¬ Fits (w.trashAndMark r.id)) (restore token
      (RestoreRequest.messageFor w.packages.org r.datasetId userId (r.rename name)))
      ((w.trashAndMark r.id).withFaults .none) := by
    refine doneUnless_restore_of_flow rfl (h.doneUnless_restore rfl rfl rfl rfl fun tx hrows => ?_)
    have hleaves := leavesDone_of_claimed (w := (w.trashAndMark r.id).withFaults .none)
      (q := r.rename name) w.packages.org r.datasetId userId h.forest_trashAndMark
      (h.claimed rfl rfl) r.retouched_trashed.kind_eq.symm rfl ⟨rfl, rfl⟩
    exact (hleaves tx hrows).mono fun hnot hfits => hnot ⟨hfits.files, hfits.room⟩
  obtain ⟨events, w', hrun⟩ := hdone.resolve_right fun hgiven =>
    hrange.elim hgiven.2 fun hnot => hnot hgiven.1
  obtain ⟨-, tx, content, hflow, hafter⟩ := restore_eq_done.1 hrun
  obtain ⟨hrows, hevents⟩ := h.roundTrip_restore rfl rfl rfl rfl hflow
  refine ⟨events, w', hrun, ?_, hevents⟩
  rw [hafter, report_eq]
  exact hrows

/-! ## A workspace with living packages -/

/-- A folder with a folder, in which there is a file, and a file that is named like a second choice for
the folder beside it. Beside all of them lies a trashed file that had the name of the first folder. -/
def livingTables : Tables where
  lastId := 6
  datasets := [⟨1, "Dataset", some "N:dataset:1"⟩]
  packages := [
    ⟨2, "F", .collection, .ready, "f", none, 1, 1, none, false⟩,
    ⟨3, "A", .collection, .ready, "g", some 2, 1, 1, none, false⟩,
    ⟨4, "B", .text, .uploaded, "a", some 3, 1, 1, none, false⟩,
    ⟨5, "A-restored_1", .text, .ready, "b", some 2, 1, 1, none, false⟩,
    ⟨6, "__DELETED__c_F", .text, .deleted, "c", none, 1, 1, none, false⟩]
  files := [⟨4, 3⟩]
  packageStorage := .empty
  datasetStorage := .empty
  organizationStorage := .empty

/-- A workspace with these tables, in which the other file has a delete record. -/
def living : Workspace where
  packages := ⟨1, .bounded, livingTables⟩
  content := ⟨⟨⟨[⟨"b", "store", "y", "v", some 2⟩]⟩, 0, [], []⟩,
    ⟨[⟨"store", "y", [⟨"v", true⟩]⟩], [], false, []⟩⟩
  changelog := none
  queue := .empty

/-- The first folder. -/
def livingFolder : Package := ⟨2, "F", .collection, .ready, "f", none, 1, 1, none, false⟩

/-- In this workspace the first folder can be trashed and brought back. -/
theorem trashable_livingFolder : livingTables.Trashable livingFolder := by
  have hinside : ∀ p ∈ livingTables.packages, livingTables.InSubtree 2 p →
      p.id = 2 ∨ p.parentId.isSome := by
    intro p hp hin
    refine (Tables.inSubtree_iff.1 hin).imp_right fun habove => ?_
    have hk : livingTables.Keyed := by decide
    obtain ⟨_, hparent, -⟩ := (hk.isAncestor_iff hp).1 habove
    rw [hparent]
    rfl
  have hliving : ∀ p ∈ livingTables.packages, p.id = 2 ∨ p.parentId.isSome →
      p.state ≠ .deleted ∧ ¬ Name.LooksDeleted p.name := by
    decide
  exact {
    forest := Tables.forest_of_lt (by decide) (by decide) (by decide)
    oneDataset := by decide
    foldersOnly := by decide
    namesApart := by decide
    row := by decide
    alive := fun p hp hin => (hliving p hp (hinside p hp hin)).1
    unprefixed := fun p hp hin => (hliving p hp (hinside p hp hin)).2 }

/-- The first folder comes back under its name, although there is a trashed file that had this name. -/
theorem restore_undoes_trash_living :
    ∃ events w', restore sampleToken
        (RestoreRequest.messageFor 1 1 "user" (livingFolder.rename "__DELETED__f_F"))
        ((living.trashAndMark 2).withFaults .none) = (.done events, w') ∧
      w'.packages.tables.packages.map Package.name =
        ["F", "A", "B", "A-restored_1", "__DELETED__c_F"] ∧
      Forall₂ (livingTables.RoundTrip 2) livingTables.packages w'.packages.tables.packages := by
  have hroom : Totals.Room .empty (pendingSize (living.trashAndMark 2)) := by decide +kernel
  have hfits : Fits (living.trashAndMark 2) := ⟨by decide +kernel, hroom, hroom, hroom⟩
  obtain ⟨events, w', hrun, hrows, -⟩ := restore_undoes_trash (w := living) sampleToken "user"
    "__DELETED__f_F" trashable_livingFolder (.inl hfits)
  have hnames : (restore sampleToken
      (RestoreRequest.messageFor 1 1 "user" (livingFolder.rename "__DELETED__f_F"))
      ((living.trashAndMark 2).withFaults .none)).2.packages.tables.packages.map Package.name =
        ["F", "A", "B", "A-restored_1", "__DELETED__c_F"] := by
    decide +kernel
  change restore sampleToken
    (RestoreRequest.messageFor 1 1 "user" (livingFolder.rename "__DELETED__f_F"))
    ((living.trashAndMark 2).withFaults .none) = _ at hrun
  rw [hrun] at hnames
  exact ⟨events, w', hrun, hnames, hrows⟩

end Workspace

end Salvage
