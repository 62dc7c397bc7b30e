import Salvage.Proofs.Accounting
import Salvage.Proofs.Content
import Salvage.Proofs.Tables.Descent
import Salvage.Restoration

/-!
# The steps of a restore

A restore that is done went through all of its steps: `restoreLeaf_done` and `restoreFolder_done`
name the transactions between them. Which packages are claimed and moved can be read off the tables
at the start, since no step before the move of the descendants changes what it takes along. From
these steps follows what a restore counts.
-/

namespace Salvage.Restoration

open Accounting (Credited countedSize)

variable {α : Type} {tx tx' : Transaction} {c c' : Content} {token : Int → String}
  {m : RestoreMessage} {info : PackageInfo} {infos leaves : List PackageInfo}
  {events : List Event} {datasetId : Int}

/-! ## Parts of a flow -/

/-- Work in the transaction is done beside the content. -/
theorem inTransaction_eq_done {x : Action Transaction α} {a : α} :
    inTransaction x (tx, c) = (.done a, (tx', c')) ↔ x tx = (.done a, tx') ∧ c' = c := by
  rw [inTransaction, Action.on_eq_done]
  constructor
  · intro hgiven
    obtain ⟨_, hx, ⟨⟩⟩ := hgiven
    exact ⟨hx, rfl⟩
  · intro hgiven
    obtain ⟨hx, rfl⟩ := hgiven
    exact ⟨tx', hx, rfl⟩

/-- Work on the content is done beside the transaction. -/
theorem inContent_eq_done {x : Action Content α} {a : α} :
    inContent x (tx, c) = (.done a, (tx', c')) ↔ x c = (.done a, c') ∧ tx' = tx := by
  rw [inContent, Action.on_eq_done]
  constructor
  · intro hgiven
    obtain ⟨_, hx, ⟨⟩⟩ := hgiven
    exact ⟨hx, rfl⟩
  · intro hgiven
    obtain ⟨hx, rfl⟩ := hgiven
    exact ⟨c', hx, rfl⟩

/-! ## Names -/

/-- Giving a package its name back comes down to renaming it to one of the candidates. -/
theorem restoreName_done {text : String} {restored : Name.Restored}
    (h : restoreName text info tx = (.done restored, tx')) :
    Name.former info.name info.nodeId = .ok restored.former ∧
      restored.name ∈ Name.candidates restored.former text ∧
      Transaction.rename info.id restored.name tx = (.done (), tx') := by
  simp only [restoreName, Action.bind_eq_done, Action.ofOutcome_eq_done, Action.pure_eq_done] at h
  obtain ⟨former, _, ⟨hformer, rfl⟩, found, _, hfound, rfl, rfl⟩ := h
  obtain ⟨hmem, hrename⟩ := Transaction.guarded_rename_done hfound
  refine ⟨?_, hmem, hrename⟩
  cases hname : Name.former info.name info.nodeId with
  | error e => rw [hname] at hformer; cases hformer
  | ok name => rw [hname] at hformer; cases hformer; rfl

/-- Giving a row its name back comes down to renaming it to the first of its candidates that is
free. -/
theorem restoreName_eq_done {text : String} {restored : Name.Restored} {p : Package}
    (hp : tx.working.package? info.id = some p) :
    restoreName text info tx = (.done restored, tx') ↔
      Name.former info.name info.nodeId = .ok restored.former ∧
        ((Name.candidates restored.former text).find? fun c =>
          !tx.working.siblingHasName p c) = some restored.name ∧
        tx' = { tx with working := tx.working.changeId info.id (·.rename restored.name) } := by
  constructor
  · intro h
    obtain ⟨hformer, -, hrename⟩ := restoreName_done h
    obtain ⟨_, -, -, rfl⟩ := Transaction.rename_eq_done.1 hrename
    refine ⟨hformer, ?_, rfl⟩
    simp only [restoreName, hformer, Action.bind_eq_done, Action.ofOutcome_eq_done,
      Action.pure_eq_done] at h
    obtain ⟨_, _, ⟨⟨⟩, rfl⟩, found, _, hfound, hrestored, -⟩ := h
    rw [Transaction.find?_of_guarded_rename_done (Name.length_candidates _ _).le hp hfound,
      hrestored]
  · intro hgiven
    obtain ⟨hformer, hname, rfl⟩ := hgiven
    obtain ⟨attempts, hfound⟩ :=
      Transaction.guarded_rename_of_find? (savepointName info.nodeId)
        (Name.length_candidates restored.former text).le hp hname
    simp only [restoreName, Action.bind_eq_done, Action.ofOutcome_eq_done, Action.pure_eq_done]
    exact ⟨restored.former, tx, ⟨by rw [hformer]; rfl, rfl⟩, _, _, hfound, rfl, rfl⟩

/-- A package keeps its name, unless it is one of some packages and may get another one. -/
def Renamed (ids : List Int) (p q : Package) : Prop :=
  q = p ∨ p.id ∈ ids ∧ ∃ name, q = p.rename name

/-- Giving a package its name back changes the name of that package at most. -/
theorem evolves_restoreName {text : String} {restored : Name.Restored}
    (h : restoreName text info tx = (.done restored, tx')) :
    tx.Evolves (Renamed [info.id]) tx' := by
  obtain ⟨-, -, hrename⟩ := restoreName_done h
  obtain ⟨_, -, -, rfl⟩ := Transaction.rename_eq_done.1 hrename
  refine (Transaction.evolves_changeId tx info.id _).imp fun p _ q hq => ?_
  split at hq
  · rename_i hid
    exact .inr ⟨List.mem_singleton.2 hid, _, hq⟩
  · exact .inl hq

/-- Giving packages their names back changes their names at most. -/
theorem evolves_restoreNames {parents : List EventParent}
    (h : restoreNames token parents infos tx = (.done events, tx')) :
    tx.Evolves (Renamed (infos.map PackageInfo.id)) tx' := by
  induction infos generalizing parents events tx with
  | nil =>
    obtain ⟨-, rfl⟩ := Action.pure_eq_done.1 h
    exact ⟨Tables.evolves_refl _ fun p => .inl rfl, rfl⟩
  | cons info infos ih =>
    simp only [restoreNames, Action.bind_eq_done, Action.pure_eq_done] at h
    obtain ⟨restored, tx₁, hname, others, _, hrest, -, rfl⟩ := h
    apply ((evolves_restoreName hname).trans (ih hrest)).imp
    intro p _ r hgiven
    obtain ⟨q, hpq, hqr⟩ := hgiven
    rcases hpq with rfl | ⟨hid, name, rfl⟩
    · exact hqr.imp_right (And.imp_left (List.mem_cons_of_mem _))
    · refine .inr ⟨List.mem_cons.2 (.inl (List.mem_singleton.1 hid)), ?_⟩
      rcases hqr with rfl | ⟨-, name', rfl⟩
      · exact ⟨name, rfl⟩
      · exact ⟨name', rfl⟩

/-! ## The steps -/

/-- The package that a message claims: the first with its node id that is marked for restoring. -/
def claimed? (t : Tables) (m : RestoreMessage) : Option Package :=
  t.packages.find? fun p =>
    p.datasetId == m.datasetId && p.nodeId == m.package.nodeId && p.state == .restoring

/-- The package that is claimed is a row with the node id that is marked. -/
theorem of_claimed? {t : Tables} {p : Package} (h : claimed? t m = some p) :
    p ∈ t.packages ∧ p.datasetId = m.datasetId ∧ p.nodeId = m.package.nodeId ∧
      p.state = .restoring := by
  refine ⟨List.mem_of_find?_eq_some h, ?_⟩
  simpa [and_assoc] using List.find?_some h

/-- The only package with the node id is claimed when it is marked. -/
theorem claimed_of_mem {t : Tables} {p : Package} (hd : t.Distinct) (hp : p ∈ t.packages)
    (hstate : p.state = .restoring) (hdataset : m.datasetId = p.datasetId)
    (hnode : m.package.nodeId = p.nodeId) : claimed? t m = some p := by
  cases hclaimed : claimed? t m with
  | none =>
    have hnone := List.find?_eq_none.1 hclaimed p hp
    simp [hdataset, hnode, hstate] at hnone
  | some q =>
    obtain ⟨hq, -, hown, -⟩ := of_claimed? hclaimed
    rw [hd.eq_of_nodeId hq hp (hown.trans hnode)]

/-- A claim finds the package that is marked. -/
theorem claim_of_claimed (hp : claimed? tx.working m = some p) :
    claim m tx = (.done (p.moveTo .restoring),
      { tx with working := tx.working.changeId p.id (·.moveTo .restoring) }) :=
  Transaction.move_eq_done.2 ⟨p, hp, rfl, rfl⟩

/-- What is known of packages stays when they move to a state. -/
theorem map_ofPackage_moveTo (ps : List Package) (target : Package.State) :
    (ps.map (·.moveTo target)).map PackageInfo.ofPackage = ps.map PackageInfo.ofPackage :=
  List.map_map

/-- What is known of a leaf when its size is looked for. -/
def leafInfo (m : RestoreMessage) (p : Package) : PackageInfo :=
  { PackageInfo.ofPackage p with
    size := if m.package.kind.isCollection then none else m.package.size }

/-- The tables after a package was claimed, and then what is to be restored below it. -/
def marked (t : Tables) (way : Traversal) (datasetId id : Int) : Tables :=
  (t.changeId id (·.moveTo .restoring)).change
    (fun q => ((t.descendants way datasetId id .deleted).map Package.id).contains q.id)
    (·.moveTo .restoring)

/-- Claiming a package does not change which of its descendants are to move. -/
theorem descendants_changeId {t : Tables} (hk : t.Keyed) {p : Package}
    (hp : claimed? t m = some p) (way : Traversal) (datasetId : Int) :
    (t.changeId p.id (·.moveTo .restoring)).descendants way datasetId p.id .deleted =
      t.descendants way datasetId p.id .deleted := by
  obtain ⟨hmem, -, -, hstate⟩ := of_claimed? hp
  have hsame : ∀ q ∈ t.packages, q.id = p.id → q.state = .restoring :=
    fun q hq hid => hk.eq_of_id hq hmem hid ▸ hstate
  exact Tables.descendants_changeId_moveTo (by decide) hsame

/-- Claiming a package does not change what is to be restored below it. -/
theorem moveDescendants_changeId {t : Tables} (hk : t.Keyed) {p : Package}
    (hp : claimed? t m = some p) (way : Traversal) (datasetId : Int) :
    (t.changeId p.id (·.moveTo .restoring)).moveDescendants way datasetId p.id .deleted .restoring =
      ((t.descendants way datasetId p.id .deleted).map (·.moveTo .restoring),
        marked t way datasetId p.id) := by
  rw [Tables.moveDescendants, descendants_changeId hk hp, marked]

/-- A restore of a leaf that is done claimed it, named it, brought it back and finished it. -/
theorem restoreLeaf_done (h : restoreLeaf token m (tx, c) = (.done events, (tx', c'))) :
    ∃ p restored tx₁ tx₂, claimed? tx.working m = some p ∧
      restoreName (token p.id) { PackageInfo.ofPackage p with size := m.package.size }
        { tx with working := tx.working.changeId p.id (·.moveTo .restoring) } =
          (.done restored, tx₁) ∧
      restoreLeaves m.datasetId [{ PackageInfo.ofPackage p with size := m.package.size }] (tx₁, c) =
        (.done (), (tx₂, c')) ∧
      finish m.datasetId (PackageInfo.ofPackage p) tx₂ = (.done (), tx') ∧
      events = [Event.ofRestored { PackageInfo.ofPackage p with size := m.package.size } restored
        none] := by
  simp only [restoreLeaf, Action.bind_eq_done, Action.pure_eq_done, Prod.exists,
    inTransaction_eq_done, claim, Transaction.move_eq_done] at h
  obtain ⟨_, _, _, ⟨⟨p, hp, rfl, rfl⟩, rfl⟩, restored, tx₁, _, ⟨hname, rfl⟩, _, tx₂, c₂, hleaves, _,
    _, _, ⟨hfinish, rfl⟩, rfl, ⟨⟩⟩ := h
  exact ⟨p, restored, tx₁, tx₂, hp, hname, hleaves, hfinish, rfl⟩

/-- A check for a folder looks at the row with the node id, and changes nothing. -/
theorem checkFolder_apply (m : RestoreMessage) (tx : Transaction) :
    checkFolder m tx =
      match tx.working.packageByNode? m.datasetId m.package.nodeId with
      | none => (.failed (.folderNotFound tx.org (.id m.datasetId) m.package.nodeId none), tx)
      | some p =>
        if p.kind.isCollection then (.done (), tx)
        else
          (.failed (.folderNotFound tx.org (.id m.datasetId) m.package.nodeId (some p.kind)), tx) := by
  rw [checkFolder, Action.get_bind_apply]
  cases tx.working.packageByNode? m.datasetId m.package.nodeId with
  | none => rfl
  | some p =>
    dsimp only
    split <;> rfl

/-- A check for a folder that is done found one and changed nothing. -/
theorem checkFolder_done {u : Unit} (h : checkFolder m tx = (.done u, tx')) :
    tx' = tx ∧ ∃ q, tx.working.packageByNode? m.datasetId m.package.nodeId = some q ∧
      q.kind.isCollection := by
  rw [checkFolder_apply] at h
  cases hfound : tx.working.packageByNode? m.datasetId m.package.nodeId with
  | none =>
    rw [hfound] at h
    cases h
  | some q =>
    rw [hfound] at h
    dsimp only at h
    split at h
    · rename_i hfolder
      cases h
      exact ⟨rfl, q, rfl, hfolder⟩
    · cases h

/-- A check for a folder that is there is done. -/
theorem checkFolder_of_found {p : Package}
    (hp : tx.working.packageByNode? m.datasetId m.package.nodeId = some p)
    (hfolder : p.kind.isCollection) : checkFolder m tx = (.done (), tx) := by
  rw [checkFolder_apply, hp]
  exact if_pos hfolder

/-- A restore of a folder that is done claimed it, moved what is below it, gave all their names
back, brought the leaves back and finished every package. -/
theorem restoreFolder_done (hk : tx.working.Keyed)
    (h : restoreFolder token m (tx, c) = (.done events, (tx', c'))) :
    ∃ p q infos folder others finished moved tx₁ tx₂ tx₃ tx₄, claimed? tx.working m = some p ∧
      tx.working.packageByNode? m.datasetId m.package.nodeId = some q ∧ q.kind.isCollection ∧
      infos = (tx.working.descendants tx.way m.datasetId p.id .deleted).map PackageInfo.ofPackage ∧
      restoreName (token p.id) (PackageInfo.ofPackage p)
        { tx with working := marked tx.working tx.way m.datasetId p.id } = (.done folder, tx₁) ∧
      restoreNames token [Event.asParent (PackageInfo.ofPackage p) folder] infos tx₁ =
        (.done others, tx₂) ∧
      restoreLeaves m.datasetId (infos.filter fun info => !info.kind.isCollection) (tx₂, c) =
        (.done (), (tx₃, c')) ∧
      Action.each (finish m.datasetId) ((infos.filter fun info => info.kind.isCollection) ++
        infos.filter fun info => !info.kind.isCollection) tx₃ = (.done finished, tx₄) ∧
      Transaction.move m.datasetId p.nodeId .restoring .ready tx₄ = (.done moved, tx') ∧
      events = Event.ofRestored (PackageInfo.ofPackage p) folder none :: others := by
  simp only [restoreFolder, Action.bind_eq_done, Action.pure_eq_done, Prod.exists,
    inTransaction_eq_done, claim, Transaction.move_eq_done, Transaction.moveDescendants_eq_done,
    List.partition_eq_filter_filter] at h
  obtain ⟨_, tx₀, _, ⟨hcheck, rfl⟩, _, _, _, ⟨⟨p, hp, rfl, rfl⟩, rfl⟩, below, _, _,
    ⟨⟨hbelow, rfl⟩, rfl⟩, folder, tx₁, _, ⟨hfolder, rfl⟩, others, tx₂, _, ⟨hothers, rfl⟩, _, tx₃,
    c₃, hleaves, finished, tx₄, _, ⟨hfinish, rfl⟩, moved, _, _, ⟨hmove, rfl⟩, rfl, ⟨⟩⟩ := h
  obtain ⟨hsame, q, hq, hkind⟩ := checkFolder_done hcheck
  subst tx₀
  have hmoved := moveDescendants_changeId hk hp tx.way m.datasetId
  have hinfos : below.map PackageInfo.ofPackage =
      (tx.working.descendants tx.way m.datasetId p.id .deleted).map PackageInfo.ofPackage := by
    rw [hbelow.trans (congrArg Prod.fst hmoved)]
    exact map_ofPackage_moveTo _ _
  have hnamed : restoreName (token p.id) (PackageInfo.ofPackage p)
      { tx with working := marked tx.working tx.way m.datasetId p.id } = (.done folder, tx₁) := by
    have hmarked : marked tx.working tx.way m.datasetId p.id = _ := (congrArg Prod.snd hmoved).symm
    rw [hmarked]
    exact hfolder
  rw [hinfos] at hothers hleaves hfinish
  exact ⟨p, q, _, folder, others, finished, moved, tx₁, tx₂, tx₃, tx₄, hp, hq, hkind, rfl, hnamed,
    hothers, hleaves, hfinish, Transaction.move_eq_done.2 hmove, rfl⟩

/-- A claim of a package that is not marked fails. -/
theorem claim_of_not_claimed (c : Content) (h : claimed? tx.working m = none) :
    inTransaction (claim m) (tx, c) =
      (.failed (.packageNotFound tx.org (some (.id m.datasetId)) (.nodeId m.package.nodeId)),
        (tx, c)) :=
  Action.on_apply_of (Transaction.move_of_none h)

/-- A restore whose message claims nothing fails and does nothing. -/
theorem restore_of_not_claimed (token : Int → String) (c : Content)
    (h : claimed? tx.working m = none) :
    ∃ e, restore token m (tx, c) = (.failed e, (tx, c)) := by
  have hclaim := claim_of_not_claimed c h
  have hcheck : (∃ e, checkFolder m tx = (.failed e, tx)) ∨ checkFolder m tx = (.done (), tx) := by
    rw [checkFolder_apply]
    cases tx.working.packageByNode? m.datasetId m.package.nodeId with
    | none => exact .inl ⟨_, rfl⟩
    | some p =>
      dsimp only
      split
      · exact .inr rfl
      · exact .inl ⟨_, rfl⟩
  rw [restore]
  split
  · rw [restoreFolder]
    rcases hcheck with ⟨e, hfailed⟩ | hdone
    · exact ⟨e, Action.bind_of_failed (Action.on_apply_of hfailed)⟩
    · have hfirst : inTransaction (checkFolder m) (tx, c) = (.done (), (tx, c)) :=
        Action.on_apply_of hdone
      rw [Action.bind_of_done hfirst]
      exact ⟨_, Action.bind_of_failed hclaim⟩
  · exact ⟨_, Action.bind_of_failed hclaim⟩

/-! ## What is counted -/

/-- Renaming changes the name at most. -/
theorem Renamed.retouched {ids : List Int} {p q : Package} (h : Renamed ids p q) :
    p.Retouched q := by
  rcases h with rfl | ⟨-, name, rfl⟩ <;> rfl

/-- Marking packages changes no more than their states. -/
theorem retouched_marked (t : Tables) (way : Traversal) (datasetId id : Int) :
    t.Evolves Package.Retouched (marked t way datasetId id) := by
  apply ((Tables.evolves_change _ _ _).trans (Tables.evolves_change _ _ _)).imp
  intro p _ r hgiven
  obtain ⟨q, rfl, rfl⟩ := hgiven
  rw [Package.Retouched]
  split <;> split <;> rfl

/-- A move changes no more than the state of a package. -/
theorem retouched_move {nodeId : String} {expected target : Package.State} {moved : Package}
    (h : Transaction.move datasetId nodeId expected target tx = (.done moved, tx')) :
    tx.Evolves Package.Retouched tx' := by
  obtain ⟨p, -, -, rfl⟩ := Transaction.move_eq_done.1 h
  refine (Transaction.evolves_changeId tx p.id _).imp fun q _ r hr => ?_
  rw [hr, Package.Retouched]
  split <;> rfl

/-- Finishing a package that is done moved it to the state in which it ends. -/
theorem finish_done {u : Unit} (h : finish datasetId info tx = (.done u, tx')) :
    ∃ moved, Transaction.move datasetId info.nodeId .restoring (.restored info.kind) tx =
      (.done moved, tx') := by
  simp only [finish, Action.bind_eq_done, Action.pure_eq_done] at h
  obtain ⟨moved, _, hmove, -, rfl⟩ := h
  exact ⟨moved, hmove⟩

/-- Finishing a package changes no more than its state. -/
theorem retouched_finish {u : Unit} (h : finish datasetId info tx = (.done u, tx')) :
    tx.Evolves Package.Retouched tx' := by
  obtain ⟨_, hmove⟩ := finish_done h
  exact retouched_move hmove

/-- Finishing packages one after another changes no more than their states. -/
theorem retouched_each_finish {us : List Unit}
    (h : Action.each (finish datasetId) infos tx = (.done us, tx')) :
    tx.Evolves Package.Retouched tx' := by
  have hstep (info : PackageInfo) :
      Action.WhenDone (Transaction.Evolves Package.Retouched) (finish datasetId info) :=
    fun _ _ _ => retouched_finish
  exact Action.whenDone_each hstep infos h

/-- Bringing leaves back changes nothing but storage totals in the tables. -/
theorem rest_restoreLeaves {u : Unit}
    (h : restoreLeaves datasetId leaves (tx, c) = (.done u, (tx', c'))) :
    ∃ packages datasets organizations, tx' = { tx with working := { tx.working with
      packageStorage := packages
      datasetStorage := datasets
      organizationStorage := organizations } } := by
  simp only [restoreLeaves, Accounting.leafSizes, Action.bind_eq_done, Action.pure_eq_done,
    Prod.exists, inTransaction_eq_done, inContent_eq_done, Transaction.fileSizes_eq_done] at h
  obtain ⟨_, _, _, ⟨-, rfl⟩, _, _, _, ⟨⟨_, _, ⟨-, rfl⟩, -, rfl⟩, rfl⟩, _, _, _, ⟨hpropagate, rfl⟩,
    -, ⟨⟩⟩ := h
  exact (Accounting.propagate_done hpropagate).1

/-- Bringing leaves back changes no package. -/
theorem packages_restoreLeaves {u : Unit}
    (h : restoreLeaves datasetId leaves (tx, c) = (.done u, (tx', c'))) :
    tx'.working.packages = tx.working.packages := by
  obtain ⟨_, _, _, rfl⟩ := rest_restoreLeaves h
  rfl

/-- Bringing leaves back counts all of them with the sizes known at the start. -/
theorem credited_restoreLeaves {u : Unit}
    (hids : ∀ l ∈ leaves, ∀ l' ∈ leaves, l.id = l'.id → l = l')
    (h : restoreLeaves datasetId leaves (tx, c) = (.done u, (tx', c'))) :
    Credited tx.working datasetId tx.org (countedSize tx.working c.records.records) leaves
      tx'.working := by
  simp only [restoreLeaves, Action.bind_eq_done, Action.pure_eq_done, Prod.exists,
    inTransaction_eq_done, inContent_eq_done] at h
  obtain ⟨found, _, _, ⟨hundelete, rfl⟩, sizes, _, _, ⟨hsizes, rfl⟩, total, _, _,
    ⟨hpropagate, rfl⟩, -, ⟨⟩⟩ := h
  obtain ⟨rfl, hcounted⟩ := Accounting.leafSizes_done hids hsizes
  refine (Accounting.propagate_done hpropagate).2.congr fun l hl => ?_
  rw [hcounted l hl, countedSize, countedSize, (Content.undelete_done hundelete).found,
    if_pos (List.mem_map_of_mem hl)]
  rfl

/-- The leaves that a restore brings back. -/
def leafRows (t : Tables) (way : Traversal) (m : RestoreMessage) : List Package :=
  match claimed? t m with
  | none => []
  | some p =>
    if m.package.kind.isCollection then
      (t.descendants way m.datasetId p.id .deleted).filter fun q => !q.kind.isCollection
    else [p]

/-- The leaves of a folder are those of the packages that are restored below it. -/
theorem map_leafRows_of_folder {t : Tables} {p : Package} (hp : claimed? t m = some p)
    (hfolder : m.package.kind.isCollection) (way : Traversal) :
    (leafRows t way m).map (leafInfo m) =
      ((t.descendants way m.datasetId p.id .deleted).map PackageInfo.ofPackage).filter
        fun info => !info.kind.isCollection := by
  rw [leafRows, hp, List.filter_map]
  dsimp only
  rw [if_pos hfolder]
  refine List.map_congr_left fun q _ => ?_
  rw [leafInfo, if_pos hfolder]
  rfl

/-- The leaf of a message that is not about a folder is what it claims. -/
theorem map_leafRows_of_leaf {t : Tables} {p : Package} (hp : claimed? t m = some p)
    (hleaf : ¬ m.package.kind.isCollection) (way : Traversal) :
    (leafRows t way m).map (leafInfo m) =
      [{ PackageInfo.ofPackage p with size := m.package.size }] := by
  rw [leafRows, hp]
  dsimp only
  rw [if_neg hleaf, List.map_singleton, leafInfo, if_neg hleaf]

/-- Leaves are rows. -/
theorem mem_of_mem_leafRows {t : Tables} {way : Traversal} {p : Package}
    (h : p ∈ leafRows t way m) : p ∈ t.packages := by
  rw [leafRows] at h
  split at h
  · cases h
  · rename_i q hq
    split at h
    · exact Tables.mem_of_mem_descendants (List.mem_filter.1 h).1
    · rw [List.mem_singleton.1 h]
      exact (of_claimed? hq).1

/-- Leaves with one number are the same. -/
theorem eq_of_id_of_mem_leaves {t : Tables} (hk : t.Keyed) {way : Traversal} {l l' : PackageInfo}
    (hl : l ∈ (leafRows t way m).map (leafInfo m)) (hl' : l' ∈ (leafRows t way m).map (leafInfo m))
    (hid : l.id = l'.id) : l = l' := by
  obtain ⟨p, hp, rfl⟩ := List.mem_map.1 hl
  obtain ⟨q, hq, rfl⟩ := List.mem_map.1 hl'
  rw [hk.eq_of_id (mem_of_mem_leafRows hp) (mem_of_mem_leafRows hq) hid]

/-- A restore that is done brought the leaves of the package that it claimed back in one step, and
before and after that it changed no more than names and states. -/
theorem restore_leaves (hk : tx.working.Keyed)
    (h : restore token m (tx, c) = (.done events, (tx', c'))) :
    (claimed? tx.working m).isSome ∧ ∃ tx₁ tx₂, tx.Evolves Package.Retouched tx₁ ∧
      restoreLeaves m.datasetId ((leafRows tx.working tx.way m).map (leafInfo m)) (tx₁, c) =
        (.done (), (tx₂, c')) ∧
      tx₂.Evolves Package.Retouched tx' := by
  have htrans {a b d : Transaction} (hab : a.Evolves Package.Retouched b)
      (hbd : b.Evolves Package.Retouched d) : a.Evolves Package.Retouched d :=
    IsTrans.trans _ _ _ hab hbd
  rw [restore] at h
  split at h
  · rename_i hfolder
    obtain ⟨p, q, infos, folder, others, finished, moved, tx₁, tx₂, tx₃, tx₄, hp, -, -, rfl, hname,
      hothers, hleaves, hfinish, hmove, -⟩ := restoreFolder_done hk h
    have hmarked : tx.Evolves Package.Retouched
        { tx with working := marked tx.working tx.way m.datasetId p.id } :=
      ⟨retouched_marked _ _ _ _, rfl⟩
    have hnamed := (evolves_restoreName hname).imp fun _ _ _ => Renamed.retouched
    have hallNamed := (evolves_restoreNames hothers).imp fun _ _ _ => Renamed.retouched
    refine ⟨by rw [hp]; rfl, tx₂, tx₃, htrans (htrans hmarked hnamed) hallNamed, ?_, ?_⟩
    · rw [map_leafRows_of_folder hp hfolder]
      exact hleaves
    · exact htrans (retouched_each_finish hfinish) (retouched_move hmove)
  · rename_i hleaf
    obtain ⟨p, restored, tx₁, tx₂, hp, hname, hleaves, hfinish, -⟩ := restoreLeaf_done h
    have hclaimed := retouched_move (claim_of_claimed hp)
    have hnamed := (evolves_restoreName hname).imp fun _ _ _ => Renamed.retouched
    refine ⟨by rw [hp]; rfl, tx₁, tx₂, htrans hclaimed hnamed, ?_, retouched_finish hfinish⟩
    rw [map_leafRows_of_leaf hp hleaf]
    exact hleaves

/-- A restore that is done changes nothing but packages and storage totals in the tables. -/
theorem rest_restore (hk : tx.working.Keyed)
    (h : restore token m (tx, c) = (.done events, (tx', c'))) :
    ∃ packages datasets organizations, tx'.working = { tx.working with
      packages := tx'.working.packages
      packageStorage := packages
      datasetStorage := datasets
      organizationStorage := organizations } := by
  obtain ⟨-, tx₁, tx₂, hbefore, hleaves, hafter⟩ := restore_leaves hk h
  obtain ⟨packages, datasets, organizations, rfl⟩ := rest_restoreLeaves hleaves
  refine ⟨packages, datasets, organizations, hafter.working.rest.trans ?_⟩
  rw [hbefore.working.rest]

/-- A restore that is done claimed a package and counted all leaves, with the sizes known at the
start and nothing else. -/
theorem restore_credited (hk : tx.working.Keyed)
    (h : restore token m (tx, c) = (.done events, (tx', c'))) :
    (claimed? tx.working m).isSome ∧
      Credited tx.working m.datasetId tx.org (countedSize tx.working c.records.records)
        ((leafRows tx.working tx.way m).map (leafInfo m)) tx'.working := by
  obtain ⟨hclaimed, tx₁, tx₂, hbefore, hleaves, hafter⟩ := restore_leaves hk h
  have hcredited := credited_restoreLeaves (fun _ hl _ hl' => eq_of_id_of_mem_leaves hk hl hl')
    hleaves
  have horg : tx₁.org = tx.org := by rw [hbefore.rest]
  rw [Accounting.countedSize_of_evolves hbefore.working, horg] at hcredited
  exact ⟨hclaimed, .of_evolves hbefore.working (fun _ _ hpq => hpq) hcredited hafter.working⟩

/-! ## What becomes of the content -/

/-- Bringing leaves back that is done has brought their content back. -/
theorem undelete_of_restoreLeaves {u : Unit}
    (h : restoreLeaves datasetId leaves (tx, c) = (.done u, (tx', c'))) :
    ∃ found, Content.undelete (leaves.map PackageInfo.nodeId) c = (.done found, c') := by
  simp only [restoreLeaves, Action.bind_eq_done, Prod.exists, inTransaction_eq_done,
    inContent_eq_done, Action.pure_eq_done] at h
  obtain ⟨found, _, _, ⟨hundelete, rfl⟩, _, _, _, ⟨_, rfl⟩, _, _, _, ⟨_, rfl⟩, -, ⟨⟩⟩ := h
  exact ⟨found, hundelete⟩

/-- A restore that is done has removed the records and markers of all leaves that it brought back. -/
theorem restore_cleared (hk : tx.working.Keyed)
    (h : restore token m (tx, c) = (.done events, (tx', c'))) :
    ∃ found, Content.Cleared ((leafRows tx.working tx.way m).map Package.nodeId) c found c' := by
  obtain ⟨-, tx₁, tx₂, -, hleaves, -⟩ := restore_leaves hk h
  obtain ⟨found, hundelete⟩ := undelete_of_restoreLeaves hleaves
  have hcleared := Content.undelete_done hundelete
  rw [List.map_map] at hcleared
  exact ⟨found, hcleared⟩

/-- A restore that is done and began without throttling ends without it, if the content has no
faults. -/
theorem unthrottled_restore (hk : tx.working.Keyed) (hrecords : c.records.throttled = 0)
    (hobjects : ObjectTable.HasFaults [] false c.objects)
    (h : restore token m (tx, c) = (.done events, (tx', c'))) : c'.records.throttled = 0 := by
  obtain ⟨-, tx₁, tx₂, -, hleaves, -⟩ := restore_leaves hk h
  obtain ⟨found, hundelete⟩ := undelete_of_restoreLeaves hleaves
  obtain ⟨found', c'', hsucceeds, hfree⟩ := Content.undelete_succeeds _ hrecords hobjects
  rw [hundelete] at hsucceeds
  cases hsucceeds
  exact hfree

/-- Work in the transaction leaves the content alone. -/
theorem within_inTransaction {R : Content → Content → Prop} [IsPreorder Content R]
    (x : Action Transaction α) : Action.Within (Order.Preimage Prod.snd R) (inTransaction x) :=
  fun s => Std.Refl.refl (r := R) s.2

/-- Bringing leaves back clears content of theirs at most, however it ends. -/
theorem thins_restoreLeaves (datasetId : Int) (leaves : List PackageInfo) :
    Action.Within (Order.Preimage Prod.snd (Content.Thins (leaves.map PackageInfo.nodeId)))
      (restoreLeaves datasetId leaves) := by
  have hundelete : Action.Within
      (Order.Preimage Prod.snd (Content.Thins (leaves.map PackageInfo.nodeId)))
      (inContent (Content.undelete (leaves.map PackageInfo.nodeId))) :=
    (Content.thins_undelete _).on fun _ _ h => h
  exact hundelete.bind fun _ => (within_inTransaction _).bind fun _ =>
    (within_inTransaction _).bind fun _ => Action.within_pure _

/-- Bringing leaves back takes away no records but those of content that is not hidden any more,
however it ends. -/
theorem within_restoreLeaves (datasetId : Int) (leaves : List PackageInfo) :
    Action.Within (Order.Preimage Prod.snd Content.Clears) (restoreLeaves datasetId leaves) :=
  (thins_restoreLeaves datasetId leaves).mono fun _ _ h => h.clears

/-- A restore takes away no records but those of content that is not hidden any more, however it
ends. -/
theorem within_restore (token : Int → String) (m : RestoreMessage) :
    Action.Within (Order.Preimage Prod.snd Content.Clears) (restore token m) := by
  have htx {β : Type} (x : Action Transaction β) :
      Action.Within (Order.Preimage Prod.snd Content.Clears) (inTransaction x) :=
    within_inTransaction x
  rw [restore]
  split
  · rw [restoreFolder]
    refine (htx _).bind fun _ => (htx _).bind fun _ => (htx _).bind fun _ => ?_
    refine (htx _).bind fun _ => (htx _).bind fun _ => ?_
    refine (within_restoreLeaves _ _).bind fun _ => ?_
    exact (htx _).bind fun _ => (htx _).bind fun _ => Action.within_pure _
  · rw [restoreLeaf]
    refine (htx _).bind fun _ => (htx _).bind fun _ => (within_restoreLeaves _ _).bind fun _ => ?_
    exact (htx _).bind fun _ => Action.within_pure _

/-- After work in the transaction the content is what further work makes of it. -/
theorem snd_inTransaction_bind_of {β : Type} {P : Content → Prop} {x : Action Transaction α}
    {f : α → Flow β} (hstop : P c)
    (hnext : ∀ a tx', x tx = (.done a, tx') → P (f a (tx', c)).2.2) :
    P ((inTransaction x >>= f) (tx, c)).2.2 := by
  refine Action.snd_bind_of (P := fun s : Transaction × Content => P s.2) hstop fun a s hdone => ?_
  obtain ⟨tx', c'⟩ := s
  obtain ⟨hx, rfl⟩ := inTransaction_eq_done.1 hdone
  exact hnext a tx' hx

/-- A restore clears content of the leaves that it would bring back at most, however it ends. -/
theorem thins_restore (hk : tx.working.Keyed) (token : Int → String) (m : RestoreMessage)
    (c : Content) : c.Thins ((leafRows tx.working tx.way m).map Package.nodeId)
      (restore token m (tx, c)).2.2 := by
  have hnone {nodeIds : List String} : c.Thins nodeIds c :=
    Std.Refl.refl (r := Content.Thins nodeIds) c
  have hnodes (leaves : List Package) :
      (leaves.map (leafInfo m)).map PackageInfo.nodeId = leaves.map Package.nodeId := by
    rw [List.map_map]
    rfl
  rw [restore, ← hnodes]
  split
  · rename_i hfolder
    rw [restoreFolder]
    refine snd_inTransaction_bind_of hnone fun _ tx₀ hcheck => ?_
    obtain ⟨rfl, -⟩ := checkFolder_done hcheck
    refine snd_inTransaction_bind_of hnone fun p₁ tx₁ hclaim => ?_
    obtain ⟨p, hp, rfl, rfl⟩ := Transaction.move_eq_done.1 hclaim
    refine snd_inTransaction_bind_of hnone fun below tx₂ hmoved => ?_
    refine snd_inTransaction_bind_of hnone fun folder tx₃ _ => ?_
    refine snd_inTransaction_bind_of hnone fun events tx₄ _ => ?_
    have hbelow := (Transaction.moveDescendants_eq_done.1 hmoved).1.trans
      (congrArg Prod.fst (moveDescendants_changeId hk hp tx₀.way m.datasetId))
    have hleaves : ((leafRows tx₀.working tx₀.way m).map (leafInfo m)) =
        ((below.map PackageInfo.ofPackage).partition fun info => info.kind.isCollection).2 := by
      rw [map_leafRows_of_folder hp hfolder, hbelow, List.partition_eq_filter_filter, List.map_map]
      rfl
    rw [hleaves]
    exact ((thins_restoreLeaves _ _).bind fun _ => (within_inTransaction _).bind fun _ =>
      (within_inTransaction _).bind fun _ => Action.within_pure _) (tx₄, c)
  · rename_i hleaf
    rw [restoreLeaf]
    refine snd_inTransaction_bind_of hnone fun p₁ tx₁ hclaim => ?_
    obtain ⟨p, hp, rfl, rfl⟩ := Transaction.move_eq_done.1 hclaim
    refine snd_inTransaction_bind_of hnone fun restored tx₂ _ => ?_
    rw [map_leafRows_of_leaf hp hleaf]
    exact ((thins_restoreLeaves _ _).bind fun _ => (within_inTransaction _).bind fun _ =>
      Action.within_pure _) (tx₂, c)

end Salvage.Restoration
