import Salvage.Proofs.Restoration.Names

/-!
# What the events of a folder restore say

An event is made as soon as its package has a name again, and no later step takes a name away: others
get theirs, leaves are accounted for, states are moved. So each event has the name that is left at the
end. Its parent is looked for among the folders that have their names by then; since a folder has its
name before everything in it, a folder that is missing there does not come back at all.
-/

namespace Salvage

open List (Forall₂)

namespace Tables

/-- The name of the package with a number. -/
def nameOf? (t : Tables) (id : Int) : Option String :=
  (t.package? id).map Package.name

variable {t t' : Tables} {R : Package → Package → Prop} {id : Int} {p : Package}

/-- A package keeps its name when its row does. -/
theorem nameOf?_eq_of_rows (h : Forall₂ R t.packages t'.packages)
    (hR : ∀ p q, R p q → q.id = p.id ∧ (p.id = id → q.name = p.name)) :
    t'.nameOf? id = t.nameOf? id := by
  rw [nameOf?, nameOf?, package?, package?]
  generalize t.packages = ps, t'.packages = qs at h
  induction h with
  | nil => rfl
  | @cons p q _ _ hpq _ ih =>
    obtain ⟨hid, hname⟩ := hR p q hpq
    rw [List.find?_cons, List.find?_cons, hid]
    by_cases heq : p.id = id
    · simp [heq, hname heq]
    · rw [beq_eq_false_iff_ne.2 heq]
      exact ih

/-- A package that is renamed has its new name. -/
theorem nameOf?_rename (hp : t.package? id = some p) (name : String) :
    (t.changeId id (·.rename name)).nameOf? id = some name := by
  have hsame : ((fun p : Package => p.id == id) ∘
      fun p => if p.id == id then p.rename name else p) = fun p => p.id == id := by
    funext q
    rw [Function.comp]
    split <;> rfl
  rw [package?] at hp
  rw [nameOf?, package?, changeId, change, List.find?_map, hsame, hp]
  simp [(mem_of_package? hp).2, Package.rename]

end Tables

namespace Restoration

/-- The parent of an event is a folder under the name that it has. -/
structure Refers (t : Tables) (folder : Package) (a : EventParent) : Prop where
  id : a.id = folder.id
  nodeId : a.nodeId = folder.nodeId
  name : t.nameOf? folder.id = some a.name

/-- An event tells the truth about a package that came back along with some folders. The package is
as it was before, and the tables are those after it. -/
structure Tells (t : Tables) (folders : List Package) (p : Package) (e : Event) : Prop where
  id : e.id = p.id
  nodeId : e.nodeId = p.nodeId
  name : t.nameOf? p.id = some e.name
  formerName : ∃ old, p.name = Name.deletedPrefix p.nodeId ++ old ∧
    e.formerName = if e.name = old then none else some old
  parent : ∀ a, e.parent = some a ↔
    ∃ folder ∈ folders, p.parentId = some folder.id ∧ Refers t folder a

variable {tx tx' : Transaction} {c c' : Content} {token : Int → String} {m : RestoreMessage}
  {text : String} {info : PackageInfo} {infos : List PackageInfo} {restored : Name.Restored}
  {parents : List EventParent} {events : List Event} {a b : EventParent} {e : Event}
  {t t' : Tables} {ids : List Int} {id : Int} {p : Package} {rows known folders : List Package}

/-! ## Names that stay -/

/-- Renaming some packages leaves the names of others. -/
theorem nameOf?_eq_of_renamed (h : t.Evolves (Renamed ids) t') (hid : id ∉ ids) :
    t'.nameOf? id = t.nameOf? id := by
  refine Tables.nameOf?_eq_of_rows h.rows fun p q hpq => ⟨hpq.retouched.id_eq, fun hown => ?_⟩
  rcases hpq with rfl | ⟨hmem, -⟩
  · rfl
  · exact absurd (hown ▸ hmem) hid

/-- A package that got its name back has it. -/
theorem nameOf?_restoreName (h : restoreName text info tx = (.done restored, tx')) :
    tx'.working.nameOf? info.id = some restored.name := by
  obtain ⟨-, -, hrename⟩ := restoreName_done h
  obtain ⟨p, hp, -, rfl⟩ := Transaction.rename_eq_done.1 hrename
  exact Tables.nameOf?_rename hp _

/-- A folder is referred to as long as it keeps its name. -/
theorem Refers.of_nameOf? (h : Refers t p a) (hname : t'.nameOf? p.id = t.nameOf? p.id) :
    Refers t' p a :=
  ⟨h.id, h.nodeId, hname.trans h.name⟩

/-- There is one way to refer to a folder. -/
theorem Refers.unique (h : Refers t p a) (h' : Refers t p b) : a = b := by
  have hid := h.id.trans h'.id.symm
  have hnode := h.nodeId.trans h'.nodeId.symm
  have hname := Option.some.inj (h.name.symm.trans h'.name)
  obtain ⟨_, _, _⟩ := a
  obtain ⟨_, _, _⟩ := b
  dsimp only at hid hnode hname
  rw [hid, hnode, hname]

/-- An event stays true as long as all packages keep their names. -/
theorem Tells.of_nameOf? (h : Tells t folders p e) (hname : ∀ id, t'.nameOf? id = t.nameOf? id) :
    Tells t' folders p e := by
  refine ⟨h.id, h.nodeId, (hname _).trans h.name, h.formerName, fun a => (h.parent a).trans ?_⟩
  refine exists_congr fun folder => and_congr_right fun _ => and_congr_right fun _ => ?_
  exact ⟨fun hrefers => hrefers.of_nameOf? (hname _),
    fun hrefers => hrefers.of_nameOf? (hname _).symm⟩

/-! ## The parents that are known -/

/-- Among the known parents a folder is found by its number. -/
theorem find?_known (hparents : Forall₂ (Refers t) known parents)
    (hknown : (known.map Package.id).Nodup) (a : EventParent) :
    (parents.find? fun b => b.id == id) = some a ↔
      ∃ folder ∈ known, id = folder.id ∧ Refers t folder a := by
  have hsame : parents.map EventParent.id = known.map Package.id := by
    clear hknown
    induction hparents with
    | nil => rfl
    | cons hrefers _ ih => rw [List.map_cons, List.map_cons, ih, hrefers.id]
  constructor
  · intro hfound
    have hid : a.id = id := by simpa using List.find?_some hfound
    obtain ⟨folder, hmem, hrefers⟩ :=
      exists_of_mem_left hparents.flip (List.mem_of_find?_eq_some hfound)
    exact ⟨folder, hmem, hid.symm.trans hrefers.id, hrefers⟩
  · intro hgiven
    obtain ⟨folder, hmem, rfl, hrefers⟩ := hgiven
    obtain ⟨b, hb, hown⟩ := exists_of_mem_left hparents hmem
    obtain rfl := hown.unique hrefers
    rw [← hown.id]
    exact find?_key (hsame ▸ hknown) hb

/-- The parent that is found for a package is its folder if that comes back, once every folder that
comes back and holds the package is known, and no known one is renamed any more. -/
theorem parent_eq_some_iff (hparents : Forall₂ (Refers t) known parents)
    (hknown : (known.map Package.id).Nodup) (hsub : known ⊆ folders)
    (hbefore : ∀ folder ∈ folders, p.parentId = some folder.id → folder ∈ known)
    (hkept : ∀ folder ∈ known, t'.nameOf? folder.id = t.nameOf? folder.id) (a : EventParent) :
    (p.parentId.bind fun id => parents.find? fun b => b.id == id) = some a ↔
      ∃ folder ∈ folders, p.parentId = some folder.id ∧ Refers t' folder a := by
  simp only [Option.bind_eq_some_iff, find?_known hparents hknown]
  constructor
  · intro hgiven
    obtain ⟨_, hparent, folder, hmem, rfl, hrefers⟩ := hgiven
    exact ⟨folder, hsub hmem, hparent, hrefers.of_nameOf? (hkept folder hmem)⟩
  · intro hgiven
    obtain ⟨folder, hmem, hparent, hrefers⟩ := hgiven
    have hin := hbefore folder hmem hparent
    exact ⟨_, hparent, folder, hin, rfl, hrefers.of_nameOf? (hkept folder hin).symm⟩

/-! ## One event after another -/

/-- An event tells the name that stood behind the prefix if it is not the one that was given. -/
theorem formerName_restoreName
    (h : restoreName text (PackageInfo.ofPackage p) tx = (.done restored, tx')) :
    ∃ old, p.name = Name.deletedPrefix p.nodeId ++ old ∧
      restored.displaced = if restored.name = old then none else some old := by
  obtain ⟨hformer, -, -⟩ := restoreName_done h
  refine ⟨restored.former, Name.eq_append_of_former hformer, ?_⟩
  rw [Name.Restored.displaced, ite_not]

/-- The events of packages that get their names back one after another tell the truth, if no package
comes before its folder. Some folders may have had their names before. -/
theorem tells_restoreNames (hparents : Forall₂ (Refers tx.working) known parents)
    (hids : ((known ++ rows).map Package.id).Nodup)
    (horder : rows.Pairwise fun p q => p.parentId ≠ some q.id)
    (hself : ∀ p ∈ rows, p.parentId ≠ some p.id)
    (hfolders : ∀ p, p ∈ folders ↔ p ∈ known ∨ p ∈ rows ∧ p.kind.isCollection)
    (h : restoreNames token parents (rows.map PackageInfo.ofPackage) tx = (.done events, tx')) :
    Forall₂ (Tells tx'.working folders) rows events := by
  induction rows generalizing known parents events tx with
  | nil =>
    obtain ⟨rfl, -⟩ := Action.pure_eq_done.1 h
    exact .nil
  | cons p rows ih =>
    have hevolves := (evolves_restoreNames h).working
    simp only [List.map_cons, restoreNames, Action.bind_eq_done, Action.pure_eq_done] at h
    obtain ⟨restored, tx₁, hname, others, _, hrest, rfl, rfl⟩ := h
    obtain ⟨hfirst, horder⟩ := List.pairwise_cons.1 horder
    obtain ⟨hown, hself⟩ := List.forall_mem_cons.1 hself
    have hparted := hids
    rw [List.map_append, List.nodup_append', List.map_cons, List.nodup_cons] at hparted
    obtain ⟨hknown, ⟨hlater, -⟩, hdisjoint⟩ := hparted
    have hnot {q : Package} (hq : q ∈ known) : q.id ∉ p.id :: rows.map Package.id :=
      hdisjoint (List.mem_map_of_mem hq)
    have hnamed := nameOf?_restoreName hname
    have hparents₁ : Forall₂ (Refers tx₁.working) known parents := by
      refine forall₂_imp_of_mem hparents fun q hq a hrefers => hrefers.of_nameOf? ?_
      refine nameOf?_eq_of_renamed (evolves_restoreName hname).working fun hmem => hnot hq ?_
      exact List.mem_cons.2 (.inl (List.mem_singleton.1 hmem))
    refine .cons ⟨rfl, rfl, ?_, formerName_restoreName hname, parent_eq_some_iff hparents hknown
      (fun q hq => (hfolders q).2 (.inl hq)) (fun q hq hparent => ?_) fun q hq => ?_⟩ ?_
    · refine (nameOf?_eq_of_renamed (evolves_restoreNames hrest).working ?_).trans hnamed
      rwa [List.map_map]
    · -- the folder of this package is not one of those that follow, nor the package itself
      rcases (hfolders q).1 hq with hbefore | ⟨hrow, -⟩
      · exact hbefore
      · rcases List.mem_cons.1 hrow with rfl | hafter
        · exact absurd hparent hown
        · exact absurd hparent (hfirst q hafter)
    · refine nameOf?_eq_of_renamed hevolves ?_
      rw [List.map_map]
      exact hnot hq
    · split at hrest
      · rename_i hkind
        have hcollection : p.kind.isCollection := hkind
        have hparents' : Forall₂ (Refers tx₁.working) (p :: known)
            (Event.asParent (PackageInfo.ofPackage p) restored :: parents) :=
          .cons ⟨rfl, rfl, hnamed⟩ hparents₁
        refine ih hparents' (List.perm_middle.map Package.id |>.nodup_iff.1 hids) horder hself
          (fun q => (hfolders q).trans ?_) hrest
        rw [List.mem_cons, List.mem_cons, or_and_right, ← or_assoc]
        refine or_congr_left (or_comm.trans (or_congr_left (and_iff_left_of_imp fun heq => ?_)))
        rwa [heq]
      · rename_i hkind
        have hleaf : ¬ p.kind.isCollection := hkind
        refine ih hparents₁ ?_ horder hself (fun q => (hfolders q).trans ?_) hrest
        · exact hids.sublist (((List.sublist_cons_self p rows).append_left known).map Package.id)
        · refine or_congr_right (and_congr_left fun hq => ?_)
          rw [List.mem_cons, or_iff_right_of_imp]
          intro heq
          exact absurd (heq ▸ hq) hleaf

/-! ## The whole restore -/

/-- A folder that gets its name back before others is the first known parent. -/
theorem restoreNames_of_folder {tx₁ : Transaction} (hfolder : info.kind.isCollection)
    (hname : restoreName (token info.id) info tx = (.done restored, tx₁))
    (hothers : restoreNames token [Event.asParent info restored] infos tx₁ = (.done events, tx')) :
    restoreNames token [] (info :: infos) tx =
      (.done (Event.ofRestored info restored none :: events), tx') := by
  have hnone : (info.parentId.bind fun id =>
      ([] : List EventParent).find? fun b => b.id == id) = none := by
    cases info.parentId <;> rfl
  rw [restoreNames, Action.bind_of_done hname]
  simp only [hfolder, if_true, hnone]
  exact Action.bind_of_done hothers

/-- No package that a folder message takes comes before one above it. -/
theorem pairwise_takenRows (hf : t.Forest) {way : Traversal} {datasetId : Int} :
    (p :: t.descendants way datasetId p.id .deleted).Pairwise
      fun p q => ¬ t.IsAncestor q.id p.id := by
  refine List.pairwise_cons.2 ⟨fun q hq habove => ?_, hf.pairwise_descendants⟩
  have hbelow := (hf.mem_descendants_iff.1 hq).below
  exact hf.acyclic p.id (hbelow.trans habove)

/-- The events of a folder restore that is done tell the truth about the folder and what is restored
below it, in this order; the first one has no parent. -/
theorem tells_restoreFolder (hf : tx.working.Forest)
    (h : restoreFolder token m (tx, c) = (.done events, (tx', c'))) :
    ∃ p, claimed? tx.working m = some p ∧ p.kind.isCollection ∧
      Forall₂ (Tells tx'.working
          ((p :: tx.working.descendants tx.way m.datasetId p.id .deleted).filter
            fun q => q.kind.isCollection))
        (p :: tx.working.descendants tx.way m.datasetId p.id .deleted) events ∧
      events.head?.bind Event.parent = none := by
  obtain ⟨p, q, infos, restored, others, us, moved, tx₁, tx₂, tx₃, tx₄, hp, hq, hkind, rfl, hname,
    hothers, hleaves, hfinish, hmove, rfl⟩ := restoreFolder_done hf.keyed h
  obtain ⟨hmem, hdataset, hnode, -⟩ := of_claimed? hp
  rw [hf.packageByNode?_eq_some_iff.2 ⟨hmem, hdataset, hnode⟩] at hq
  obtain rfl := Option.some.inj hq
  refine ⟨p, hp, hkind, ?_, rfl⟩
  have hrows : ∀ r ∈ p :: tx.working.descendants tx.way m.datasetId p.id .deleted,
      r ∈ tx.working.packages :=
    List.forall_mem_cons.2 ⟨hmem, fun r hr => Tables.mem_of_mem_descendants hr⟩
  have hnodup : (p :: tx.working.descendants tx.way m.datasetId p.id .deleted).Nodup :=
    List.nodup_cons.2 ⟨claimed_not_mem_descendants hp, hf.nodup_descendants⟩
  have habove {r s : Package} (hr : r ∈ tx.working.packages) (hparent : r.parentId = some s.id) :
      tx.working.IsAncestor s.id r.id := .single ⟨r, hr, rfl, hparent⟩
  have htells : Forall₂
      (Tells tx₂.working
        ((p :: tx.working.descendants tx.way m.datasetId p.id .deleted).filter
          fun r => r.kind.isCollection))
      (p :: tx.working.descendants tx.way m.datasetId p.id .deleted)
      (Event.ofRestored (PackageInfo.ofPackage p) restored none :: others) := tells_restoreNames .nil
    (hnodup.map_on fun r hr s hs => hf.keyed.eq_of_id (hrows r hr) (hrows s hs))
    ((pairwise_takenRows hf).imp_of_mem fun hr _ hnot hparent =>
      hnot (habove (hrows _ hr) hparent))
    (fun r hr hparent => hf.acyclic r.id (habove (hrows r hr) hparent))
    (fun r => by simp only [List.not_mem_nil, false_or, List.mem_filter])
    (restoreNames_of_folder hkind hname hothers)
  -- what is done after the names are given back leaves them alone
  have hkept := Tables.keepsName_comp (keepsName_each_finish hfinish) (keepsName_move hmove)
  rw [packages_restoreLeaves hleaves] at hkept
  exact htells.imp fun r e htold => htold.of_nameOf? fun id =>
    Tables.nameOf?_eq_of_rows hkept fun _ _ hrs => ⟨hrs.1.id_eq, fun _ => hrs.2⟩

end Restoration

end Salvage
