import Salvage.Proofs.Restoration

/-!
# What a restore does to the rows

The rows are followed from step to step. Once all names are given back, the claimed folder and what
is restored below it are marked and every other row is as it was. Then each of them is finished, and
no step touches a row twice or one that it should not: packages are found by node ids, and these are
different. `rows_restore` says the same of leaves and folders: the packages that a message takes are
brought back, its events name them in order, and no other row has changed.
-/

namespace Salvage.Restoration

open List (Forall₂)

variable {tx tx' : Transaction} {c c' : Content} {token : Int → String} {m : RestoreMessage}
  {info : PackageInfo} {infos : List PackageInfo} {events : List Event} {datasetId : Int}
  {below : List Package} {folder p q : Package}

/-- The row of a package after all names are given back. -/
structure Prepared (folder : Package) (below : List Package) (p q : Package) : Prop where
  retouched : p.Retouched q
  state : p = folder ∨ p ∈ below → q.state = .restoring
  other : p ≠ folder → p ∉ below → q = p

/-- The row of a package after a folder restore. -/
structure BroughtBack (folder : Package) (below : List Package) (p q : Package) : Prop where
  retouched : p.Retouched q
  ready : p = folder → q.state = .ready
  finished : p ∈ below → q.state = .restored p.kind
  touched : p = folder ∨ p ∈ below → q.touched
  other : p ≠ folder → p ∉ below → q = p

/-- The row of a package after some packages are finished. -/
structure Finished (infos : List PackageInfo) (p q : Package) : Prop where
  moved : ∀ info ∈ infos, info.nodeId = p.nodeId → q = p.moveTo (.restored info.kind)
  other : (∀ info ∈ infos, info.nodeId ≠ p.nodeId) → q = p

/-! ## Marking and naming -/

/-- Numbers of rows stand for the rows. -/
theorem id_mem_map_iff {t : Tables} (hk : t.Keyed) (hbelow : below ⊆ t.packages)
    (hp : p ∈ t.packages) : p.id ∈ below.map Package.id ↔ p ∈ below := by
  constructor
  · intro hmem
    obtain ⟨q, hq, hid⟩ := List.mem_map.1 hmem
    rwa [← hk.eq_of_id (hbelow hq) hp hid]
  · exact fun hmem => List.mem_map_of_mem hmem

/-- Marking moves the folder and what is to be restored below it, and no other row. -/
theorem rows_marked {t : Tables} (hk : t.Keyed) (hfolder : folder ∈ t.packages) (way : Traversal) :
    t.Evolves (Prepared folder (t.descendants way datasetId folder.id .deleted))
      (marked t way datasetId folder.id) := by
  have hbelow : t.descendants way datasetId folder.id .deleted ⊆ t.packages :=
    fun _ => Tables.mem_of_mem_descendants
  apply ((Tables.evolves_change _ _ _).trans (Tables.evolves_change _ _ _)).imp
  intro p hp r hgiven
  obtain ⟨q, rfl, rfl⟩ := hgiven
  have hid : (if p.id == folder.id then p.moveTo .restoring else p).id = p.id := by
    split <;> rfl
  have hown : (p.id == folder.id) = true ↔ p = folder := by
    rw [beq_iff_eq]
    exact ⟨hk.eq_of_id hp hfolder, fun heq => by rw [heq]⟩
  have htaken : ((t.descendants way datasetId folder.id .deleted).map Package.id).contains p.id =
      true ↔ p ∈ t.descendants way datasetId folder.id .deleted := by
    rw [List.contains_iff_mem, id_mem_map_iff hk hbelow hp]
  rw [hid]
  simp only [hown, htaken]
  refine ⟨?_, ?_, ?_⟩
  · rw [Package.Retouched]
    split <;> split <;> rfl
  · intro hgiven
    rcases hgiven with heq | hmem
    · rw [if_pos heq]
      split <;> rfl
    · rw [if_pos hmem]
      rfl
  · intro hne hnot
    rw [if_neg hne, if_neg hnot]

/-- Naming a package that was prepared leaves it prepared. -/
theorem Prepared.renamed {ids : List Int} {r : Package} (h : Prepared folder below p q)
    (hname : Renamed ids q r) (hids : p.id ∈ ids → p = folder ∨ p ∈ below) :
    Prepared folder below p r := by
  rcases hname with rfl | ⟨hmem, name, rfl⟩
  · exact h
  · have hid := h.retouched.id_eq
    refine ⟨h.retouched, h.state, fun hne hnot => ?_⟩
    exact absurd (hids (hid ▸ hmem)) (not_or.2 ⟨hne, hnot⟩)

/-- Once all names are given back, the folder and what is to be restored below it are marked. -/
theorem rows_prepared {text : String} {restored : Name.Restored} {parents : List EventParent}
    {tx₁ tx₂ : Transaction} (hk : tx.working.Keyed) (hfolder : folder ∈ tx.working.packages)
    (hbelow : below = tx.working.descendants tx.way datasetId folder.id .deleted)
    (hname : restoreName text (PackageInfo.ofPackage folder)
      { tx with working := marked tx.working tx.way datasetId folder.id } = (.done restored, tx₁))
    (hothers : restoreNames token parents (below.map PackageInfo.ofPackage) tx₁ =
      (.done events, tx₂)) :
    tx.working.Evolves (Prepared folder below) tx₂.working := by
  subst hbelow
  have hsub : tx.working.descendants tx.way datasetId folder.id .deleted ⊆ tx.working.packages :=
    fun _ => Tables.mem_of_mem_descendants
  have hrows := ((rows_marked hk hfolder tx.way).trans
    (evolves_restoreName hname).working).trans (evolves_restoreNames hothers).working
  apply hrows.imp
  intro p hp s hgiven
  obtain ⟨r, ⟨q, hprepared, hown⟩, hall⟩ := hgiven
  refine (hprepared.renamed hown ?_).renamed hall ?_
  · intro hmem
    exact .inl (hk.eq_of_id hp hfolder (List.mem_singleton.1 hmem))
  · intro hmem
    rw [List.map_map] at hmem
    exact .inr ((id_mem_map_iff hk hsub hp).1 hmem)

/-! ## Finishing -/

/-- A move changes the row with its node id and no other. -/
theorem rows_move {nodeId : String} {expected target : Package.State} {moved : Package}
    (hd : tx.working.Distinct)
    (h : Transaction.move datasetId nodeId expected target tx = (.done moved, tx')) :
    tx.Evolves (fun p q => q = if p.nodeId = nodeId then p.moveTo target else p) tx' := by
  obtain ⟨row, hrow, -, rfl⟩ := Transaction.move_eq_done.1 h
  have hmem := List.mem_of_find?_eq_some hrow
  have hnode : row.nodeId = nodeId := by
    have hfits := List.find?_some hrow
    simp only [Bool.and_eq_true, beq_iff_eq] at hfits
    exact hfits.1.2
  refine (Transaction.evolves_changeId tx row.id _).imp fun p hp q hq => ?_
  rw [hq, ← hnode]
  simp only [hd.id_eq_iff hp hmem]

/-- Finishing a package changes the row with its node id and no other. -/
theorem rows_finish {u : Unit} (hd : tx.working.Distinct)
    (h : finish datasetId info tx = (.done u, tx')) :
    tx.Evolves (fun p q => q = if p.nodeId = info.nodeId then p.moveTo (.restored info.kind) else p)
      tx' := by
  obtain ⟨_, hmove⟩ := finish_done h
  exact rows_move hd hmove

/-- Finishing packages with different node ids changes each of their rows once and no other. -/
theorem rows_each_finish {us : List Unit} (hd : tx.working.Distinct)
    (hnodup : (infos.map PackageInfo.nodeId).Nodup)
    (h : Action.each (finish datasetId) infos tx = (.done us, tx')) :
    tx.Evolves (Finished infos) tx' := by
  induction infos generalizing tx us with
  | nil =>
    obtain ⟨-, rfl⟩ := Action.each_nil_eq_done.1 h
    exact ⟨Tables.evolves_refl _ fun p => ⟨by simp, fun _ => rfl⟩, rfl⟩
  | cons info infos ih =>
    obtain ⟨_, _, tx₁, -, hfirst, hrest⟩ := Action.each_cons_eq_done.1 h
    rw [List.map_cons, List.nodup_cons] at hnodup
    have hfinished := rows_finish hd hfirst
    have hd₁ := hd.of_rows (retouched_finish hfirst).working.rows
    apply (hfinished.trans (ih hd₁ hnodup.2 hrest)).imp
    intro p _ r hgiven
    obtain ⟨q, rfl, hlater⟩ := hgiven
    -- a row that this step moves is not moved again, since the node ids that follow are others
    by_cases hnode : p.nodeId = info.nodeId
    · rw [if_pos hnode] at hlater
      have hdone : r = p.moveTo (.restored info.kind) := by
        refine hlater.other fun info' hinfo' heq => hnodup.1 ?_
        rw [← hnode]
        exact List.mem_map.2 ⟨info', hinfo', heq⟩
      refine ⟨fun info' hinfo' heq => ?_, fun hnone => ?_⟩
      · rcases List.mem_cons.1 hinfo' with rfl | hinfo'
        · exact hdone
        · refine absurd (List.mem_map.2 ⟨info', hinfo', ?_⟩) hnodup.1
          rw [heq, hnode]
      · exact absurd hnode.symm (hnone info List.mem_cons_self)
    · rw [if_neg hnode] at hlater
      refine ⟨fun info' hinfo' heq => ?_, fun hnone => ?_⟩
      · rcases List.mem_cons.1 hinfo' with rfl | hinfo'
        · exact absurd heq.symm hnode
        · exact hlater.moved info' hinfo' heq
      · exact hlater.other fun info' hinfo' => hnone info' (List.mem_cons_of_mem _ hinfo')

/-- No node id is there twice among those of the packages below a folder that are to be finished. -/
theorem nodup_finished {t : Tables} (hf : t.Forest) (way : Traversal) (datasetId id : Int) :
    let infos := (t.descendants way datasetId id .deleted).map PackageInfo.ofPackage
    (((infos.filter fun info => info.kind.isCollection) ++
      infos.filter fun info => !info.kind.isCollection).map PackageInfo.nodeId).Nodup := by
  intro infos
  have hperm := List.filter_append_perm (fun info => info.kind.isCollection) infos
  rw [(hperm.map _).nodup_iff, List.map_map]
  refine hf.nodup_descendants.map_on fun p hp q hq => ?_
  exact hf.eq_of_nodeId (Tables.mem_of_mem_descendants hp) (Tables.mem_of_mem_descendants hq)

/-! ## The whole restore -/

/-- A row that was prepared and finished, and moved if it is that of the folder, is brought back. -/
theorem broughtBack_of_steps {t : Tables} {r s : Package} (hd : t.Distinct)
    (hfolder : folder ∈ t.packages) (hsub : below ⊆ t.packages) (hnot : folder ∉ below)
    (hinfos : ∀ info, info ∈ infos ↔ info ∈ below.map PackageInfo.ofPackage)
    (hp : p ∈ t.packages) (hprepared : Prepared folder below p q) (hfinished : Finished infos q r)
    (hlast : s = if r.nodeId = folder.nodeId then r.moveTo .ready else r) :
    BroughtBack folder below p s := by
  have hnode := hprepared.retouched.nodeId_eq
  have hkept (habsent : p ∉ below) : r = q := by
    refine hfinished.other fun info hinfo heq => habsent ?_
    obtain ⟨b, hb, rfl⟩ := List.mem_map.1 ((hinfos info).1 hinfo)
    rwa [← hd.eq_of_nodeId (hsub hb) hp (heq.trans hnode)]
  by_cases hown : p = folder
  · subst hown
    rw [hkept hnot, if_pos hnode] at hlast
    refine ⟨?_, fun _ => by rw [hlast]; rfl, fun hmem => absurd hmem hnot,
      fun _ => by rw [hlast]; rfl, fun hne => absurd rfl hne⟩
    rw [hlast]
    exact hprepared.retouched
  · have hother : ¬ q.nodeId = folder.nodeId := by
      rw [hnode]
      exact fun heq => hown (hd.eq_of_nodeId hp hfolder heq)
    by_cases hmem : p ∈ below
    · have hmoved : r = q.moveTo (.restored p.kind) :=
        hfinished.moved (PackageInfo.ofPackage p) ((hinfos _).2 (List.mem_map_of_mem hmem))
          hnode.symm
      have hsame : s = r := by
        rw [hlast, hmoved]
        exact if_neg hother
      rw [hsame, hmoved]
      exact ⟨hprepared.retouched, fun heq => absurd heq hown, fun _ => rfl, fun _ => rfl,
        fun _ habsent => absurd hmem habsent⟩
    · have hsame : s = p := by
        rw [hlast, hkept hmem, if_neg hother]
        exact hprepared.other hown hmem
      rw [hsame]
      exact ⟨rfl, fun heq => absurd heq hown, fun hin => absurd hin hmem,
        fun hin => (hin.elim hown hmem).elim, fun _ _ => rfl⟩

/-- A folder that is claimed is not among what is restored below it. -/
theorem claimed_not_mem_descendants {t : Tables} {way : Traversal} (hp : claimed? t m = some p) :
    p ∉ t.descendants way m.datasetId p.id .deleted := by
  intro hmem
  have hstate := (of_claimed? hp).2.2.2
  rw [Tables.state_of_mem_descendants hmem] at hstate
  cases hstate

/-- A folder restore that is done brings back the folder and what is to be restored below it, and
leaves every other row alone. -/
theorem rows_restoreFolder (hf : tx.working.Forest)
    (h : restoreFolder token m (tx, c) = (.done events, (tx', c'))) :
    ∃ folder, claimed? tx.working m = some folder ∧ folder.kind.isCollection ∧
      Forall₂ (BroughtBack folder (tx.working.descendants tx.way m.datasetId folder.id .deleted))
        tx.working.packages tx'.working.packages := by
  obtain ⟨folder, q, infos, restored, others, us, moved, tx₁, tx₂, tx₃, tx₄, hclaimed, hq, hkind,
    hinfos, hname, hothers, hleaves, hfinish, hmove, -⟩ := restoreFolder_done hf.keyed h
  obtain ⟨hfolder, hdataset, hnode, -⟩ := of_claimed? hclaimed
  rw [hf.packageByNode?_eq_some_iff.2 ⟨hfolder, hdataset, hnode⟩] at hq
  obtain rfl := Option.some.inj hq
  refine ⟨folder, hclaimed, hkind, ?_⟩
  generalize hbelow : tx.working.descendants tx.way m.datasetId folder.id .deleted = below at *
  subst hinfos
  have hsub : below ⊆ tx.working.packages := by
    rw [← hbelow]
    exact fun _ => Tables.mem_of_mem_descendants
  have hnot : folder ∉ below := hbelow ▸ claimed_not_mem_descendants hclaimed
  have hprepared := (rows_prepared hf.keyed hfolder hbelow.symm hname hothers).rows
  rw [← packages_restoreLeaves hleaves] at hprepared
  have hd₃ := hf.toDistinct.of_rows (hprepared.imp fun _ _ hpq => hpq.retouched)
  have hperm := List.filter_append_perm (fun info => info.kind.isCollection)
    (below.map PackageInfo.ofPackage)
  have hnodup := hbelow ▸ nodup_finished hf tx.way m.datasetId folder.id
  have hfinished := rows_each_finish hd₃ hnodup hfinish
  have hd₄ := hd₃.of_rows (retouched_each_finish hfinish).working.rows
  have hsteps := forall₂_comp (forall₂_comp hprepared hfinished.working.rows)
    (rows_move hd₄ hmove).working.rows
  apply forall₂_imp_of_mem hsteps
  intro p hp s hgiven
  obtain ⟨r, ⟨q, hpq, hqr⟩, hrs⟩ := hgiven
  exact broughtBack_of_steps hf.toDistinct hfolder hsub hnot (fun _ => hperm.mem_iff) hp hpq hqr hrs

/-! ## Leaves and folders alike -/

/-- The packages that a message takes: the one that it claims and, if it is about a folder, what is
to be restored below that. -/
def takenRows (t : Tables) (way : Traversal) (m : RestoreMessage) : List Package :=
  match claimed? t m with
  | none => []
  | some p =>
    if m.package.kind.isCollection then p :: t.descendants way m.datasetId p.id .deleted else [p]

/-- A message about a folder takes that and what is to be restored below it. -/
theorem takenRows_of_folder {t : Tables} (hp : claimed? t m = some p)
    (hfolder : m.package.kind.isCollection) (way : Traversal) :
    takenRows t way m = p :: t.descendants way m.datasetId p.id .deleted := by
  rw [takenRows, hp]
  exact if_pos hfolder

/-- A message about a leaf takes only that. -/
theorem takenRows_of_leaf {t : Tables} (hp : claimed? t m = some p)
    (hleaf : ¬ m.package.kind.isCollection) (way : Traversal) : takenRows t way m = [p] := by
  rw [takenRows, hp]
  exact if_neg hleaf

/-- A row before and after some packages are brought back. -/
structure Returned (taken : List Package) (p q : Package) : Prop where
  retouched : p.Retouched q
  back : p ∈ taken →
    (p.state = .deleted ∨ p.state = .restoring) ∧ q.state = .restored p.kind ∧ q.touched
  other : p ∉ taken → q = p

/-- A package that is brought back changes its state, and no other one does. -/
theorem Returned.state_ne_iff {taken : List Package} {p q : Package} (h : Returned taken p q) :
    q.state ≠ p.state ↔ p ∈ taken := by
  constructor
  · intro hchanged
    by_contra hnot
    rw [h.other hnot] at hchanged
    exact hchanged rfl
  · intro htaken
    obtain ⟨hbefore, hafter, -⟩ := h.back htaken
    rw [hafter, Package.State.restored]
    rcases hbefore with hstate | hstate <;> rw [hstate] <;> split <;> decide

/-- Packages that are taken are rows. -/
theorem mem_of_mem_takenRows {t : Tables} {way : Traversal} (h : p ∈ takenRows t way m) :
    p ∈ t.packages := by
  rw [takenRows] at h
  split at h
  · cases h
  · rename_i folder hclaimed
    have hown := (of_claimed? hclaimed).1
    split at h
    · rcases List.mem_cons.1 h with rfl | hbelow
      · exact hown
      · exact Tables.mem_of_mem_descendants hbelow
    · rw [List.mem_singleton.1 h]
      exact hown

/-- Packages that are taken are taken once each. -/
theorem nodup_takenRows {t : Tables} (hf : t.Forest) (way : Traversal) (m : RestoreMessage) :
    (takenRows t way m).Nodup := by
  rw [takenRows]
  split
  · exact List.nodup_nil
  · rename_i p hp
    split
    · exact List.nodup_cons.2 ⟨claimed_not_mem_descendants hp, hf.nodup_descendants⟩
    · exact List.nodup_singleton p

/-- Packages that are taken have different numbers. -/
theorem nodup_ids_takenRows {t : Tables} (hf : t.Forest) (way : Traversal) (m : RestoreMessage) :
    (((takenRows t way m).map PackageInfo.ofPackage).map PackageInfo.id).Nodup := by
  rw [List.map_map]
  exact (nodup_takenRows hf way m).map_on fun p hp q hq =>
    hf.keyed.eq_of_id (mem_of_mem_takenRows hp) (mem_of_mem_takenRows hq)

/-- A package that gets its name back has an event about it. -/
theorem subjects_restoreNames {parents : List EventParent}
    (h : restoreNames token parents infos tx = (.done events, tx')) :
    events.map (fun e => (e.id, e.nodeId)) = infos.map fun info => (info.id, info.nodeId) := by
  induction infos generalizing parents events tx with
  | nil =>
    obtain ⟨rfl, -⟩ := Action.pure_eq_done.1 h
    rfl
  | cons info infos ih =>
    simp only [restoreNames, Action.bind_eq_done, Action.pure_eq_done] at h
    obtain ⟨restored, tx₁, -, others, _, hrest, rfl, rfl⟩ := h
    rw [List.map_cons, List.map_cons, ih hrest]
    rfl

/-- The events of a restore that is done are about the packages that it takes. -/
theorem subjects_restore (hk : tx.working.Keyed)
    (h : restore token m (tx, c) = (.done events, (tx', c'))) :
    events.map (fun e => (e.id, e.nodeId)) =
      (takenRows tx.working tx.way m).map fun p => (p.id, p.nodeId) := by
  rw [restore] at h
  split at h
  · rename_i hfolder
    obtain ⟨p, q, infos, restored, others, us, moved, tx₁, tx₂, tx₃, tx₄, hclaimed, -, -, rfl, -,
      hothers, -, -, -, rfl⟩ := restoreFolder_done hk h
    rw [takenRows_of_folder hclaimed hfolder, List.map_cons, subjects_restoreNames hothers,
      List.map_map]
    rfl
  · rename_i hleaf
    obtain ⟨p, restored, tx₁, tx₂, hclaimed, -, -, -, rfl⟩ := restoreLeaf_done h
    rw [takenRows_of_leaf hclaimed hleaf]
    rfl

/-- A leaf restore that is done brings back the leaf that it claims, and leaves every other row
alone. -/
theorem rows_restoreLeaf (hd : tx.working.Distinct)
    (h : restoreLeaf token m (tx, c) = (.done events, (tx', c'))) :
    ∃ leaf, claimed? tx.working m = some leaf ∧
      Forall₂ (Returned [leaf]) tx.working.packages tx'.working.packages := by
  obtain ⟨leaf, restored, tx₁, tx₂, hclaimed, hname, hleaves, hfinish, -⟩ :=
    restoreLeaf_done h
  obtain ⟨hleaf, -, -, hstate⟩ := of_claimed? hclaimed
  refine ⟨leaf, hclaimed, ?_⟩
  have hmarked := (Transaction.evolves_changeId tx leaf.id (·.moveTo .restoring)).working.rows
  have hnamed := forall₂_comp hmarked (evolves_restoreName hname).working.rows
  rw [← packages_restoreLeaves hleaves] at hnamed
  have hretouched : ∀ p q, Relation.Comp (fun p q => q = if p.id = leaf.id then
      p.moveTo .restoring else p) (Renamed [leaf.id]) p q → p.Retouched q := by
    intro p r hgiven
    obtain ⟨q, rfl, hqr⟩ := hgiven
    have hfixed := hqr.retouched
    rw [Package.Retouched] at hfixed ⊢
    rw [hfixed]
    split <;> rfl
  have hd₂ := hd.of_rows (hnamed.imp hretouched)
  apply forall₂_imp_of_mem (forall₂_comp hnamed (rows_finish hd₂ hfinish).working.rows)
  intro p hp s hgiven
  obtain ⟨r, hpr, hs⟩ := hgiven
  have hfixed := hretouched p r hpr
  have hnode := hfixed.nodeId_eq
  obtain ⟨q, rfl, hqr⟩ := hpr
  rw [hnode] at hs
  by_cases hown : p = leaf
  · subst hown
    have hmoved : s = r.moveTo (.restored p.kind) := hs.trans (if_pos rfl)
    rw [hmoved]
    exact ⟨hfixed, fun _ => ⟨.inr hstate, rfl, rfl⟩, fun hnot => absurd List.mem_cons_self hnot⟩
  · have hid : p.id ≠ leaf.id := fun heq => hown (hd.keyed.eq_of_id hp hleaf heq)
    have hother : p.nodeId ≠ leaf.nodeId := fun heq => hown (hd.eq_of_nodeId hp hleaf heq)
    have hsame : s = p := by
      rw [if_neg hid] at hqr
      rw [hs, PackageInfo.ofPackage, if_neg hother]
      exact hqr.resolve_right fun hrenamed => hid (List.mem_singleton.1 hrenamed.1)
    rw [hsame]
    exact ⟨rfl, fun hin => absurd (List.mem_singleton.1 hin) hown, fun _ => rfl⟩

/-- A restore that is done claimed a package. It brings back exactly the packages that it takes, each
with an event, and leaves every other row alone. -/
theorem rows_restore (hf : tx.working.Forest)
    (h : restore token m (tx, c) = (.done events, (tx', c'))) :
    (claimed? tx.working m).isSome ∧
      Forall₂ (Returned (takenRows tx.working tx.way m)) tx.working.packages tx'.working.packages ∧
      events.map Event.nodeId = (takenRows tx.working tx.way m).map Package.nodeId := by
  have hnodes := congrArg (List.map Prod.snd) (subjects_restore hf.keyed h)
  rw [List.map_map, List.map_map] at hnodes
  rw [restore] at h
  split at h
  · rename_i hfolder
    obtain ⟨folder, hclaimed, hkind, hrows⟩ := rows_restoreFolder hf h
    refine ⟨by rw [hclaimed]; rfl, ?_, hnodes⟩
    rw [takenRows_of_folder hclaimed hfolder]
    refine hrows.imp fun p q hback => ?_
    refine ⟨hback.retouched, fun hin => ?_, fun hnot => ?_⟩
    · rcases List.mem_cons.1 hin with rfl | hbelow
      · refine ⟨.inr (of_claimed? hclaimed).2.2.2, ?_, hback.touched (.inl rfl)⟩
        rw [hback.ready rfl, Package.State.restored, if_pos hkind]
      · exact ⟨.inl (Tables.state_of_mem_descendants hbelow), hback.finished hbelow,
          hback.touched (.inr hbelow)⟩
    · rw [List.mem_cons, not_or] at hnot
      exact hback.other hnot.1 hnot.2
  · rename_i hleaf
    obtain ⟨leaf, hclaimed, hrows⟩ := rows_restoreLeaf hf.toDistinct h
    rw [takenRows_of_leaf hclaimed hleaf] at hnodes ⊢
    exact ⟨by rw [hclaimed]; rfl, hrows, hnodes⟩

end Salvage.Restoration
