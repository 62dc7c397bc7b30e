import Salvage.Proofs.Workspace.Delivery

/-!
# What a restore counts

The committed storage totals before and after a restore, in terms of the forest of packages and of
the content at the start alone: each restored leaf is counted once in every package from itself
upwards, in its dataset and in the organization.
-/

namespace Salvage.Workspace

open Accounting (countedSize)
open Restoration (leafRows leafInfo)

/-- A leaf that a message brings back: the package that it names, or one of those that are no folders
and that a move of the trashed descendants of this package covers. -/
def Brings (t : Tables) (way : Traversal) (m : RestoreMessage) (l : Package) : Prop :=
  ∃ target ∈ t.packages, target.datasetId = m.datasetId ∧ target.nodeId = m.package.nodeId ∧
    if m.package.kind.isCollection then
      t.Covers way m.datasetId target.id .deleted l ∧ ¬ l.kind.isCollection
    else l = target

/-- The size of a leaf that a message brings back: the one in the message, unless that is about a
folder, or the sum of its source files, or the size on its delete record, or nothing. -/
def restoredSize (w : Workspace) (m : RestoreMessage) (l : Package) : Int :=
  ((if m.package.kind.isCollection then none else m.package.size).or
    ((w.packages.tables.fileSum l.id).or
      ((w.content.records.records.find? l.nodeId).bind DeleteRecord.size))).getD 0

/-- The totals after a message is handled, by the leaves that are found for it. -/
structure Counts (w : Workspace) (m : RestoreMessage) (w' : Workspace) : Prop where
  packages : ∀ id, w'.packages.tables.packageStorage.get id =
    w.packages.tables.packageStorage.get id +
      ((leafRows w.packages.tables w.packages.way m).map fun l =>
        restoredSize w m l * (l.id :: w.packages.tables.above l.parentId).count id).sum
  datasets : ∀ id, w'.packages.tables.datasetStorage.get id =
    w.packages.tables.datasetStorage.get id + if id = m.datasetId then
      ((leafRows w.packages.tables w.packages.way m).map (restoredSize w m)).sum else 0
  organizations : ∀ id, w'.packages.tables.organizationStorage.get id =
    w.packages.tables.organizationStorage.get id + if id = m.org then
      ((leafRows w.packages.tables w.packages.way m).map (restoredSize w m)).sum else 0
  climbs : ∀ l ∈ leafRows w.packages.tables w.packages.way m, restoredSize w m l ≠ 0 →
    Tables.Climbs w.packages.tables.links l.parentId (w.packages.tables.above l.parentId)

variable {token : Int → String} {m : RestoreMessage} {w w' : Workspace} {events : List Event}

/-- A message that is handled claimed a package, and all leaves that were found are counted. -/
theorem counts_of_restore (hk : w.packages.tables.Keyed)
    (h : restore token m w = (.done events, w')) :
    (Restoration.claimed? w.packages.tables m).isSome ∧ Counts w m w' := by
  obtain ⟨horg, tx, content, hflow, rfl⟩ := restore_eq_done.1 h
  obtain ⟨hclaimed, hcredited⟩ := Restoration.restore_credited hk hflow
  have htotal : ((leafRows w.packages.tables w.packages.way m).map (leafInfo m)).map
      (countedSize w.packages.tables w.content.records.records) =
      (leafRows w.packages.tables w.packages.way m).map (restoredSize w m) := by
    rw [List.map_map]
    rfl
  rw [report_eq]
  refine ⟨hclaimed, fun id => ?_, fun id => ?_, fun id => ?_, fun l hl => ?_⟩
  · apply (hcredited.packages id).trans
    rw [List.map_map]
    rfl
  · rw [← htotal]
    exact hcredited.datasets id
  · rw [← htotal, ← horg]
    exact hcredited.organizations id
  · exact hcredited.climbs (leafInfo m l) (List.mem_map_of_mem hl)

/-- The leaves of a message are found once each. -/
theorem nodup_leafRows {t : Tables} (hf : t.Forest) (way : Traversal) (m : RestoreMessage) :
    (leafRows t way m).Nodup := by
  rw [leafRows]
  split
  · exact List.nodup_nil
  · split
    · exact hf.nodup_descendants.filter _
    · exact List.nodup_singleton _

/-- The leaves that are found are those that the message brings back. -/
theorem mem_leafRows_iff {t : Tables} (hf : t.Forest) {way : Traversal} {l : Package}
    (hclaimed : (Restoration.claimed? t m).isSome) :
    l ∈ leafRows t way m ↔ Brings t way m l := by
  obtain ⟨p, hp⟩ := Option.isSome_iff_exists.1 hclaimed
  obtain ⟨hmem, hdataset, hnode, -⟩ := Restoration.of_claimed? hp
  have hbrings : Brings t way m l ↔ if m.package.kind.isCollection then
      t.Covers way m.datasetId p.id .deleted l ∧ ¬ l.kind.isCollection else l = p := by
    constructor
    · intro hgiven
      obtain ⟨target, htarget, -, htnode, h⟩ := hgiven
      rwa [hf.eq_of_nodeId htarget hmem (htnode.trans hnode.symm)] at h
    · exact fun h => ⟨p, hmem, hdataset, hnode, h⟩
  rw [hbrings, leafRows, hp]
  dsimp only
  split
  · rw [List.mem_filter, hf.mem_descendants_iff, Bool.not_eq_true', Bool.not_eq_true]
  · exact List.mem_singleton

section Sums

variable {t : Tables} {rows : List Package} {size : Package → Int}

open scoped Classical in
/-- What leaves add along their ways up to the total of a package is the sum of those that are the
package or lie below it. -/
theorem sum_count_way (hk : t.Keyed) (hrows : rows ⊆ t.packages) (hnodup : rows.Nodup)
    (hclimbs : ∀ l ∈ rows, size l ≠ 0 → Tables.Climbs t.links l.parentId (t.above l.parentId))
    {p : Package} (hp : p ∈ t.packages) :
    (rows.map fun l => size l * (l.id :: t.above l.parentId).count p.id).sum =
      ∑ l ∈ rows.toFinset with l = p ∨ t.IsAncestor p.id l.id, size l := by
  rw [Finset.sum_filter, List.sum_toFinset _ hnodup]
  refine congrArg _ (List.map_congr_left fun l hl => ?_)
  by_cases hzero : size l = 0
  · rw [hzero, Int.zero_mul, ite_self]
  · have hclimb := hclimbs l hl hzero
    have hway := hk.mem_way_iff hp (hrows hl) hclimb
    split
    · rename_i hon
      rw [List.count_eq_one_of_mem (hk.nodup_way (hrows hl) hclimb) (hway.2 hon)]
      exact Int.mul_one _
    · rename_i hoff
      rw [List.count_eq_zero_of_not_mem fun hmem => hoff (hway.1 hmem)]
      exact Int.mul_zero _

/-- Leaves add nothing to the total of a number without a row. -/
theorem sum_count_way_of_no_row (hk : t.Keyed) (hrows : rows ⊆ t.packages)
    (hclimbs : ∀ l ∈ rows, size l ≠ 0 → Tables.Climbs t.links l.parentId (t.above l.parentId))
    {id : Int} (hid : ∀ p ∈ t.packages, p.id ≠ id) :
    (rows.map fun l => size l * (l.id :: t.above l.parentId).count id).sum = 0 := by
  refine List.sum_eq_zero fun x hx => ?_
  obtain ⟨l, hl, rfl⟩ := List.mem_map.1 hx
  by_cases hzero : size l = 0
  · rw [hzero, Int.zero_mul]
  · rw [List.count_eq_zero_of_not_mem]
    · exact Int.mul_zero _
    · intro hmem
      obtain ⟨p, hp, hpid⟩ := hk.exists_row_of_mem_way (hrows hl) (hclimbs l hl hzero) hmem
      exact hid p hp hpid

end Sums

open scoped Classical in
/-- A message that is handled counts each leaf that it brings back with its size: in the package
totals of the leaf and of every package above it, in the total of its dataset and in that of the
organization, and in no other. -/
theorem restore_storage (hf : w.packages.tables.Forest)
    (h : restore token m w = (.done events, w')) :
    ∃ leaves : Finset Package,
      (∀ l, l ∈ leaves ↔ Brings w.packages.tables w.packages.way m l) ∧
      (∀ p ∈ w.packages.tables.packages, w'.packages.tables.packageStorage.get p.id =
        w.packages.tables.packageStorage.get p.id +
          ∑ l ∈ leaves with l = p ∨ w.packages.tables.IsAncestor p.id l.id, restoredSize w m l) ∧
      (∀ id, (∀ p ∈ w.packages.tables.packages, p.id ≠ id) →
        w'.packages.tables.packageStorage.get id = w.packages.tables.packageStorage.get id) ∧
      (∀ id, w'.packages.tables.datasetStorage.get id = w.packages.tables.datasetStorage.get id +
        if id = m.datasetId then ∑ l ∈ leaves, restoredSize w m l else 0) ∧
      ∀ id, w'.packages.tables.organizationStorage.get id =
        w.packages.tables.organizationStorage.get id +
          if id = m.org then ∑ l ∈ leaves, restoredSize w m l else 0 := by
  obtain ⟨hclaimed, hcounts⟩ := counts_of_restore hf.keyed h
  have hrows : leafRows w.packages.tables w.packages.way m ⊆ w.packages.tables.packages :=
    fun _ => Restoration.mem_of_mem_leafRows
  have hnodup := nodup_leafRows hf w.packages.way m
  refine ⟨(leafRows w.packages.tables w.packages.way m).toFinset, ?_, ?_, ?_, ?_, ?_⟩
  · intro l
    rw [List.mem_toFinset, mem_leafRows_iff hf hclaimed]
  · intro p hp
    rw [← sum_count_way hf.keyed hrows hnodup hcounts.climbs hp]
    exact hcounts.packages p.id
  · intro id hid
    rw [hcounts.packages id, sum_count_way_of_no_row hf.keyed hrows hcounts.climbs hid,
      Int.add_zero]
  · intro id
    rw [List.sum_toFinset _ hnodup]
    exact hcounts.datasets id
  · intro id
    rw [List.sum_toFinset _ hnodup]
    exact hcounts.organizations id

/-- In the small workspace the organization is credited with the three files of the folder. -/
theorem restore_storage_sample :
    ∃ events w', restore sampleToken sampleMessage sample = (.done events, w') ∧
      w'.packages.tables.organizationStorage.get 1 = 14 ∧
      ∃ leaves : Finset Package, (∀ l, l ∈ leaves ↔ Brings sampleTables .bounded sampleMessage l) ∧
        w'.packages.tables.organizationStorage.get 1 =
          ∑ l ∈ leaves, restoredSize sample sampleMessage l := by
  obtain ⟨events, h⟩ := restore_of_isDone sampleToken sampleMessage sample (by decide +kernel)
  obtain ⟨leaves, hleaves, -, -, -, horg⟩ := restore_storage forest_sampleTables h
  refine ⟨events, _, h, by decide +kernel, leaves, hleaves, ?_⟩
  rw [horg 1, if_pos (show (1 : Int) = sampleMessage.org from rfl)]
  exact Int.zero_add _

end Salvage.Workspace
