import Salvage.Proofs.Accounting
import Salvage.Proofs.Tables.Range

/-!
# Accounting that stays in range

When all totals have room for the sizes of some leaves of a forest together, these leaves are counted.
-/

namespace Salvage.Accounting

open Tables (FilesFit)

variable {tx : Transaction} {leaf : PackageInfo} {leaves : List PackageInfo} {size : Int}
  {sizes : Totals} {n : Nat}

/-- The sizes of leaves are found when those of all source files fit. -/
theorem leafSizes_of_fit (leaves : List PackageInfo) (records : RecordSet)
    (h : tx.working.FilesFit) : ∃ sizes, leafSizes leaves records tx = (.done sizes, tx) := by
  obtain ⟨files, hfiles⟩ := FilesFit.exists_fileSizes h
    ((leaves.filter fun leaf => leaf.size.isNone).map PackageInfo.id)
  exact ⟨_, Action.bind_of_done (Transaction.fileSizes_eq_done.2 ⟨hfiles, rfl⟩)⟩

/-- What is known of a leaf is where its row lies. -/
def IsRow (t : Tables) (leaf : PackageInfo) : Prop :=
  ∃ p ∈ t.packages, p.id = leaf.id ∧ p.parentId = leaf.parentId

/-- A leaf of a forest is counted when there is room for it. -/
theorem addLeaf_of_room (hf : tx.working.Forest) (hrow : IsRow tx.working leaf)
    (hroom : tx.working.packageStorage.Room n) (hsize : size.natAbs ≤ n) :
    ∃ tx', addLeaf leaf size tx = (.done (), tx') ∧
      tx'.working.packageStorage.Room (n - size.natAbs) := by
  obtain ⟨p, hp, hid, hparent⟩ := hrow
  obtain ⟨hclimbs, hrounds⟩ := hf.climbs leaf.parentId
  have hway : (leaf.id :: tx.working.above leaf.parentId).Nodup := by
    rw [← hid, ← hparent] at *
    exact hf.keyed.nodup_way hp hclimbs
  obtain ⟨own, hown⟩ := hroom.exists_add hsize leaf.id
  have hfits : ∀ id ∈ tx.working.above leaf.parentId, InRange (own.get id + size) := by
    intro id hmem
    have hne : id ≠ leaf.id := fun heq => (List.nodup_cons.1 hway).1 (heq ▸ hmem)
    obtain ⟨hlow, hhigh⟩ := hroom id
    rw [Totals.get_add hown, if_neg hne]
    simp only [inRange_iff] at *
    omega
  have hdone : ∃ tx', addLeaf leaf size tx = (.done (), tx') := by
    have hfirst : Transaction.addToPackage leaf.id size tx = (.done (), _) :=
      Transaction.addToPackage_eq_done.2 ⟨own, hown, rfl⟩
    rw [addLeaf, Action.bind_of_done hfirst]
    cases hstart : leaf.parentId with
    | none => exact ⟨_, rfl⟩
    | some parent =>
      rw [hstart] at hclimbs hrounds hfits
      obtain ⟨t', hadd⟩ := Tables.exists_addUpwards
        (t := { tx.working with packageStorage := own }) hclimbs hrounds hfits
      exact ⟨_, Transaction.addToAncestors_eq_done.2 ⟨t', hadd, rfl⟩⟩
  obtain ⟨tx', hdone⟩ := hdone
  refine ⟨tx', hdone, ?_⟩
  obtain ⟨totals, rfl, -, htotals⟩ := addLeaf_done hdone
  refine hroom.sub hsize fun id => ?_
  have hcount := List.nodup_iff_count_le_one.1 hway id
  change (totals.get id - _).natAbs ≤ _
  rw [htotals id]
  rcases Nat.le_one_iff_eq_zero_or_eq_one.1 hcount with hzero | hone
  · simp [hzero]
  · simp [hone]

/-- Leaves of a forest are counted one after another when there is room for all of them. -/
theorem addLeaves_of_room {sum : Int} (hf : tx.working.Forest)
    (hrows : ∀ l ∈ leaves, IsRow tx.working l) (hroom : tx.working.packageStorage.Room n)
    (hsizes : (leaves.map fun l => (sizes.get l.id).natAbs).sum ≤ n)
    (hsum : InRange (sum.natAbs + n)) :
    ∃ total tx', addLeaves sizes sum leaves tx = (.done total, tx') := by
  induction leaves generalizing sum tx n with
  | nil => exact ⟨sum, tx, rfl⟩
  | cons leaf leaves ih =>
    obtain ⟨hrow, hothers⟩ := List.forall_mem_cons.1 hrows
    rw [List.map_cons, List.sum_cons] at hsizes
    by_cases hzero : sizes.get leaf.id = 0
    · rw [addLeaves, if_pos hzero]
      exact ih hf hothers hroom (by omega) hsum
    · have hsize : (sizes.get leaf.id).natAbs ≤ n := by omega
      obtain ⟨tx₁, hleaf, hroom₁⟩ := addLeaf_of_room hf hrow hroom hsize
      obtain ⟨totals, rfl, -, -⟩ := addLeaf_done hleaf
      have hf₁ : ({ tx.working with packageStorage := totals } : Tables).Forest :=
        hf.of_rows (List.forall₂_same.2 fun _ _ => rfl)
      have hnext : sum? sum (sizes.get leaf.id) = some (sum + sizes.get leaf.id) := by
        refine if_pos (show InRange _ from ?_)
        simp only [inRange_iff] at *
        omega
      have hsum₁ : InRange ((sum + sizes.get leaf.id).natAbs +
          (n - (sizes.get leaf.id).natAbs : Nat)) := by
        simp only [inRange_iff] at *
        omega
      rw [addLeaves, if_neg hzero, Action.bind_of_done hleaf, hnext]
      exact ih hf₁ hothers hroom₁ (by omega) hsum₁

/-- Leaves of a forest are accounted for when all totals have room for all of them. -/
theorem propagate_of_room (datasetId : Int) (hf : tx.working.Forest)
    (hrows : ∀ l ∈ leaves, IsRow tx.working l) (hroom : tx.working.Room n)
    (hsizes : (leaves.map fun l => (sizes.get l.id).natAbs).sum ≤ n) :
    ∃ total tx', propagate datasetId leaves sizes tx = (.done total, tx') := by
  have hzero : InRange ((0 : Int).natAbs + n) := by
    simpa using hroom.packages.inRange
  obtain ⟨total, tx₁, hleaves⟩ := addLeaves_of_room hf hrows hroom.packages hsizes hzero
  obtain ⟨totals, hsame, htotal, -, -⟩ := addLeaves_done hleaves
  have hless : total.natAbs ≤ n := by
    have hparts := natAbs_sum_le (leaves.map fun l => sizes.get l.id)
    rw [List.map_map] at hparts
    rw [htotal, Int.zero_add]
    exact hparts.trans hsizes
  obtain ⟨datasets, hdatasets⟩ : ∃ s, tx₁.working.datasetStorage.add datasetId total = some s := by
    rw [hsame]
    exact hroom.datasets.exists_add hless datasetId
  obtain ⟨organizations, horganizations⟩ :
      ∃ s, tx₁.working.organizationStorage.add tx₁.org total = some s := by
    rw [hsame]
    exact hroom.organizations.exists_add hless tx.org
  have hdataset : Transaction.addToDataset datasetId total tx₁ =
      (.done (), { tx₁ with working := { tx₁.working with datasetStorage := datasets } }) :=
    Transaction.addToDataset_eq_done.2 ⟨datasets, hdatasets, rfl⟩
  have horganization : Transaction.addToOrganization tx₁.org total
      { tx₁ with working := { tx₁.working with datasetStorage := datasets } } = (.done (), _) :=
    Transaction.addToOrganization_eq_done.2 ⟨organizations, horganizations, rfl⟩
  rw [propagate, Action.bind_of_done hleaves]
  split
  · rw [Action.bind_of_done hdataset, Action.get_bind_apply, Action.bind_of_done horganization]
    exact ⟨_, _, rfl⟩
  · exact ⟨_, _, rfl⟩

end Salvage.Accounting
