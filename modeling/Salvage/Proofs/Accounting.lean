import Salvage.Accounting
import Salvage.Proofs.Tables.Ascent
import Salvage.Proofs.Transaction

/-!
# Where the sizes of leaves are counted

Each leaf is counted in full on every step of its way up, in its dataset and in its organization.
`Credited` says so for all totals at once. A leaf of size zero takes no steps, so it is no proof
that its way has an end.
-/

namespace Salvage.Accounting

open Tables (Climbs)

/-- The size that counts for a leaf: its own, or the sum of its source files, or the size on its
delete record, or nothing. -/
def countedSize (t : Tables) (records : RecordSet) (leaf : PackageInfo) : Int :=
  (leaf.size.or ((t.fileSum leaf.id).or
    ((records.find? leaf.nodeId).bind DeleteRecord.size))).getD 0

/-- Leaves are counted: once for each time a number lies on the way up from one of them, and once
in the dataset and the organization. -/
structure Credited (t : Tables) (datasetId org : Int) (size : PackageInfo → Int)
    (leaves : List PackageInfo) (t' : Tables) : Prop where
  packages : ∀ id, t'.packageStorage.get id = t.packageStorage.get id +
    (leaves.map fun l => size l * (l.id :: t.above l.parentId).count id).sum
  datasets : ∀ id, t'.datasetStorage.get id =
    t.datasetStorage.get id + if id = datasetId then (leaves.map size).sum else 0
  organizations : ∀ id, t'.organizationStorage.get id =
    t.organizationStorage.get id + if id = org then (leaves.map size).sum else 0
  climbs : ∀ l ∈ leaves, size l ≠ 0 → Climbs t.links l.parentId (t.above l.parentId)

variable {tx tx' : Transaction} {leaf : PackageInfo} {leaves : List PackageInfo} {size : Int}
  {sizes : Totals}

/-! ## Sizes -/

/-- A total that is set for each of some leaves, to the same value for each number, has that value
for the numbers of the leaves. -/
theorem get_foldl_put {f : PackageInfo → Int} {s : Totals} {id x : Int}
    (hsame : ∀ l ∈ leaves, l.id = id → f l = x)
    (h : s.get id = x ∨ ∃ l ∈ leaves, l.id = id) :
    (leaves.foldl (fun s l => s.put l.id (f l)) s).get id = x := by
  induction leaves generalizing s with
  | nil => simpa using h
  | cons l leaves ih =>
    rw [List.foldl_cons]
    apply ih (fun l' hl' => hsame l' (List.mem_cons_of_mem _ hl'))
    rw [Totals.get_put]
    by_cases hid : id = l.id
    · rw [if_pos hid]
      exact .inl (hsame l List.mem_cons_self hid.symm)
    · rw [if_neg hid]
      rcases h with hget | ⟨l', hmem, hid'⟩
      · exact .inl hget
      · rcases List.mem_cons.1 hmem with rfl | hrest
        · exact absurd hid'.symm hid
        · exact .inr ⟨l', hrest, hid'⟩

/-- The sizes of leaves with different numbers are those that count. -/
theorem leafSizes_done {records : RecordSet}
    (hids : ∀ l ∈ leaves, ∀ l' ∈ leaves, l.id = l'.id → l = l')
    (h : leafSizes leaves records tx = (.done sizes, tx')) :
    tx' = tx ∧ ∀ l ∈ leaves, sizes.get l.id = countedSize tx.working records l := by
  simp only [leafSizes, Action.bind_eq_done, Transaction.fileSizes_eq_done,
    Action.pure_eq_done] at h
  obtain ⟨files, _, ⟨hfiles, rfl⟩, rfl, rfl⟩ := h
  refine ⟨rfl, fun l hl => ?_⟩
  have hcounted : sizeOf files records l = countedSize tx'.working records l := by
    rw [sizeOf, countedSize]
    cases hsize : l.size with
    | some => rfl
    | none =>
      have hmem : l.id ∈ (leaves.filter fun leaf => leaf.size.isNone).map PackageInfo.id :=
        List.mem_map_of_mem (List.mem_filter.2 ⟨hl, by rw [hsize]; rfl⟩)
      rw [Tables.find?_fileSizes hfiles, if_pos hmem]
  rw [← hcounted]
  refine get_foldl_put (fun l' hl' hid => ?_) (.inr ⟨l, hl, rfl⟩)
  rw [hids l' hl' l hl hid]

/-! ## Counting -/

variable {t t₁ t₂ t' : Tables} {datasetId org : Int} {f g : PackageInfo → Int}
  {R S : Package → Package → Prop}

/-- Only the sizes of the leaves themselves count. -/
theorem Credited.congr (h : Credited t datasetId org f leaves t') (hfg : ∀ l ∈ leaves, f l = g l) :
    Credited t datasetId org g leaves t' := by
  have hsum : leaves.map f = leaves.map g := List.map_congr_left hfg
  refine ⟨fun id => ?_, fun id => ?_, fun id => ?_, fun l hl hne => h.climbs l hl ?_⟩
  · rw [h.packages id]
    refine congrArg (_ + List.sum ·) (List.map_congr_left fun l hl => ?_)
    rw [hfg l hl]
  · rw [h.datasets id, hsum]
  · rw [h.organizations id, hsum]
  · rwa [hfg l hl]

/-- Changes of names and states do not change the sizes that count. -/
theorem countedSize_of_evolves (h : t.Evolves R t') : countedSize t' = countedSize t := by
  have hfiles : t'.files = t.files := by rw [h.rest]
  funext records leaf
  rw [countedSize, countedSize, Tables.fileSum, Tables.fileSum, hfiles]

/-- Changes of names and states before leaves are counted and after that do not matter. -/
theorem Credited.of_evolves (h₁ : t.Evolves R t₁) (hR : ∀ p q, R p q → p.Retouched q)
    (h : Credited t₁ datasetId org f leaves t₂) (h₂ : t₂.Evolves S t') :
    Credited t datasetId org f leaves t' := by
  have hrows := h₁.rows.imp hR
  have habove := Tables.above_eq_of_rows hrows
  have hlinks := Tables.links_eq_of_rows hrows
  have hbefore := h₁.rest
  have hafter := h₂.rest
  refine ⟨fun id => ?_, fun id => ?_, fun id => ?_, fun l hl hne => ?_⟩
  · rw [hafter, ← habove]
    apply (h.packages id).trans
    rw [hbefore]
  · rw [hafter]
    apply (h.datasets id).trans
    rw [hbefore]
  · rw [hafter]
    apply (h.organizations id).trans
    rw [hbefore]
  · rw [← habove, ← hlinks]
    exact h.climbs l hl hne

/-- Counting a leaf that is done went all the way up. -/
theorem addLeaf_done {u : Unit} (h : addLeaf leaf size tx = (.done u, tx')) :
    ∃ totals, tx' = { tx with working := { tx.working with packageStorage := totals } } ∧
      Climbs tx.working.links leaf.parentId (tx.working.above leaf.parentId) ∧
      ∀ id, totals.get id = tx.working.packageStorage.get id +
        size * (leaf.id :: tx.working.above leaf.parentId).count id := by
  simp only [addLeaf, Action.bind_eq_done, Transaction.addToPackage_eq_done] at h
  obtain ⟨_, _, ⟨own, hown, rfl⟩, h⟩ := h
  have hcount (totals : Totals) (hrest : ∀ id, totals.get id =
      own.get id + size * (tx.working.above leaf.parentId).count id) (id : Int) :
      totals.get id = tx.working.packageStorage.get id +
        size * (leaf.id :: tx.working.above leaf.parentId).count id := by
    rw [hrest, Totals.get_add hown, List.count_cons, Int.natCast_add, Int.mul_add]
    by_cases hid : id = leaf.id
    · rw [if_pos hid, if_pos (beq_iff_eq.2 hid.symm), Int.natCast_one, Int.mul_one]
      omega
    · rw [if_neg hid, if_neg (fun heq => hid (beq_iff_eq.1 heq).symm), Int.natCast_zero,
        Int.mul_zero]
      omega
  cases hparent : leaf.parentId with
  | none =>
    rw [hparent] at h hcount
    obtain ⟨-, rfl⟩ := Action.pure_eq_done.1 h
    refine ⟨own, rfl, .top, hcount own fun id => ?_⟩
    simp [Tables.above, Tables.depth, Tables.upwards]
  | some parent =>
    rw [hparent] at h hcount
    obtain ⟨t, hadd, rfl⟩ := Transaction.addToAncestors_eq_done.1 h
    obtain ⟨hclimb, hsame, htotals⟩ := Tables.addUpwards_done hadd
    refine ⟨t.packageStorage, ?_, hclimb, hcount _ htotals⟩
    rw [hsame]

/-- Counting leaves that is done counted each of them, and all of them in the sum. -/
theorem addLeaves_done {sum total : Int} (h : addLeaves sizes sum leaves tx = (.done total, tx')) :
    ∃ totals, tx' = { tx with working := { tx.working with packageStorage := totals } } ∧
      total = sum + (leaves.map fun l => sizes.get l.id).sum ∧
      (∀ l ∈ leaves, sizes.get l.id ≠ 0 →
        Climbs tx.working.links l.parentId (tx.working.above l.parentId)) ∧
      ∀ id, totals.get id = tx.working.packageStorage.get id + (leaves.map fun l =>
        sizes.get l.id * (l.id :: tx.working.above l.parentId).count id).sum := by
  induction leaves generalizing sum tx with
  | nil =>
    obtain ⟨rfl, rfl⟩ := Action.pure_eq_done.1 h
    exact ⟨_, rfl, by simp, by simp, by simp⟩
  | cons leaf leaves ih =>
    rw [addLeaves] at h
    split at h
    · rename_i hzero
      obtain ⟨totals, rfl, rfl, hclimbs, htotals⟩ := ih h
      refine ⟨totals, rfl, ?_, ?_, ?_⟩
      · rw [List.map_cons, List.sum_cons, hzero, Int.zero_add]
      · rw [List.forall_mem_cons]
        exact ⟨fun hne => absurd hzero hne, hclimbs⟩
      · intro id
        rw [htotals, List.map_cons, List.sum_cons, hzero, Int.zero_mul, Int.zero_add]
    · simp only [Action.bind_eq_done, Action.orAbort_eq_done] at h
      obtain ⟨_, _, hleaf, sum', _, ⟨hsum, rfl⟩, h⟩ := h
      obtain ⟨own, rfl, hclimb, hown⟩ := addLeaf_done hleaf
      obtain ⟨totals, rfl, rfl, hclimbs, htotals⟩ := ih h
      refine ⟨totals, rfl, ?_, ?_, ?_⟩
      · rw [eq_add_of_sum? hsum, List.map_cons, List.sum_cons, Int.add_assoc]
      · rw [List.forall_mem_cons]
        exact ⟨fun _ => hclimb, hclimbs⟩
      · intro id
        rw [htotals, List.map_cons, List.sum_cons, ← Int.add_assoc, ← hown]
        rfl

/-- Accounting that is done changes storage totals only, and counts all leaves. -/
theorem propagate_done {datasetId total : Int}
    (h : propagate datasetId leaves sizes tx = (.done total, tx')) :
    (∃ packages datasets organizations, tx' = { tx with working := { tx.working with
      packageStorage := packages
      datasetStorage := datasets
      organizationStorage := organizations } }) ∧
    Credited tx.working datasetId tx.org (fun l => sizes.get l.id) leaves tx'.working := by
  simp only [propagate, Action.bind_eq_done] at h
  obtain ⟨sum, _, hleaves, h⟩ := h
  obtain ⟨totals, rfl, hsum, hclimbs, htotals⟩ := addLeaves_done hleaves
  rw [Int.zero_add] at hsum
  split at h
  · simp only [Action.bind_eq_done, Transaction.addToDataset_eq_done, Action.get_eq_done,
      Transaction.addToOrganization_eq_done, Action.pure_eq_done] at h
    obtain ⟨_, _, ⟨datasets, hdataset, rfl⟩, _, _, ⟨rfl, rfl⟩, _, _, ⟨organizations, horg, rfl⟩,
      rfl, rfl⟩ := h
    refine ⟨⟨totals, datasets, organizations, rfl⟩, htotals, ?_, ?_, hclimbs⟩
    · intro id
      rw [← hsum]
      exact Totals.get_add hdataset id
    · intro id
      rw [← hsum]
      exact Totals.get_add horg id
  · rename_i hzero
    obtain ⟨rfl, rfl⟩ := Action.pure_eq_done.1 h
    have hnone : (leaves.map fun l => sizes.get l.id).sum = 0 := by
      rw [← hsum]
      exact not_not.1 hzero
    refine ⟨⟨totals, _, _, rfl⟩, htotals, ?_, ?_, hclimbs⟩ <;>
    · intro id
      rw [hnone, ite_self, Int.add_zero]

/-! ## Accounting does not fail -/

section NotFailing

variable (tx : Transaction)

/-- Finding the sizes of leaves does not fail. -/
theorem doneUnless_leafSizes (leaves : List PackageInfo) (records : RecordSet) :
    Action.DoneUnless True (leafSizes leaves records) tx := by
  rw [leafSizes]
  refine Action.DoneUnless.bind ?_ fun _ _ _ => Action.doneUnless_of_done rfl
  exact Action.doneUnless_bind_of_done rfl ((Action.doneUnless_orAbort _ _).mono fun _ => trivial)

/-- Counting a leaf does not fail. -/
theorem doneUnless_addLeaf (leaf : PackageInfo) (size : Int) :
    Action.DoneUnless True (addLeaf leaf size) tx := by
  rw [addLeaf]
  refine (Transaction.doneUnless_addToPackage leaf.id size tx).bind fun _ tx₁ _ => ?_
  cases leaf.parentId with
  | none => exact Action.doneUnless_of_done rfl
  | some parent => exact Transaction.doneUnless_addToAncestors parent size tx₁

/-- Counting leaves does not fail. -/
theorem doneUnless_addLeaves (sizes : Totals) (sum : Int) (leaves : List PackageInfo) :
    Action.DoneUnless True (addLeaves sizes sum leaves) tx := by
  induction leaves generalizing sum tx with
  | nil => exact Action.doneUnless_of_done rfl
  | cons leaf leaves ih =>
    rw [addLeaves]
    split
    · exact ih tx sum
    · refine (doneUnless_addLeaf tx leaf _).bind fun _ tx₁ _ => ?_
      exact ((Action.doneUnless_orAbort _ tx₁).mono fun _ => trivial).bind fun _ tx₂ _ => ih tx₂ _

/-- Accounting does not fail. -/
theorem doneUnless_propagate (datasetId : Int) (leaves : List PackageInfo) (sizes : Totals) :
    Action.DoneUnless True (propagate datasetId leaves sizes) tx := by
  rw [propagate]
  refine (doneUnless_addLeaves tx sizes 0 leaves).bind fun total tx₁ _ => ?_
  dsimp only
  split
  · refine (Transaction.doneUnless_addToDataset datasetId total tx₁).bind fun _ tx₂ _ => ?_
    refine Action.doneUnless_bind_of_done rfl ?_
    refine (Transaction.doneUnless_addToOrganization tx₂.org total tx₂).bind fun _ _ _ => ?_
    exact Action.doneUnless_of_done rfl
  · exact Action.doneUnless_of_done rfl

end NotFailing

end Salvage.Accounting
