import Salvage.Proofs.Restoration.Overlap
import Salvage.Proofs.Tables.Range

/-!
# Totals that roll up

Totals roll up when each folder has the sum of what is directly in it, each dataset the sum of what is
at its top, and the organization the sum of its datasets. A size that is added all the way up keeps
this: where it reaches a package, it came either from there or through exactly one package directly
below, and it always ends at the top of the dataset that it is added to.
-/

namespace Salvage

open List (Forall₂)

/-- The sum of the totals of some owners. -/
def Totals.sumOf (t : Totals) (ids : List Int) : Int :=
  (ids.map t.get).sum

/-- One more total in a sum. -/
theorem Totals.sumOf_cons (t : Totals) (id : Int) (ids : List Int) :
    t.sumOf (id :: ids) = t.get id + t.sumOf ids :=
  List.sum_cons

namespace Tables

variable {t t' : Tables} {p q : Package} {way : List Int} {org datasetId : Int}

/-- The numbers of the packages directly below a package. -/
def childIds (t : Tables) (id : Int) : List Int :=
  (t.childrenOf id).map Package.id

/-- The numbers of the packages at the top of a dataset. -/
def topIds (t : Tables) (datasetId : Int) : List Int :=
  (t.packages.filter fun p => p.datasetId == datasetId && p.parentId.isNone).map Package.id

/-- Every parent link leads to a package of the same dataset. -/
def Parented (t : Tables) : Prop :=
  ∀ p ∈ t.packages, ∀ a ∈ p.parentId, ∃ q ∈ t.packages, q.id = a ∧ q.datasetId = p.datasetId

instance (t : Tables) : Decidable t.Parented :=
  inferInstanceAs (Decidable (∀ p ∈ t.packages, ∀ a ∈ p.parentId, _))

/-- The packages form a forest with a tree for each package at the top of a dataset, and the storage
totals of the organization and all below it roll up. -/
structure Consistent (org : Int) (t : Tables) : Prop where
  forest : t.Forest
  parented : t.Parented
  datasetIds : (t.datasets.map Dataset.id).Nodup
  folders : ∀ p ∈ t.packages, p.kind.isCollection →
    t.packageStorage.get p.id = t.packageStorage.sumOf (t.childIds p.id)
  datasets : ∀ d ∈ t.datasets, t.datasetStorage.get d.id = t.packageStorage.sumOf (t.topIds d.id)
  organization : t.organizationStorage.get org = t.datasetStorage.sumOf (t.datasets.map Dataset.id)

/-- In a forest whose parent links all lead to the same dataset every tree is of one dataset. -/
theorem Parented.oneDataset (h : t.Parented) (hk : t.Keyed) : t.OneDataset := by
  intro p hp q hq hparent
  obtain ⟨r, hr, hid, hdataset⟩ := h p hp q.id hparent
  rw [hk.eq_of_id hq hr hid.symm, hdataset]

/-! ## Packages that a change leaves in place -/

section Rows

variable (hrows : Forall₂ Package.Retouched t.packages t'.packages)
include hrows

/-- Rows that are selected by what stays of them are the same as before. -/
theorem ids_filter_eq_of_rows {f : Package → Bool} (hf : ∀ p q, p.Retouched q → f q = f p) :
    (t'.packages.filter f).map Package.id = (t.packages.filter f).map Package.id := by
  have hfilter : Forall₂ Package.Retouched (t.packages.filter f) (t'.packages.filter f) :=
    List.rel_filter (fun p q hpq => by dsimp only; rw [hf p q hpq]) hrows
  exact map_eq_of_forall₂ hfilter fun _ _ => Package.Retouched.id_eq

/-- The same packages are directly below a package as before. -/
theorem childIds_eq_of_rows : t'.childIds = t.childIds :=
  funext fun _ => ids_filter_eq_of_rows hrows fun _ _ h => by rw [h.parentId_eq]

/-- The same packages are at the top of a dataset as before. -/
theorem topIds_eq_of_rows : t'.topIds = t.topIds :=
  funext fun _ => ids_filter_eq_of_rows hrows fun _ _ h => by rw [h.parentId_eq, h.datasetId_eq]

/-- Parent links lead to the same dataset as before. -/
theorem Parented.of_rows (h : t.Parented) : t'.Parented := by
  intro p' hp' a ha
  obtain ⟨p, hp, hsame⟩ := exists_of_mem_right hrows hp'
  rw [hsame.parentId_eq] at ha
  obtain ⟨q, hq, hid, hdataset⟩ := h p hp a ha
  obtain ⟨q', hq', hsame'⟩ := exists_of_mem_left hrows hq
  refine ⟨q', hq', hsame'.id_eq.trans hid, ?_⟩
  rw [hsame'.datasetId_eq, hdataset, hsame.datasetId_eq]

end Rows

/-! ## Where a way up passes -/

/-- How often some numbers lie on a way, all of them together. -/
def hits (ids way : List Int) : Int :=
  (ids.map fun id => (way.count id : Int)).sum

/-- One more number lies on the way as often as it is there. -/
theorem hits_cons (id : Int) (ids way : List Int) :
    hits (id :: ids) way = way.count id + hits ids way :=
  List.sum_cons

/-- A way that starts one step earlier hits the number where it starts as well. -/
theorem hits_way_cons (ids : List Int) (a : Int) (way : List Int) :
    hits ids (a :: way) = ids.count a + hits ids way := by
  induction ids with
  | nil => rfl
  | cons id ids ih =>
    rw [hits_cons, hits_cons, ih, List.count_cons, List.count_cons]
    by_cases hid : id = a
    · simp only [hid, beq_self_eq_true, if_true, Nat.cast_add]
      omega
    · simp only [beq_iff_eq, hid, Ne.symm hid, if_false, Nat.add_zero]
      omega

namespace Keyed

variable (hk : t.Keyed)
include hk

/-- Of selected rows each is there once. -/
theorem count_ids_filter (f : Package → Bool) (hp : p ∈ t.packages) :
    ((t.packages.filter f).map Package.id).count p.id = if f p then 1 else 0 := by
  split
  · rename_i hfits
    exact List.count_eq_one_of_mem (hk.sublist (List.filter_sublist.map Package.id))
      (List.mem_map_of_mem (List.mem_filter.2 ⟨hp, hfits⟩))
  · rename_i hnot
    refine List.count_eq_zero_of_not_mem fun hmem => hnot ?_
    obtain ⟨q, hq, hid⟩ := List.mem_map.1 hmem
    obtain ⟨hqmem, hfits⟩ := List.mem_filter.1 hq
    rwa [← hk.eq_of_id hqmem hp hid]

/-- A row is directly below a package exactly once, if at all. -/
theorem count_childIds (id : Int) (hp : p ∈ t.packages) :
    (t.childIds id).count p.id = if p.parentId = some id then 1 else 0 := by
  rw [childIds, childrenOf, hk.count_ids_filter _ hp]
  simp only [beq_iff_eq]

/-- A row is at the top of a dataset exactly once, if at all. -/
theorem count_topIds (datasetId : Int) (hp : p ∈ t.packages) :
    (t.topIds datasetId).count p.id =
      if p.datasetId = datasetId ∧ p.parentId = none then 1 else 0 := by
  rw [topIds, hk.count_ids_filter _ hp]
  simp only [Bool.and_eq_true, beq_iff_eq, Option.isNone_iff_eq_none]

end Keyed

/-- Where every parent link leads to a row, no way up ends at a missing one. -/
theorem Parented.links_ne_none (h : t.Parented) (hk : t.Keyed) {id : Int} (hq : q ∈ t.packages)
    (hparent : q.parentId = some id) : t.links id ≠ none := by
  obtain ⟨r, hr, rfl, -⟩ := h q hq id hparent
  rw [links, hk.package?_eq hr]
  exact Option.some_ne_none _

/-- A way up that reaches a package starts there or has passed one package directly below. -/
theorem count_way_eq_hits (hk : t.Keyed) (hparented : t.Parented) (hp : p ∈ t.packages)
    (hq : q ∈ t.packages) (hclimb : Climbs t.links q.parentId way) :
    ((q.id :: way).count p.id : Int) =
      (if q = p then 1 else 0) + hits (t.childIds p.id) (q.id :: way) := by
  have hself (r : Package) (hr : r ∈ t.packages) : r.id = p.id ↔ r = p :=
    ⟨hk.eq_of_id hr hp, fun h => by rw [h]⟩
  generalize hstart : q.parentId = start at hclimb
  induction hclimb generalizing q with
  | top =>
    rw [hits_way_cons, hk.count_childIds p.id hq, hstart]
    by_cases hqp : q = p <;> simp [hits, hself q hq, hqp]
  | gone hnone => exact absurd hnone (hparented.links_ne_none hk hq hstart)
  | @up id parent way hlink _ ih =>
    obtain ⟨r, hr, rfl, rfl⟩ := hk.links_eq_some_iff.1 hlink
    rw [hits_way_cons, hk.count_childIds p.id hq, hstart, List.count_cons, Nat.cast_add, ih hr rfl]
    simp only [beq_iff_eq, hself q hq, Option.some_inj, hself r hr, Nat.cast_ite, Nat.cast_one,
      Nat.cast_zero]
    omega

/-- A way up ends at the top of the dataset of the package where it starts, and passes no other
package at a top. -/
theorem hits_topIds (hk : t.Keyed) (hparented : t.Parented) (datasetId : Int)
    (hq : q ∈ t.packages) (hclimb : Climbs t.links q.parentId way) :
    hits (t.topIds datasetId) (q.id :: way) = if q.datasetId = datasetId then 1 else 0 := by
  generalize hstart : q.parentId = start at hclimb
  induction hclimb generalizing q with
  | top =>
    rw [hits_way_cons, hk.count_topIds datasetId hq, hstart]
    by_cases hin : q.datasetId = datasetId <;> simp [hits, hin]
  | gone hnone => exact absurd hnone (hparented.links_ne_none hk hq hstart)
  | @up id parent way hlink _ ih =>
    obtain ⟨r, hr, rfl, rfl⟩ := hk.links_eq_some_iff.1 hlink
    have hdataset := hparented.oneDataset hk q hq r hr hstart
    rw [hits_way_cons, hk.count_topIds datasetId hq, hstart, ih hr rfl, hdataset]
    simp

/-! ## Counting keeps the totals rolled up -/

section Sums

variable {s s' : Totals} {leaves : List Package} {size : Package → Int}
  {ways : Package → List Int}

/-- What leaves add along their ways to several totals together. -/
theorem sumOf_eq_of_ways (h : ∀ id, s'.get id =
      s.get id + (leaves.map fun l => size l * (ways l).count id).sum) (ids : List Int) :
    s'.sumOf ids = s.sumOf ids + (leaves.map fun l => size l * hits ids (ways l)).sum := by
  induction ids with
  | nil => simp [Totals.sumOf, hits]
  | cons id ids ih =>
    have hsplit : (leaves.map fun l => size l * hits (id :: ids) (ways l)).sum =
        (leaves.map fun l => size l * (ways l).count id).sum +
          (leaves.map fun l => size l * hits ids (ways l)).sum := by
      rw [← List.sum_map_add]
      refine congrArg _ (List.map_congr_left fun l _ => ?_)
      rw [hits_cons, Int.mul_add]
    rw [hsplit, Totals.sumOf_cons, Totals.sumOf_cons, h id, ih]
    omega

/-- What is added to one total is added to a sum as often as the total is in it. -/
theorem sumOf_eq_of_one {owner x : Int}
    (h : ∀ id, s'.get id = s.get id + if id = owner then x else 0) (ids : List Int) :
    s'.sumOf ids = s.sumOf ids + ids.count owner * x := by
  induction ids with
  | nil => simp [Totals.sumOf]
  | cons id ids ih =>
    rw [Totals.sumOf_cons, Totals.sumOf_cons, h id, ih, List.count_cons, Nat.cast_add, Int.add_mul]
    by_cases hid : id = owner
    · simp only [hid, if_true, beq_self_eq_true, Nat.cast_one, Int.one_mul]
      omega
    · simp only [hid, if_false, beq_iff_eq, Nat.cast_zero, Int.zero_mul]
      omega

/-- Changes of names and states keep the totals rolled up. -/
theorem Consistent.of_evolves {R : Package → Package → Prop} (h : t.Consistent org)
    (hchange : t.Evolves R t') (hR : ∀ p q, R p q → p.Retouched q) : t'.Consistent org := by
  have hrows := hchange.rows.imp hR
  have hpackage : t'.packageStorage = t.packageStorage := by rw [hchange.rest]
  have hdataset : t'.datasetStorage = t.datasetStorage := by rw [hchange.rest]
  have horganization : t'.organizationStorage = t.organizationStorage := by rw [hchange.rest]
  have hdatasets : t'.datasets = t.datasets := by rw [hchange.rest]
  refine ⟨h.forest.of_rows hrows, h.parented.of_rows hrows, by rw [hdatasets]; exact h.datasetIds,
    fun p' hp' hfolder => ?_, fun d hd => ?_, ?_⟩
  · obtain ⟨p, hp, hsame⟩ := exists_of_mem_right hrows hp'
    rw [hsame.id_eq, childIds_eq_of_rows hrows, hpackage]
    exact h.folders p hp (hsame.kind_eq ▸ hfolder)
  · rw [topIds_eq_of_rows hrows, hdataset, hpackage]
    exact h.datasets d (hdatasets ▸ hd)
  · rw [horganization, hdataset, hdatasets]
    exact h.organization

/-- Counting leaves of one dataset in full, on their ways up, in the dataset and in the organization,
keeps the totals rolled up. -/
theorem Consistent.of_counted (h : t.Consistent org)
    (hrows : Forall₂ Package.Retouched t.packages t'.packages) (hdatasets : t'.datasets = t.datasets)
    (hexists : ∃ d ∈ t.datasets, d.id = datasetId)
    (hleaves : ∀ l ∈ leaves, l ∈ t.packages ∧ ¬ l.kind.isCollection ∧ l.datasetId = datasetId)
    (hpackage : ∀ id, t'.packageStorage.get id = t.packageStorage.get id +
      (leaves.map fun l => size l * (l.id :: t.above l.parentId).count id).sum)
    (hdataset : ∀ id, t'.datasetStorage.get id =
      t.datasetStorage.get id + if id = datasetId then (leaves.map size).sum else 0)
    (horganization : t'.organizationStorage.get org =
      t.organizationStorage.get org + (leaves.map size).sum) : t'.Consistent org := by
  have hk := h.forest.keyed
  have hclimbs (l : Package) := (h.forest.climbs l.parentId).1
  have hsums := sumOf_eq_of_ways hpackage
  refine ⟨h.forest.of_rows hrows, h.parented.of_rows hrows, by rw [hdatasets]; exact h.datasetIds,
    fun p' hp' hfolder => ?_, fun d hd => ?_, ?_⟩
  · obtain ⟨p, hp, hsame⟩ := exists_of_mem_right hrows hp'
    rw [hsame.kind_eq] at hfolder
    have hcount : (leaves.map fun l => size l * (l.id :: t.above l.parentId).count p.id) =
        leaves.map fun l => size l * hits (t.childIds p.id) (l.id :: t.above l.parentId) := by
      refine List.map_congr_left fun l hl => ?_
      obtain ⟨hrow, hleaf, -⟩ := hleaves l hl
      have hne : l ≠ p := fun heq => hleaf (heq ▸ hfolder)
      rw [count_way_eq_hits hk h.parented hp hrow (hclimbs l), if_neg hne, Int.zero_add]
    rw [hsame.id_eq, childIds_eq_of_rows hrows, hpackage, hsums, h.folders p hp hfolder, hcount]
  · rw [hdatasets] at hd
    rw [topIds_eq_of_rows hrows, hdataset, hsums, h.datasets d hd]
    have hcount : (leaves.map fun l => size l * hits (t.topIds d.id) (l.id :: t.above l.parentId)) =
        leaves.map fun l => if d.id = datasetId then size l else 0 := by
      refine List.map_congr_left fun l hl => ?_
      obtain ⟨hrow, -, hown⟩ := hleaves l hl
      rw [hits_topIds hk h.parented d.id hrow (hclimbs l), hown]
      by_cases hid : d.id = datasetId
      · rw [if_pos hid, if_pos hid.symm, Int.mul_one]
      · rw [if_neg hid, if_neg (Ne.symm hid), Int.mul_zero]
    rw [hcount]
    split
    · rfl
    · simp
  · obtain ⟨d, hd, hid⟩ := hexists
    rw [hdatasets, sumOf_eq_of_one hdataset, horganization, h.organization,
      List.count_eq_one_of_mem h.datasetIds (List.mem_map.2 ⟨d, hd, hid⟩), Nat.cast_one, Int.one_mul]

end Sums

end Tables

end Salvage
