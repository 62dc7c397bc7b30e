import Salvage.Proofs.Lists
import Salvage.Tables.Traversal

/-!
# Tables row by row

A flow changes packages in place: it adds no row, removes none and keeps their order. So tables
before and after are compared row by row, and changes made one after another are composed row by
row. Rows are found by their numbers, which differ.
-/

namespace Salvage

open List (Forall₂)

/-- What of a row stays when its package is renamed or moved to another state. -/
def Package.fixed (p : Package) : Package :=
  { p with name := "", state := .deleted, touched := false }

/-- Of a row only the name, the state and the update time have changed. -/
def Package.Retouched (p q : Package) : Prop := q.fixed = p.fixed

namespace Package.Retouched

variable {p q : Package}

/-- The number of a row stays. -/
theorem id_eq (h : p.Retouched q) : q.id = p.id := (congrArg Package.id h :)

/-- The node id of a row stays. -/
theorem nodeId_eq (h : p.Retouched q) : q.nodeId = p.nodeId := (congrArg Package.nodeId h :)

/-- The kind of a row stays. -/
theorem kind_eq (h : p.Retouched q) : q.kind = p.kind := (congrArg Package.kind h :)

/-- The parent of a row stays. -/
theorem parentId_eq (h : p.Retouched q) : q.parentId = p.parentId :=
  (congrArg Package.parentId h :)

/-- The dataset of a row stays. -/
theorem datasetId_eq (h : p.Retouched q) : q.datasetId = p.datasetId :=
  (congrArg Package.datasetId h :)

/-- Who is a sibling of whom stays. -/
theorem isSiblingOf_eq {r s : Package} (h : p.Retouched q) (h' : r.Retouched s) :
    q.isSiblingOf s = p.isSiblingOf r := by
  rw [isSiblingOf, isSiblingOf, h.id_eq, h.datasetId_eq, h.parentId_eq, h'.id_eq, h'.datasetId_eq,
    h'.parentId_eq]

end Package.Retouched

namespace Tables

/-! ## Rows and their numbers -/

/-- The packages have different numbers. -/
def Keyed (t : Tables) : Prop := (t.packages.map Package.id).Nodup

instance (t : Tables) : Decidable t.Keyed :=
  inferInstanceAs (Decidable (List.Nodup _))

variable {t t' t'' : Tables} {R S : Package → Package → Prop} {p q : Package}

/-- With different numbers, the row found by the number of a package is its own. -/
theorem Keyed.package?_eq (hk : t.Keyed) (hp : p ∈ t.packages) : t.package? p.id = some p :=
  find?_key hk hp

/-- A row that is found is a row and has the number. -/
theorem mem_of_package? {id : Int} (h : t.package? id = some p) : p ∈ t.packages ∧ p.id = id :=
  ⟨List.mem_of_find?_eq_some h, by simpa using List.find?_some h⟩

/-- Packages with one number are the same row. -/
theorem Keyed.eq_of_id (hk : t.Keyed) (hp : p ∈ t.packages) (hq : q ∈ t.packages)
    (h : p.id = q.id) : p = q := by
  have hfound := hk.package?_eq hp
  rw [h, hk.package?_eq hq] at hfound
  exact (Option.some.inj hfound).symm

/-- No row is there twice. -/
theorem Keyed.nodup (hk : t.Keyed) : t.packages.Nodup :=
  List.Nodup.of_map Package.id hk

/-- Numbers stay different when names and states change. -/
theorem Keyed.of_rows (hk : t.Keyed) (h : Forall₂ Package.Retouched t.packages t'.packages) :
    t'.Keyed := by
  rw [Keyed, map_eq_of_forall₂ h fun _ _ => Package.Retouched.id_eq]
  exact hk

/-- Neither numbers nor node ids of packages occur twice. -/
structure Distinct (t : Tables) : Prop where
  keyed : t.Keyed
  nodeIds : (t.packages.map Package.nodeId).Nodup

namespace Distinct

variable (hd : t.Distinct)
include hd

/-- Packages with one node id are the same row. -/
theorem eq_of_nodeId (hp : p ∈ t.packages) (hq : q ∈ t.packages) (h : p.nodeId = q.nodeId) :
    p = q :=
  List.inj_on_of_nodup_map hd.nodeIds hp hq h

/-- Numbers and node ids tell packages apart in the same way. -/
theorem id_eq_iff (hp : p ∈ t.packages) (hq : q ∈ t.packages) :
    p.id = q.id ↔ p.nodeId = q.nodeId := by
  constructor
  · intro h
    rw [hd.keyed.eq_of_id hp hq h]
  · intro h
    rw [hd.eq_of_nodeId hp hq h]

/-- A row of a dataset is found by its node id, and no other row is. -/
theorem packageByNode?_eq_some_iff {datasetId : Int} {nodeId : String} :
    t.packageByNode? datasetId nodeId = some p ↔
      p ∈ t.packages ∧ p.datasetId = datasetId ∧ p.nodeId = nodeId := by
  have hfound {q : Package} (h : t.packageByNode? datasetId nodeId = some q) :
      q ∈ t.packages ∧ q.datasetId = datasetId ∧ q.nodeId = nodeId := by
    have hfits := List.find?_some h
    simp only [Bool.and_eq_true, beq_iff_eq] at hfits
    exact ⟨List.mem_of_find?_eq_some h, hfits⟩
  refine ⟨hfound, fun hgiven => ?_⟩
  obtain ⟨hp, hdataset, hnode⟩ := hgiven
  cases hrow : t.packageByNode? datasetId nodeId with
  | none =>
    have hnone := List.find?_eq_none.1 hrow p hp
    simp [hdataset, hnode] at hnone
  | some q =>
    obtain ⟨hq, -, hown⟩ := hfound hrow
    rw [hd.eq_of_nodeId hq hp (hown.trans hnode.symm)]

/-- Numbers and node ids stay distinct when names and states change. -/
theorem of_rows (h : Forall₂ Package.Retouched t.packages t'.packages) : t'.Distinct := by
  refine ⟨hd.keyed.of_rows h, ?_⟩
  rw [map_eq_of_forall₂ h fun _ _ => Package.Retouched.nodeId_eq]
  exact hd.nodeIds

end Distinct

/-! ## Changes of packages -/

/-- The tables differ in their packages only, and there row by row in the way of a relation. -/
structure Evolves (R : Package → Package → Prop) (t t' : Tables) : Prop where
  rows : Forall₂ R t.packages t'.packages
  rest : t' = { t with packages := t'.packages }

/-- Changes one after another compose row by row. -/
theorem Evolves.trans (h : Evolves R t t') (h' : Evolves S t' t'') :
    Evolves (Relation.Comp R S) t t'' :=
  ⟨forall₂_comp h.rows h'.rows, by rw [h'.rest, h.rest]⟩

/-- What a relation says of the rows of a table may be said in another way. -/
theorem Evolves.imp (h : Evolves R t t') (hRS : ∀ p ∈ t.packages, ∀ q, R p q → S p q) :
    Evolves S t t' :=
  ⟨forall₂_imp_of_mem h.rows hRS, h.rest⟩

/-- Tables in which nothing changes evolve by any relation that rows have to themselves. -/
theorem evolves_refl (t : Tables) (hR : ∀ p, R p p) : Evolves R t t :=
  ⟨List.forall₂_same.2 fun p _ => hR p, rfl⟩

/-- A change of some packages changes them and no others. -/
theorem evolves_change (t : Tables) (which : Package → Bool) (f : Package → Package) :
    Evolves (fun p q => q = if which p then f p else p) t (t.change which f) := by
  refine ⟨?_, rfl⟩
  rw [change, List.forall₂_map_right_iff, List.forall₂_same]
  intro p _
  rfl

/-- Conditions that agree on the packages select the same ones for a change. -/
theorem change_congr {which which' : Package → Bool} {f : Package → Package}
    (h : ∀ p ∈ t.packages, which p = which' p) : t.change which f = t.change which' f := by
  have hrows : (t.packages.map fun p => if which p then f p else p) =
      t.packages.map fun p => if which' p then f p else p :=
    List.map_congr_left fun p hp => by rw [h p hp]
  rw [change, change, hrows]

/-- A change that is made to some packages and then to one more is made to all of them at once, if it
keeps their numbers and does nothing the second time. -/
theorem changeId_change (t : Tables) (which : Package → Bool) (id : Int) {f : Package → Package}
    (hid : ∀ p, (f p).id = p.id) (htwice : ∀ p, f (f p) = f p) :
    (t.change which f).changeId id f = t.change (fun p => which p || p.id == id) f := by
  have hrows : ((t.packages.map fun p => if which p then f p else p).map
      fun p => if p.id == id then f p else p) =
      t.packages.map fun p => if which p || p.id == id then f p else p := by
    rw [List.map_map]
    refine List.map_congr_left fun p _ => ?_
    by_cases hwhich : which p <;> by_cases hown : p.id = id <;>
      simp [hwhich, hown, hid, htwice]
  rw [changeId, change, change, change, hrows]

/-- Moving one more package to a state after others. -/
theorem changeId_change_moveTo (t : Tables) (which : Package → Bool) (id : Int)
    (target : Package.State) :
    (t.change which (·.moveTo target)).changeId id (·.moveTo target) =
      t.change (fun p => which p || p.id == id) (·.moveTo target) :=
  changeId_change t which id (fun _ => rfl) fun _ => rfl

end Tables

end Salvage
