import Salvage.Proofs.Tables.Rows

/-!
# Forests of packages

Each package names at most one parent, so the parent links of a workspace form a forest when no
package is its own ancestor. A link may lead to a number without a row, which is then the end of the
way up. Node ids are part of the structure: like numbers, they tell packages apart.
-/

namespace Salvage.Tables

open Relation (TransGen ReflTransGen)

/-- A package has a number and lies directly below another one. -/
def IsParent (t : Tables) (a b : Int) : Prop :=
  ∃ p ∈ t.packages, p.id = b ∧ p.parentId = some a

/-- The first number is that of a package or missing row somewhere above the second. -/
def IsAncestor (t : Tables) : Int → Int → Prop := TransGen t.IsParent

/-- The parent links form a forest, and numbers do not occur twice. Node ids play no part. -/
structure Treelike (t : Tables) : Prop where
  keyed : t.Keyed
  acyclic : ∀ id, ¬ t.IsAncestor id id

/-- The parent links form a forest, and neither numbers nor node ids occur twice. -/
structure Forest (t : Tables) : Prop extends t.Distinct where
  acyclic : ∀ id, ¬ t.IsAncestor id id

variable {t : Tables} {a b : Int} {p : Package}

/-- Numbers that grow on the way down leave no room for a cycle. -/
theorem not_isAncestor_self_of_lt
    (h : ∀ p ∈ t.packages, ∀ a, p.parentId = some a → a < p.id) (id : Int) :
    ¬ t.IsAncestor id id := by
  have hgrow {a b : Int} (hab : t.IsAncestor a b) : a < b := by
    induction hab with
    | single hstep =>
      obtain ⟨p, hp, rfl, hparent⟩ := hstep
      exact h p hp _ hparent
    | tail _ hstep ih =>
      obtain ⟨p, hp, rfl, hparent⟩ := hstep
      exact Int.lt_trans ih (h p hp _ hparent)
  exact fun hcycle => Int.lt_irrefl id (hgrow hcycle)

/-- Distinct packages whose parents have smaller numbers form a forest. -/
theorem forest_of_lt (hids : (t.packages.map Package.id).Nodup)
    (hnodes : (t.packages.map Package.nodeId).Nodup)
    (hlt : ∀ p ∈ t.packages, p.parentId.all (· < p.id)) : t.Forest := by
  refine ⟨⟨hids, hnodes⟩, not_isAncestor_self_of_lt fun p hp a hparent => ?_⟩
  have hless := hlt p hp
  rw [hparent] at hless
  exact of_decide_eq_true hless

/-- The parent of a row is what the row says. -/
theorem Keyed.isParent_iff (hk : t.Keyed) (hp : p ∈ t.packages) :
    t.IsParent a p.id ↔ p.parentId = some a := by
  constructor
  · intro hgiven
    obtain ⟨q, hq, hid, hparent⟩ := hgiven
    rwa [hk.eq_of_id hq hp hid] at hparent
  · exact fun hparent => ⟨p, hp, rfl, hparent⟩

/-- An ancestor of a package is its parent or an ancestor of its parent. -/
theorem Keyed.isAncestor_iff (hk : t.Keyed) (hp : p ∈ t.packages) :
    t.IsAncestor a p.id ↔ ∃ b, p.parentId = some b ∧ ReflTransGen t.IsParent a b := by
  rw [IsAncestor, TransGen.tail'_iff]
  simp only [hk.isParent_iff hp, and_comm]

/-- What is below a number is a row. -/
theorem exists_row_of_isAncestor (h : t.IsAncestor a b) : ∃ p ∈ t.packages, p.id = b := by
  obtain ⟨-, -, p, hp, hid, -⟩ := TransGen.tail'_iff.1 h
  exact ⟨p, hp, hid⟩

/-- Tables whose rows have the same numbers and parents have the same parent links. -/
theorem isParent_eq_of_rows {t' : Tables}
    (h : List.Forall₂ Package.Retouched t.packages t'.packages) : t'.IsParent = t.IsParent := by
  have hrow {p q : Package} (hpq : p.Retouched q) : q.id = p.id ∧ q.parentId = p.parentId :=
    ⟨hpq.id_eq, hpq.parentId_eq⟩
  funext a b
  refine propext ⟨fun hgiven => ?_, fun hgiven => ?_⟩
  · obtain ⟨q, hq, rfl, hparent⟩ := hgiven
    obtain ⟨p, hp, hpq⟩ := exists_of_mem_right h hq
    exact ⟨p, hp, (hrow hpq).1.symm, (hrow hpq).2 ▸ hparent⟩
  · obtain ⟨p, hp, rfl, hparent⟩ := hgiven
    obtain ⟨q, hq, hpq⟩ := exists_of_mem_left h hp
    exact ⟨q, hq, (hrow hpq).1, (hrow hpq).2.trans hparent⟩

namespace Forest

variable (hf : t.Forest)
include hf

/-- A forest stays one when names and states change. -/
theorem of_rows {t' : Tables} (h : List.Forall₂ Package.Retouched t.packages t'.packages) :
    t'.Forest := by
  refine ⟨hf.toDistinct.of_rows h, fun id => ?_⟩
  rw [IsAncestor, isParent_eq_of_rows h]
  exact hf.acyclic id

/-- A forest is one without its node ids. -/
theorem treelike : t.Treelike := ⟨hf.keyed, hf.acyclic⟩

end Forest

/-- A number is not above its own ancestor. -/
theorem Treelike.not_reflTransGen (ht : t.Treelike) (h : t.IsAncestor a b) :
    ¬ ReflTransGen t.IsParent b a :=
  fun hback => ht.acyclic b (TransGen.trans_right hback h)

end Salvage.Tables
