import Salvage.Proofs.Tables.Rows

/-!
# Names of siblings

In one place of a dataset, in a folder or at the top, no two packages have the same name. A package
that gets a name which none of its siblings has does not change that, and neither does a move to
another state. `KeepsApart` says so of tables before and after, together with what else stays: all of
each row but its name, state and update time.
-/

namespace Salvage

open List (Forall₂)

/-- A row has kept its name, whatever else has changed of name, state and update time. -/
def Package.KeepsName (p q : Package) : Prop := p.Retouched q ∧ q.name = p.name

/-- Packages are siblings when they are different ones in the same place. -/
theorem Package.isSiblingOf_iff {p q : Package} :
    p.isSiblingOf q = true ↔ p.id ≠ q.id ∧ p.datasetId = q.datasetId ∧ p.parentId = q.parentId := by
  simp [Package.isSiblingOf, and_assoc]

namespace Tables

/-- No two packages in the same place of a dataset have the same name. -/
def NamesApart (t : Tables) : Prop :=
  ∀ p ∈ t.packages, ∀ q ∈ t.packages,
    p.datasetId = q.datasetId → p.parentId = q.parentId → p.name = q.name → p = q

instance (t : Tables) : Decidable t.NamesApart :=
  inferInstanceAs (Decidable (∀ p ∈ t.packages, ∀ q ∈ t.packages, _ → _ → _ → _))

variable {t t' : Tables} {p q : Package} {id : Int} {name : String}

/-- A name is taken when a sibling has it. -/
theorem siblingHasName_iff :
    t.siblingHasName p name = true ↔ ∃ q ∈ t.packages, p.isSiblingOf q = true ∧ q.name = name := by
  simp [siblingHasName]

/-- A name that no sibling has is the name of no other package in the same place. -/
theorem ne_of_siblingHasName (hfree : t.siblingHasName p name = false) (hq : q ∈ t.packages)
    (hid : p.id ≠ q.id) (hdataset : p.datasetId = q.datasetId) (hparent : p.parentId = q.parentId) :
    q.name ≠ name := by
  intro hname
  have htaken : t.siblingHasName p name = true :=
    siblingHasName_iff.2 ⟨q, hq, Package.isSiblingOf_iff.2 ⟨hid, hdataset, hparent⟩, hname⟩
  rw [hfree] at htaken
  cases htaken

/-- Names stay apart when a package gets a name that none of its siblings has. -/
theorem NamesApart.rename (h : t.NamesApart) (hk : t.Keyed) (hp : t.package? id = some p)
    (hfree : t.siblingHasName p name = false) : (t.changeId id (·.rename name)).NamesApart := by
  obtain ⟨hmem, rfl⟩ := mem_of_package? hp
  intro a' ha' b' hb' hdataset hparent hname
  obtain ⟨a, ha, rfl⟩ := List.mem_map.1 ha'
  obtain ⟨b, hb, rfl⟩ := List.mem_map.1 hb'
  simp only [beq_iff_eq] at hdataset hparent hname ⊢
  by_cases haid : a.id = p.id
  · obtain rfl := hk.eq_of_id ha hmem haid
    by_cases hbid : b.id = a.id
    · rw [hk.eq_of_id hb ha hbid]
    · rw [if_pos rfl, if_neg hbid] at hdataset hparent hname
      exact absurd hname.symm (ne_of_siblingHasName hfree hb (Ne.symm hbid) hdataset hparent)
  · by_cases hbid : b.id = p.id
    · obtain rfl := hk.eq_of_id hb hmem hbid
      rw [if_neg haid, if_pos rfl] at hdataset hparent hname
      exact absurd hname (ne_of_siblingHasName hfree ha (Ne.symm haid) hdataset.symm hparent.symm)
    · rw [if_neg haid, if_neg hbid] at hdataset hparent hname ⊢
      exact h a ha b hb hdataset hparent hname

/-- Moves to other states leave names alone. -/
theorem keepsName_change_moveTo (t : Tables) (which : Package → Bool) (target : Package.State) :
    Forall₂ Package.KeepsName t.packages (t.change which (·.moveTo target)).packages := by
  refine (evolves_change t which (·.moveTo target)).rows.imp fun p q hq => ?_
  rw [hq]
  split <;> exact ⟨rfl, rfl⟩

/-- Names stay that are left alone by one step and then by another. -/
theorem keepsName_comp {as bs cs : List Package} (h : Forall₂ Package.KeepsName as bs)
    (h' : Forall₂ Package.KeepsName bs cs) : Forall₂ Package.KeepsName as cs := by
  refine (forall₂_comp h h').imp fun p r hgiven => ?_
  obtain ⟨q, hpq, hqr⟩ := hgiven
  exact ⟨hqr.1.trans hpq.1, hqr.2.trans hpq.2⟩

instance : IsPreorder (List Package) (Forall₂ Package.KeepsName) where
  refl _ := List.forall₂_same.2 fun _ _ => ⟨rfl, rfl⟩
  trans _ _ _ := keepsName_comp

/-- Names stay apart when they stay. -/
theorem NamesApart.of_keepsName (h : t.NamesApart) (hk : t.Keyed)
    (hrows : Forall₂ Package.KeepsName t.packages t'.packages) : t'.NamesApart := by
  have hk' := hk.of_rows (hrows.imp fun _ _ hpq => hpq.1)
  intro a' ha' b' hb' hdataset hparent hname
  obtain ⟨a, ha, hkept, haname⟩ := exists_of_mem_right hrows ha'
  obtain ⟨b, hb, hkept', hbname⟩ := exists_of_mem_right hrows hb'
  have hsame : a = b := by
    refine h a ha b hb ?_ ?_ ?_
    · rw [← hkept.datasetId_eq, hdataset, hkept'.datasetId_eq]
    · rw [← hkept.parentId_eq, hparent, hkept'.parentId_eq]
    · rw [← haname, hname, hbname]
  exact hk'.eq_of_id ha' hb' (by rw [hkept.id_eq, hkept'.id_eq, hsame])

/-- Of the rows only names, states and update times change, and names of siblings that are apart stay
apart. -/
structure KeepsApart (t t' : Tables) : Prop where
  rows : Forall₂ Package.Retouched t.packages t'.packages
  names : t.Keyed → t.NamesApart → t'.NamesApart

instance : IsPreorder Tables KeepsApart where
  refl _ := ⟨List.forall₂_same.2 fun _ _ => rfl, fun _ h => h⟩
  trans _ _ _ h h' := by
    refine ⟨(forall₂_comp h.rows h'.rows).imp fun p r hgiven => ?_, fun hk hnames => ?_⟩
    · obtain ⟨q, hpq, hqr⟩ := hgiven
      exact hqr.trans hpq
    · exact h'.names (hk.of_rows h.rows) (h.names hk hnames)

/-- Tables with the same rows keep names apart. -/
theorem keepsApart_of_packages (h : t'.packages = t.packages) : KeepsApart t t' := by
  refine ⟨?_, fun _ hnames => ?_⟩
  · rw [h]
    exact List.forall₂_same.2 fun _ _ => rfl
  · rw [NamesApart, h]
    exact hnames

/-- A move of packages to a state keeps names apart. -/
theorem keepsApart_change_moveTo (t : Tables) (which : Package → Bool) (target : Package.State) :
    KeepsApart t (t.change which (·.moveTo target)) := by
  have hkept := keepsName_change_moveTo t which target
  exact ⟨hkept.imp fun _ _ hpq => hpq.1, fun hk hnames => hnames.of_keepsName hk hkept⟩

/-- Giving a package a name that none of its siblings has keeps names apart. -/
theorem keepsApart_rename (hp : t.package? id = some p)
    (hfree : t.siblingHasName p name = false) : KeepsApart t (t.changeId id (·.rename name)) := by
  refine ⟨(evolves_change t _ _).rows.imp fun a b hb => ?_, fun hk hnames => ?_⟩
  · rw [hb]
    split <;> rfl
  · exact hnames.rename hk hp hfree

end Tables

end Salvage
