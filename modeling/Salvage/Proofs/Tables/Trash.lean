import Salvage.Proofs.Tables.Descent
import Salvage.Proofs.Tables.Siblings
import Salvage.Tables.Trash

/-!
# What trashing does to the rows

Trashing walks down from a package without any condition, so in a forest it takes exactly the package
and all that lies below it. `Trashed` says what becomes of each row when the package is marked for
restoring after that. The names that the rows get stand behind a prefix, and a name that does not
start like one is not among them.
-/

namespace Salvage

open Relation (ReflTransGen)

/-- A trashed row keeps all but its name and state. -/
theorem Package.retouched_trashed (p : Package) : p.Retouched p.trashed := by
  rw [Package.Retouched, Package.trashed]
  split <;> rfl

/-- A trashed row is in the trash. -/
theorem Package.state_trashed (p : Package) : p.trashed.state = .deleted := by
  rw [Package.trashed]
  split
  · assumption
  · rfl

/-- A row that was not in the trash has its name behind a prefix then. -/
theorem Package.name_trashed {p : Package} (h : p.state ≠ .deleted) :
    p.trashed.name = Name.deletedPrefix p.nodeId ++ p.name := by
  rw [Package.trashed, if_neg h]

/-- How all prefixes of trashed packages start. -/
def Name.deletedMark : String := "__DELETED__"

/-- A name starts like that of a trashed package. -/
def Name.LooksDeleted (name : String) : Prop :=
  Name.deletedMark.toList <+: name.toList

instance (name : String) : Decidable (Name.LooksDeleted name) :=
  inferInstanceAs (Decidable (_ <+: _))

/-- A name behind the prefix of a trashed package starts like one. -/
theorem Name.looksDeleted_deletedPrefix (nodeId name : String) :
    Name.LooksDeleted (Name.deletedPrefix nodeId ++ name) := by
  refine ⟨nodeId.toList ++ '_' :: name.toList, ?_⟩
  have hshape : Name.deletedPrefix nodeId = Name.deletedMark ++ nodeId ++ "_" := rfl
  rw [hshape]
  simp [String.toList_append]

namespace Tables

/-- The package has a number or lies somewhere below the package with that. -/
def InSubtree (t : Tables) (id : Int) (p : Package) : Prop :=
  ReflTransGen t.IsParent id p.id

/-- Only folders have packages in them. -/
def FoldersOnly (t : Tables) : Prop :=
  ∀ p ∈ t.packages, ∀ q ∈ t.packages, p.parentId = some q.id → q.kind.isCollection

instance (t : Tables) : Decidable t.FoldersOnly :=
  inferInstanceAs (Decidable (∀ p ∈ t.packages, ∀ q ∈ t.packages, _ → _))

variable {t : Tables} {id : Int} {p q r : Package}

/-- A package in a subtree is the one at its top or lies below that. -/
theorem inSubtree_iff : t.InSubtree id p ↔ p.id = id ∨ t.IsAncestor id p.id := by
  rw [InSubtree, Relation.reflTransGen_iff_eq_or_transGen]
  rfl

/-- Where only folders have packages in them, nothing lies below another package. -/
theorem FoldersOnly.inSubtree_iff (h : t.FoldersOnly) (hk : t.Keyed) (hr : r ∈ t.packages)
    (hleaf : ¬ r.kind.isCollection) (hp : p ∈ t.packages) : t.InSubtree r.id p ↔ p = r := by
  constructor
  · intro hin
    rcases (Relation.ReflTransGen.cases_head hin) with heq | ⟨b, hstep, -⟩
    · exact hk.eq_of_id hp hr heq.symm
    · obtain ⟨child, hchild, -, hparent⟩ := hstep
      exact absurd (h child hchild r hr hparent) hleaf
  · rintro rfl
    exact .refl

/-- In a forest the numbers found below a package are those of the packages below it. -/
theorem Forest.mem_subtreeIds_iff (hf : t.Forest) (hp : p ∈ t.packages) :
    p.id ∈ t.subtreeIds id ↔ t.IsAncestor id p.id := by
  have hwalk (q : Package) : q ∈ t.below (fun _ => true) (fun _ => true) t.depth (fun _ => true) [id] ↔
      ∃ k < t.depth, Level t (fun _ => true) (fun _ => true) id (0 + k) q := by
    rw [mem_below_iff (level_zero_iff t _ _ id)]
    simp only [true_and]
  rw [subtreeIds, List.mem_map]
  constructor
  · intro hgiven
    obtain ⟨q, hq, hid⟩ := hgiven
    obtain ⟨k, -, hlevel⟩ := (hwalk q).1 hq
    exact hid ▸ hlevel.isAncestor
  · intro habove
    obtain ⟨k, hlevel⟩ : ∃ k, Level t (fun _ => true) (fun _ => true) id k p :=
      hf.treelike.exists_level hp habove (fun _ _ _ _ => rfl) (fun _ _ _ _ => rfl)
    have hlt := hf.treelike.level_lt hlevel
    refine ⟨p, (hwalk p).2 ⟨k, by rw [depth]; omega, ?_⟩, rfl⟩
    rwa [Nat.zero_add]

/-- A package is trashed with everything below it, and then marked for restoring. -/
def trashAndMark (t : Tables) (id : Int) : Tables :=
  (t.trash id).changeId id (setState .restoring)

/-- A row before and after a package was trashed and marked. -/
structure Trashed (t : Tables) (id : Int) (p q : Package) : Prop where
  top : p.id = id → q = setState .restoring p.trashed
  below : t.IsAncestor id p.id → q = p.trashed
  other : ¬ t.InSubtree id p → q = p

/-- In a forest trashing and marking a package takes it and everything below it. -/
theorem Forest.rows_trashAndMark (hf : t.Forest) (id : Int) :
    t.Evolves (Trashed t id) (t.trashAndMark id) := by
  refine ((evolves_change t _ _).trans (evolves_change (t.trash id) _ _)).imp ?_
  intro p hp r hgiven
  obtain ⟨q, hpq, hqr⟩ := hgiven
  have htaken : (id :: t.subtreeIds id).contains p.id = true ↔ t.InSubtree id p := by
    rw [List.contains_iff_mem, List.mem_cons, hf.mem_subtreeIds_iff hp, Tables.inSubtree_iff]
  have hid : q.id = p.id := by
    rw [hpq]
    split
    · exact p.retouched_trashed.id_eq
    · rfl
  simp only [beq_iff_eq, hid] at hqr
  refine ⟨fun htop => ?_, fun hbelow => ?_, fun hout => ?_⟩
  · rw [hqr, if_pos htop, hpq, if_pos (htaken.2 (Tables.inSubtree_iff.2 (.inl htop)))]
  · have hne : p.id ≠ id := fun heq => hf.acyclic id (heq ▸ hbelow)
    rw [hqr, if_neg hne, hpq, if_pos (htaken.2 (Tables.inSubtree_iff.2 (.inr hbelow)))]
  · have hne : p.id ≠ id := fun heq => hout (Tables.inSubtree_iff.2 (.inl heq))
    rw [hqr, if_neg hne, hpq, if_neg fun hin => hout (htaken.1 hin)]

namespace Trashed

/-- Trashing and marking leave all of a row but its name and state. -/
theorem retouched (h : Trashed t id p q) : p.Retouched q := by
  by_cases hin : t.InSubtree id p
  · rcases Tables.inSubtree_iff.1 hin with htop | hbelow
    · rw [h.top htop]
      exact p.retouched_trashed
    · rw [h.below hbelow]
      exact p.retouched_trashed
  · rw [h.other hin]
    rfl

/-- A package in the subtree that was not in the trash has its name behind a prefix then. -/
theorem name_eq (h : Trashed t id p q) (hin : t.InSubtree id p) (halive : p.state ≠ .deleted) :
    q.name = Name.deletedPrefix p.nodeId ++ p.name := by
  rcases Tables.inSubtree_iff.1 hin with htop | hbelow
  · rw [h.top htop]
    exact Package.name_trashed halive
  · rw [h.below hbelow]
    exact Package.name_trashed halive

/-- What lies below the package is in the trash then. -/
theorem state_of_isAncestor (h : Trashed t id p q) (hbelow : t.IsAncestor id p.id) :
    q.state = .deleted := by
  rw [h.below hbelow]
  exact p.state_trashed

end Trashed

end Tables

end Salvage
