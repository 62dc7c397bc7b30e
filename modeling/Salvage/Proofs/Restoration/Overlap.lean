import Salvage.Proofs.Restoration.Rows

/-!
# Messages whose packages overlap

The package of one message may lie below that of another. What each of them takes can be said of the
tables before both: a package that two messages could take is taken by the one that comes first, and
the other one takes the rest. So what several messages take together does not depend on their order.
-/

namespace Salvage

open Relation (ReflTransGen)
open List (Forall₂)

namespace Tables

variable {t : Tables} {a b x : Int} {p q : Package}

/-- Of two numbers above a third one of them is above the other, unless they are the same. -/
theorem Keyed.comparable (hk : t.Keyed) (ha : t.IsAncestor a x) (hb : t.IsAncestor b x) :
    a = b ∨ t.IsAncestor a b ∨ t.IsAncestor b a := by
  have hup {c y : Int} (hstep : t.IsParent c y) (hby : t.IsAncestor b y) :
      ReflTransGen t.IsParent b c := by
    obtain ⟨p, hp, rfl, hparent⟩ := hstep
    obtain ⟨d, hd, hpath⟩ := (hk.isAncestor_iff hp).1 hby
    obtain rfl := Option.some.inj (hparent.symm.trans hd)
    exact hpath
  induction ha with
  | single hstep =>
    rcases Relation.reflTransGen_iff_eq_or_transGen.1 (hup hstep hb) with heq | habove
    · exact .inl heq
    · exact .inr (.inr habove)
  | tail hac hstep ih =>
    rcases Relation.reflTransGen_iff_eq_or_transGen.1 (hup hstep hb) with rfl | habove
    · exact .inr (.inl hac)
    · exact ih habove

/-- All packages of a tree are in one dataset. -/
def OneDataset (t : Tables) : Prop :=
  ∀ p ∈ t.packages, ∀ q ∈ t.packages, p.parentId = some q.id → p.datasetId = q.datasetId

instance (t : Tables) : Decidable t.OneDataset :=
  inferInstanceAs (Decidable (∀ p ∈ t.packages, ∀ q ∈ t.packages, _ → _))

/-- In trees of one dataset a package is in the dataset of each package above it. -/
theorem OneDataset.datasetId_eq (h : t.OneDataset) (hk : t.Keyed) (hp : p ∈ t.packages)
    (hq : q ∈ t.packages) (habove : t.IsAncestor p.id q.id) : q.datasetId = p.datasetId := by
  generalize hid : q.id = x at habove
  induction habove generalizing q with
  | single hstep =>
    subst hid
    exact h q hq p hp ((hk.isParent_iff hq).1 hstep)
  | tail habove hstep ih =>
    subst hid
    obtain ⟨r, hr, rfl⟩ := exists_row_of_isAncestor habove
    exact (h q hq r hr ((hk.isParent_iff hq).1 hstep)).trans (ih hr rfl)

/-- What a move covers it still covers among rows in which nothing but states, names and update times
has changed, if the package itself has its state and those between kept theirs. -/
theorem Covers.of_rows {t' : Tables} {R : Package → Package → Prop} {way : Traversal}
    {datasetId root : Int} {expected : Package.State} (h : t.Covers way datasetId root expected p)
    (hrows : Forall₂ R t.packages t'.packages) (hR : ∀ a b, R a b → a.Retouched b)
    (hp : p ∈ t'.packages)
    (hkept : way = .bounded → ∀ a b, R a b → t.IsAncestor root a.id → t.IsAncestor a.id p.id →
      a.state = expected → b.state = expected) :
    t'.Covers way datasetId root expected p := by
  have hparents : t'.IsParent = t.IsParent := isParent_eq_of_rows (hrows.imp hR)
  refine ⟨hp, h.state, ?_, fun b hb hparent hpath => ?_, fun hway b hb habove hbelow => ?_⟩
  · rw [IsAncestor, hparents]
    exact h.below
  · obtain ⟨a, ha, hab⟩ := exists_of_mem_right hrows hb
    have hsame := hR a b hab
    rw [hparents, hsame.id_eq] at hpath
    rw [hsame.parentId_eq] at hparent
    exact hsame.datasetId_eq.trans (h.dataset a ha hparent hpath)
  · obtain ⟨a, ha, hab⟩ := exists_of_mem_right hrows hb
    rw [IsAncestor, hparents, (hR a b hab).id_eq] at habove hbelow
    exact hkept hway a b hab habove hbelow (h.between hway a ha habove hbelow)

end Tables

namespace Restoration

/-- The package is in the trash, marked or not. -/
def Unrestored (p : Package) : Prop := p.state = .deleted ∨ p.state = .restoring

instance (p : Package) : Decidable (Unrestored p) :=
  inferInstanceAs (Decidable (_ ∨ _))

/-- The message for a marked package takes a package: the marked one itself or, if that is a folder,
one that a move of its trashed descendants covers. -/
def Takes (t : Tables) (way : Traversal) (p l : Package) : Prop :=
  l = p ∨ p.kind.isCollection ∧ t.Covers way p.datasetId p.id .deleted l

variable {t t' : Tables} {way : Traversal} {back : List Package} {m : RestoreMessage}
  {p q l : Package}

/-- What is restored is not unrestored. -/
theorem not_unrestored_of_restored (h : q.state = .restored p.kind) : ¬ Unrestored q := by
  rw [Unrestored, h, Package.State.restored]
  split <;> simp

/-- What a message takes is unrestored. -/
theorem Takes.unrestored (h : Takes t way p l) (hp : p.state = .restoring) : Unrestored l := by
  rcases h with rfl | ⟨-, hcovers⟩
  · exact .inr hp
  · exact .inl hcovers.state

/-- What a message takes is a row. -/
theorem Takes.mem (h : Takes t way p l) (hp : p ∈ t.packages) : l ∈ t.packages := by
  rcases h with rfl | ⟨-, hcovers⟩
  · exact hp
  · exact hcovers.mem

/-- In trees of one dataset a message takes packages of one dataset. -/
theorem Takes.datasetId_eq (h : Takes t way p l) (hone : t.OneDataset) (hk : t.Keyed)
    (hp : p ∈ t.packages) : l.datasetId = p.datasetId := by
  rcases h with rfl | ⟨-, hcovers⟩
  · rfl
  · exact hone.datasetId_eq hk hp hcovers.mem hcovers.below

section Rows

variable (hrows : Forall₂ (Returned back) t.packages t'.packages)
include hrows

/-- Unrestored rows are those from before that were not brought back. -/
theorem mem_of_unrestored (hq : q ∈ t'.packages) (hstate : Unrestored q) :
    q ∈ t.packages ∧ q ∉ back := by
  obtain ⟨p, hp, hpq⟩ := exists_of_mem_right hrows hq
  have hnot : p ∉ back := fun hin => not_unrestored_of_restored (hpq.back hin).2.1 hstate
  obtain rfl := hpq.other hnot
  exact ⟨hp, hnot⟩

/-- Rows that were not brought back are still there. -/
theorem mem_of_not_mem_back (hp : p ∈ t.packages) (hnot : p ∉ back) : p ∈ t'.packages := by
  obtain ⟨q, hq, hpq⟩ := exists_of_mem_left hrows hp
  rwa [hpq.other hnot] at hq

/-- A marked package that was not brought back can be claimed. -/
theorem claimed_of_not_mem_back (hd : t'.Distinct) (hp : p ∈ t.packages) (hnot : p ∉ back)
    (hstate : p.state = .restoring) (hdataset : m.datasetId = p.datasetId)
    (hnode : m.package.nodeId = p.nodeId) : claimed? t' m = some p :=
  claimed_of_mem hd (mem_of_not_mem_back hrows hp hnot) hstate hdataset hnode

/-- What a move covers after packages were brought back it covered before, and it is none of them. -/
theorem covers_before {datasetId root : Int}
    (h : t'.Covers way datasetId root .deleted l) :
    t.Covers way datasetId root .deleted l ∧ l ∉ back := by
  obtain ⟨hl, hnot⟩ := mem_of_unrestored hrows h.mem (.inl h.state)
  refine ⟨h.of_rows hrows.flip (fun _ _ hba => hba.retouched.symm) hl ?_, hnot⟩
  intro _ b a hab _ _ hdeleted
  have hout : a ∉ back := fun hin => not_unrestored_of_restored (hab.back hin).2.1 (.inl hdeleted)
  rwa [← hab.other hout]

variable (hback : ∀ l ∈ back, ∃ q ∈ t.packages, q.state = .restoring ∧ q ≠ p ∧ Takes t way q l)
include hback

/-- A folder that is marked itself still covers what it covered and other messages did not bring back:
a message that took a package between would have been stopped by this one, or this one by it. -/
theorem covers_after (hf : t.Forest) (hp : p ∈ t.packages) (hstate : p.state = .restoring)
    (h : t.Covers way p.datasetId p.id .deleted l) (hnot : l ∉ back) :
    t'.Covers way p.datasetId p.id .deleted l := by
  refine h.of_rows hrows (fun _ _ hab => hab.retouched) (mem_of_not_mem_back hrows h.mem hnot) ?_
  intro hway a b hab habove hbelow hdeleted
  have hout : a ∉ back := by
    intro hin
    obtain ⟨q, hq, hmarked, hne, rfl | ⟨-, hother⟩⟩ := hback a hin
    · rw [hdeleted] at hmarked
      cases hmarked
    · rcases hf.keyed.comparable habove hother.below with hid | hunder | hover
      · exact hne (hf.keyed.eq_of_id hq hp hid.symm)
      · have hstop := h.between hway q hq hunder (hother.below.trans hbelow)
        rw [hmarked] at hstop
        cases hstop
      · have hstop := hother.between hway p hp hover habove
        rw [hstate] at hstop
        cases hstop
  rwa [hab.other hout]

/-- After others have brought packages back, a message takes what it takes from the start and was not
brought back yet. -/
theorem takes_iff (hf : t.Forest) (hp : p ∈ t.packages) (hstate : p.state = .restoring)
    (hnot : p ∉ back) : Takes t' way p l ↔ Takes t way p l ∧ l ∉ back := by
  constructor
  · intro hgiven
    rcases hgiven with rfl | ⟨hfolder, hcovers⟩
    · exact ⟨.inl rfl, hnot⟩
    · obtain ⟨h, hout⟩ := covers_before hrows hcovers
      exact ⟨.inr ⟨hfolder, h⟩, hout⟩
  · intro hgiven
    obtain ⟨rfl | ⟨hfolder, h⟩, hout⟩ := hgiven
    · exact .inl rfl
    · exact .inr ⟨hfolder, covers_after hrows hback hf hp hstate h hout⟩

end Rows

/-- The packages that a message finds are those that it takes. -/
theorem mem_takenRows_iff (hf : t.Forest) (hp : claimed? t m = some p)
    (hkind : m.package.kind = p.kind) : l ∈ takenRows t way m ↔ Takes t way p l := by
  rw [Takes, ← hkind, (of_claimed? hp).2.1]
  by_cases hfolder : m.package.kind.isCollection
  · rw [takenRows_of_folder hp hfolder, List.mem_cons, hf.mem_descendants_iff]
    simp only [hfolder, true_and]
  · rw [takenRows_of_leaf hp hfolder, List.mem_singleton]
    simp only [hfolder, Bool.false_eq_true, false_and, or_false]

/-- Those of some packages that are no folders. -/
def leaves (ps : List Package) : List Package :=
  ps.filter fun p => !p.kind.isCollection

/-- The leaves that a message brings back are those of the packages that it takes. -/
theorem leafRows_eq_leaves (hp : claimed? t m = some p) (hkind : m.package.kind = p.kind)
    (way : Traversal) : leafRows t way m = leaves (takenRows t way m) := by
  rw [leafRows, hp, leaves]
  dsimp only
  split
  · rename_i hfolder
    rw [takenRows_of_folder hp hfolder, List.filter_cons_of_neg (by simp [← hkind, hfolder])]
  · rename_i hleaf
    rw [takenRows_of_leaf hp hleaf, List.filter_cons_of_pos (by simpa [← hkind] using hleaf),
      List.filter_nil]

/-- Packages that are brought back after others are brought back together with them. -/
theorem Returned.trans {taken : List Package} {a b c : Package} (h : Returned back a b)
    (h' : Returned taken b c) : Returned (back ++ taken) a c := by
  by_cases hin : a ∈ back
  · obtain ⟨hstate, hrestored, htouched⟩ := h.back hin
    obtain rfl : c = b := h'.other fun htaken =>
      not_unrestored_of_restored hrestored (h'.back htaken).1
    exact ⟨h.retouched, fun _ => ⟨hstate, hrestored, htouched⟩,
      fun hnot => absurd (List.mem_append_left taken hin) hnot⟩
  · obtain rfl := h.other hin
    refine ⟨h'.retouched, fun hmem => ?_, fun hnot => ?_⟩
    · exact h'.back ((List.mem_append.1 hmem).resolve_left hin)
    · exact h'.other fun htaken => hnot (List.mem_append_right back htaken)

end Restoration

end Salvage
