import Salvage.Proofs.Tables.Forest
import Salvage.Proofs.Totals

/-!
# Walking up

The way up from a package follows parent links until there is none or it leads to a missing row. It
depends on the links alone. `Climbs` says which numbers lie on a way that has an end, `upwards` finds
them with a limited number of rounds, and adding to a package and all above it adds once for each
time a number lies on the way; in a forest that is once for each ancestor.
-/

namespace Salvage

open Relation (ReflTransGen)

namespace Tables

/-- The parent of each package, if there is a row. -/
def links (t : Tables) (id : Int) : Option (Option Int) :=
  (t.package? id).map Package.parentId

/-- The numbers on the way up from a start, as far as some rounds lead. -/
def upwards (links : Int → Option (Option Int)) : Nat → Option Int → List Int
  | 0, _ => []
  | _, none => []
  | n + 1, some id =>
    match links id with
    | none => []
    | some parent => id :: upwards links n parent

/-- The packages above one whose parent is given, and that parent. -/
def above (t : Tables) (parent : Option Int) : List Int :=
  upwards t.links t.depth parent

/-- The way up from a start ends, and these are the numbers on it. -/
inductive Climbs (links : Int → Option (Option Int)) : Option Int → List Int → Prop
  | top : Climbs links none []
  | gone {id : Int} : links id = none → Climbs links (some id) []
  | up {id : Int} {parent : Option Int} {ids : List Int} : links id = some parent →
      Climbs links parent ids → Climbs links (some id) (id :: ids)

section Climbs

variable {links : Int → Option (Option Int)} {start : Option Int} {ids ids' : List Int} {id : Int}

/-- There is only one way up. -/
theorem Climbs.unique (h : Climbs links start ids) (h' : Climbs links start ids') : ids = ids' := by
  induction h generalizing ids' with
  | top =>
    cases h'
    rfl
  | gone hnone =>
    cases h' with
    | gone => rfl
    | up hsome => rw [hnone] at hsome; cases hsome
  | up hsome _ ih =>
    cases h' with
    | gone hnone => rw [hnone] at hsome; cases hsome
    | up hsome' hrest =>
      obtain rfl := Option.some.inj (hsome.symm.trans hsome')
      rw [ih hrest]

/-- From a number on the way up a shorter way goes on. -/
theorem Climbs.rest (h : Climbs links start ids) (hmem : id ∈ ids) :
    ∃ parent rest, links id = some parent ∧ Climbs links parent rest ∧
      rest.length < ids.length := by
  induction h with
  | top => cases hmem
  | gone => cases hmem
  | @up a parent ids hsome hclimb ih =>
    rcases List.mem_cons.1 hmem with rfl | hlater
    · exact ⟨parent, ids, hsome, hclimb, Nat.lt_succ_self _⟩
    · obtain ⟨parent', rest, hsome', hclimb', hlt⟩ := ih hlater
      exact ⟨parent', rest, hsome', hclimb', Nat.lt_succ_of_lt hlt⟩

/-- A number does not lie above itself on a way that ends. -/
theorem Climbs.not_mem_of_links {parent : Option Int} (h : Climbs links parent ids)
    (hlink : links id = some parent) : id ∉ ids := by
  intro hmem
  obtain ⟨parent', rest, hlink', hrest, hlt⟩ := h.rest hmem
  obtain rfl := Option.some.inj (hlink.symm.trans hlink')
  rw [h.unique hrest] at hlt
  exact Nat.lt_irrefl _ hlt

/-- No number lies twice on a way that ends. -/
theorem Climbs.nodup (h : Climbs links start ids) : ids.Nodup := by
  induction h with
  | top => exact List.nodup_nil
  | gone => exact List.nodup_nil
  | up hsome hclimb ih => exact List.nodup_cons.2 ⟨hclimb.not_mem_of_links hsome, ih⟩

end Climbs

/-! ## Adding on the way up -/

variable {t t' : Tables} {n : Nat} {delta : Int} {start : Option Int}

/-- Adding on the way up succeeds only if the way ends; then it changes package totals only, each by
the addition for each time its number lies on the way. -/
theorem addUpwards_done (h : addUpwards delta n start t = some t') :
    Climbs t.links start (upwards t.links n start) ∧
      t' = { t with packageStorage := t'.packageStorage } ∧
      ∀ id, t'.packageStorage.get id =
        t.packageStorage.get id + delta * (upwards t.links n start).count id := by
  induction n generalizing start t with
  | zero =>
    cases start with
    | none =>
      obtain rfl := Option.some.inj h
      exact ⟨.top, rfl, fun id => by simp [upwards]⟩
    | some => cases h
  | succ n ih =>
    cases start with
    | none =>
      obtain rfl := Option.some.inj h
      exact ⟨.top, rfl, fun id => by simp [upwards]⟩
    | some first =>
      rw [addUpwards] at h
      rw [upwards, links]
      cases hrow : t.package? first with
      | none =>
        simp only [hrow] at h
        obtain rfl := Option.some.inj h
        exact ⟨.gone (by rw [links, hrow]; rfl), rfl, fun id => by simp⟩
      | some p =>
        simp only [hrow] at h
        obtain ⟨totals, hadd, hrest⟩ := Option.bind_eq_some_iff.1 h
        obtain ⟨hclimb, hsame, htotals⟩ := ih hrest
        refine ⟨.up (by rw [links, hrow]; rfl) hclimb, hsame, fun id => ?_⟩
        rw [htotals, Totals.get_add hadd]
        change _ = _ + delta * ((first :: upwards t.links n p.parentId).count id : Nat)
        change _ + delta * ((upwards t.links n p.parentId).count id : Nat) = _
        rw [List.count_cons]
        by_cases hid : id = first
        · rw [if_pos hid, if_pos (beq_iff_eq.2 hid.symm), Int.natCast_add, Int.mul_add,
            Int.natCast_one, Int.mul_one]
          omega
        · rw [if_neg hid, if_neg (fun heq => hid (beq_iff_eq.1 heq).symm), Int.add_zero,
            Nat.add_zero]

/-! ## The way up in a forest -/

namespace Keyed

variable (hk : t.Keyed)
include hk

/-- A parent link of a row. -/
theorem links_eq_some_iff {id : Int} {parent : Option Int} :
    t.links id = some parent ↔ ∃ p ∈ t.packages, p.id = id ∧ p.parentId = parent := by
  rw [links, Option.map_eq_some_iff]
  constructor
  · intro hgiven
    obtain ⟨p, hfound, hparent⟩ := hgiven
    obtain ⟨hp, hid⟩ := mem_of_package? hfound
    exact ⟨p, hp, hid, hparent⟩
  · intro hgiven
    obtain ⟨p, hp, rfl, hparent⟩ := hgiven
    exact ⟨p, hk.package?_eq hp, hparent⟩

/-- A row lies on a way up exactly when the way starts at the row or below it. -/
theorem mem_iff_of_climbs {start : Option Int} {ids : List Int} (h : Climbs t.links start ids)
    {p : Package} (hp : p ∈ t.packages) :
    p.id ∈ ids ↔ ∃ a, start = some a ∧ ReflTransGen t.IsParent p.id a := by
  induction h with
  | top => simp
  | @gone a hnone =>
    apply iff_of_false (by simp)
    intro hgiven
    obtain ⟨_, ⟨⟩, hpath⟩ := hgiven
    have hrow : ∃ q ∈ t.packages, q.id = a := by
      rcases Relation.reflTransGen_iff_eq_or_transGen.1 hpath with heq | hbelow
      · exact ⟨p, hp, heq.symm⟩
      · exact exists_row_of_isAncestor hbelow
    obtain ⟨q, hq, rfl⟩ := hrow
    rw [links, hk.package?_eq hq] at hnone
    cases hnone
  | @up a parent ids hsome _ ih =>
    obtain ⟨q, hq, rfl, rfl⟩ := hk.links_eq_some_iff.1 hsome
    rw [List.mem_cons, ih]
    constructor
    · intro hgiven
      rcases hgiven with heq | ⟨b, hparent, hpath⟩
      · exact ⟨q.id, rfl, heq ▸ .refl⟩
      · exact ⟨q.id, rfl, hpath.tail ⟨q, hq, rfl, hparent⟩⟩
    · intro hgiven
      obtain ⟨_, ⟨⟩, hpath⟩ := hgiven
      rcases Relation.reflTransGen_iff_eq_or_transGen.1 hpath with heq | hbelow
      · exact .inl heq.symm
      · exact .inr ((hk.isAncestor_iff hq).1 hbelow)

/-- A package lies on the way up from a leaf that starts with the leaf itself exactly when it is the
leaf or an ancestor. -/
theorem mem_way_iff {p l : Package} (hp : p ∈ t.packages) (hl : l ∈ t.packages)
    (h : Climbs t.links l.parentId (t.above l.parentId)) :
    p.id ∈ l.id :: t.above l.parentId ↔ l = p ∨ t.IsAncestor p.id l.id := by
  rw [List.mem_cons, hk.mem_iff_of_climbs h hp, hk.isAncestor_iff hl]
  refine or_congr_left ⟨fun heq => hk.eq_of_id hl hp heq.symm, fun heq => ?_⟩
  rw [heq]

/-- No number lies twice on the way up from a leaf that starts with the leaf itself. -/
theorem nodup_way {l : Package} (hl : l ∈ t.packages)
    (h : Climbs t.links l.parentId (t.above l.parentId)) :
    (l.id :: t.above l.parentId).Nodup :=
  List.nodup_cons.2 ⟨h.not_mem_of_links (hk.links_eq_some_iff.2 ⟨l, hl, rfl, rfl⟩), h.nodup⟩

/-- Only rows lie on a way up. -/
theorem exists_row_of_mem_way {l : Package} {id : Int} (hl : l ∈ t.packages)
    (h : Climbs t.links l.parentId (t.above l.parentId)) (hmem : id ∈ l.id :: t.above l.parentId) :
    ∃ p ∈ t.packages, p.id = id := by
  rcases List.mem_cons.1 hmem with rfl | habove
  · exact ⟨l, hl, rfl⟩
  · obtain ⟨_, _, hlink, -⟩ := h.rest habove
    obtain ⟨p, hp, hid, -⟩ := hk.links_eq_some_iff.1 hlink
    exact ⟨p, hp, hid⟩

end Keyed

/-- Of rows in step that keep their numbers and parents, those found by a number have one parent. -/
theorem map_parentId_find? {ps qs : List Package} (h : List.Forall₂ Package.Retouched ps qs)
    (id : Int) :
    (qs.find? fun q => q.id == id).map Package.parentId =
      (ps.find? fun p => p.id == id).map Package.parentId := by
  induction h with
  | nil => rfl
  | @cons p q ps qs hpq _ ih =>
    rw [List.find?_cons, List.find?_cons, hpq.id_eq]
    split
    · exact congrArg some hpq.parentId_eq
    · exact ih

/-- Tables whose rows have the same numbers and parents have the same ways up. -/
theorem links_eq_of_rows (h : List.Forall₂ Package.Retouched t.packages t'.packages) :
    t'.links = t.links :=
  funext (map_parentId_find? h)

/-- Tables whose rows have the same numbers and parents have the same packages above each. -/
theorem above_eq_of_rows (h : List.Forall₂ Package.Retouched t.packages t'.packages) :
    t'.above = t.above := by
  funext parent
  rw [above, above, links_eq_of_rows h, depth, depth, h.length_eq]

end Tables

end Salvage
