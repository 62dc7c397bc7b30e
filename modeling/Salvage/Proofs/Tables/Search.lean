import Mathlib.Data.List.Perm.Basic
import Mathlib.Logic.Function.Iterate
import Salvage.Proofs.Tables.Descent
import Salvage.Proofs.Transaction

/-!
# Searching level by level

The descendants that are to move are searched for in rounds. A round takes the children of all
packages that the round before went through, puts them in the order of their numbers, and adds those
in the expected state to what has been found; the search is over when nothing is left to go through.
No round knows how many there will be. In a forest the search comes to its end, and what it has
found then is what the walk finds with its bound on rounds. `moveDescendants_exact` says which
packages move, in which order they are returned, and that nothing else changes. Node ids play no part
in it.
-/

namespace Salvage.Tables

open Relation (TransGen)

/-- The packages are kept in the order of their numbers. -/
def Ordered (t : Tables) : Prop := t.packages.Pairwise fun p q => p.id < q.id

instance (t : Tables) : Decidable t.Ordered :=
  inferInstanceAs (Decidable (t.packages.Pairwise _))

/-- A search below a package. -/
structure Search where
  /-- What has been found so far. -/
  found : List Package
  /-- The numbers of the packages whose children come next. -/
  frontier : List Int
  /-- Whether these children are the first ones. -/
  fresh : Bool

namespace Search

/-- The search below a package before its first round. -/
def start (root : Int) : Search := ⟨[], [root], true⟩

/-- The packages that come next are in the dataset, or need not be, as they are not the first. -/
def admits (datasetId : Int) (s : Search) (p : Package) : Bool :=
  !s.fresh || p.datasetId == datasetId

/-- One round of a search. -/
def round (t : Tables) (way : Traversal) (datasetId : Int) (expected : Package.State)
    (s : Search) : Search :=
  let level := ((s.frontier.flatMap t.childrenOf).filter (s.admits datasetId)).mergeSort
    fun p q => decide (p.id ≤ q.id)
  ⟨s.found ++ level.filter fun p => p.state == expected,
    (level.filter (passes way expected)).map Package.id, false⟩

end Search

variable {t : Tables} {way : Traversal} {datasetId root : Int} {expected target : Package.State}
  {through first : Package → Bool} {s : Search} {j k n : Nat} {p q : Package}

/-- Packages in the order of their numbers have different ones. -/
theorem Ordered.keyed (ho : t.Ordered) : t.Keyed :=
  List.Pairwise.map Package.id (fun _ _ hlt => Int.ne_of_lt hlt) ho

/-! ## A round -/

/-- The children of different packages, in the order of their numbers, are the packages that have
one of them as their parent. -/
theorem Ordered.sorted_children (ho : t.Ordered) {frontier : List Int} (hnodup : frontier.Nodup)
    (first : Package → Bool) :
    ((frontier.flatMap t.childrenOf).filter first).mergeSort (fun p q => decide (p.id ≤ q.id)) =
      t.packages.filter fun p => p.parentId.any frontier.contains && first p := by
  have honce : (frontier.flatMap t.childrenOf).Nodup := by
    apply List.nodup_flatMap.2
    refine ⟨fun a _ => ho.keyed.nodup.filter _, hnodup.imp fun hne p hp hq => hne ?_⟩
    have hparent := beq_iff_eq.1 (List.mem_filter.1 hp).2
    have hparent' := beq_iff_eq.1 (List.mem_filter.1 hq).2
    exact Option.some.inj (hparent.symm.trans hparent')
  have hsame : ((frontier.flatMap t.childrenOf).filter first).Perm
      (t.packages.filter fun p => p.parentId.any frontier.contains && first p) := by
    apply (List.perm_ext_iff_of_nodup (honce.filter _) (ho.keyed.nodup.filter _)).2
    intro p
    simp only [List.mem_filter, List.mem_flatMap, childrenOf, beq_iff_eq, Bool.and_eq_true,
      Option.any_eq_true, List.contains_iff_mem]
    constructor
    · rintro ⟨⟨a, ha, hp, hparent⟩, hfirst⟩
      exact ⟨hp, ⟨a, hparent, ha⟩, hfirst⟩
    · rintro ⟨hp, ⟨a, hparent, ha⟩, hfirst⟩
      exact ⟨⟨a, ha, hp, hparent⟩, hfirst⟩
  have hperm := (List.mergeSort_perm ((frontier.flatMap t.childrenOf).filter first)
    fun p q => decide (p.id ≤ q.id)).trans hsame
  -- both sides are in the order of the numbers, and with different numbers there is one such list
  refine hperm.eq_of_pairwise ?_ (List.pairwise_mergeSort ?_ ?_ _) ?_
  · intro p q hp hq hpq hqp
    have hp := (List.mem_filter.1 (hperm.mem_iff.1 hp)).1
    have hq := (List.mem_filter.1 hq).1
    exact ho.keyed.eq_of_id hp hq (Int.le_antisymm (of_decide_eq_true hpq) (of_decide_eq_true hqp))
  · intro p q r hpq hqr
    exact decide_eq_true (Int.le_trans (of_decide_eq_true hpq) (of_decide_eq_true hqr))
  · intro p q
    simpa using Int.le_total p.id q.id
  · exact (ho.filter _).imp fun hlt => decide_eq_true (Int.le_of_lt hlt)

namespace Search

/-- A round goes through the packages under the frontier in the order of the rows. -/
theorem round_eq (ho : t.Ordered) (hs : s.frontier.Nodup) :
    s.round t way datasetId expected =
      let level := t.packages.filter fun p =>
        p.parentId.any s.frontier.contains && s.admits datasetId p
      ⟨s.found ++ level.filter fun p => p.state == expected,
        (level.filter (passes way expected)).map Package.id, false⟩ := by
  rw [round, ho.sorted_children hs]

/-- After a round each number comes up once. -/
theorem nodup_round (ho : t.Ordered) (hs : s.frontier.Nodup) :
    (s.round t way datasetId expected).frontier.Nodup := by
  rw [round_eq ho hs]
  exact ho.keyed.sublist ((List.filter_sublist.trans List.filter_sublist).map Package.id)

/-- Rounds find what a walk of as many rounds finds. -/
theorem found_iterate (ho : t.Ordered) (hs : s.frontier.Nodup) (n : Nat) :
    ((round t way datasetId expected)^[n] s).found = s.found ++
      t.below (fun p => p.state == expected) (passes way expected) n (s.admits datasetId)
        s.frontier := by
  induction n generalizing s with
  | zero => simp [below]
  | succ n ih =>
    rw [Function.iterate_succ_apply, ih (nodup_round ho hs), round_eq ho hs, below_succ]
    simp only [List.append_assoc]
    rfl

/-- After some rounds the packages that come next lie under those of the level reached. -/
theorem exists_level_of_mem_iterate (ho : t.Ordered) (hs : s.frontier.Nodup)
    (hlevel : ∀ p, p ∈ t.packages ∧
      (p.parentId.any s.frontier.contains && s.admits datasetId p) = true ↔
        Level t (passes way expected) first root j p) {id : Int}
    (h : id ∈ ((round t way datasetId expected)^[n + 1] s).frontier) :
    ∃ p, Level t (passes way expected) first root (j + n) p ∧ p.id = id := by
  induction n generalizing s j with
  | zero =>
    rw [Function.iterate_one, round_eq ho hs] at h
    obtain ⟨p, hp, hid⟩ := List.mem_map.1 h
    have hrow := List.mem_filter.1 (List.mem_filter.1 hp).1
    exact ⟨p, (hlevel p).1 hrow, hid⟩
  | succ n ih =>
    rw [Function.iterate_succ_apply] at h
    have hnext := ih (s := s.round t way datasetId expected) (j := j + 1) (nodup_round ho hs)
      (by rw [round_eq ho hs]; exact level_succ_iff hlevel) h
    rwa [Nat.add_right_comm] at hnext

end Search

/-- In a forest a search comes to its end. -/
theorem Treelike.frontier_iterate_eq_nil (ht : t.Treelike) (ho : t.Ordered) :
    ((Search.round t way datasetId expected)^[t.depth] (.start root)).frontier = [] := by
  apply List.eq_nil_iff_forall_not_mem.2
  intro id hid
  obtain ⟨p, hp, -⟩ := Search.exists_level_of_mem_iterate ho (List.nodup_singleton root)
    (level_zero_iff t (passes way expected) (fun p => p.datasetId == datasetId) root) hid
  have hlt := ht.level_lt hp
  omega

/-! ## A move of descendants -/

/-- What a move of the descendants of a package does to tables, when it returns `moved` and leaves
`t'`. -/
structure MovesExactly (t : Tables) (way : Traversal) (datasetId root : Int)
    (expected target : Package.State) (moved : List Package) (t' : Tables) : Prop where
  /-- A search that has come to its end has found what is returned, which is in the new state. -/
  searched : ∃ rounds s, (Search.round t way datasetId expected)^[rounds] (.start root) = s ∧
    s.frontier = [] ∧ moved = s.found.map (·.moveTo target)
  /-- The packages that the move covers are returned, and no others. -/
  covered : ∀ q, q ∈ moved ↔ ∃ p, t.Covers way datasetId root expected p ∧ q = p.moveTo target
  once : (moved.map Package.id).Nodup
  /-- They are returned in the order of their depths, and those at one depth in the order of their
  numbers. -/
  sorted : moved.Pairwise fun p q => ∀ i k, t.AtDepth root i p.id → t.AtDepth root k q.id →
    i < k ∨ i = k ∧ p.id < q.id
  parentsFirst : moved.Pairwise fun p q => p.parentId ≠ some q.id
  /-- No other row changes, and of a row nothing but its state and update time. -/
  rows : t.Evolves (fun p q => (t.Covers way datasetId root expected p → q = p.moveTo target) ∧
    (¬ t.Covers way datasetId root expected p → q = p)) t'

/-- In a forest whose packages are in order a move of descendants does exactly that. -/
theorem Treelike.movesExactly (ht : t.Treelike) (ho : t.Ordered) :
    t.MovesExactly way datasetId root expected target
      (t.moveDescendants way datasetId root expected target).1
      (t.moveDescendants way datasetId root expected target).2 := by
  have hids : ((t.descendants way datasetId root expected).map (·.moveTo target)).map Package.id =
      (t.descendants way datasetId root expected).map Package.id := by
    rw [List.map_map]
    rfl
  have hmem : ∀ p, p ∈ t.descendants way datasetId root expected ↔
      t.Covers way datasetId root expected p := fun p => ht.mem_descendants_iff
  unfold moveDescendants
  constructor
  case searched =>
    refine ⟨t.depth, _, rfl, ht.frontier_iterate_eq_nil ho, ?_⟩
    rw [Search.found_iterate ho (List.nodup_singleton root)]
    rfl
  case covered =>
    intro q
    simp only [List.mem_map, hmem, eq_comm]
  case once =>
    rw [hids]
    refine ht.nodup_descendants.map_on fun p hp q hq hid => ?_
    exact ht.keyed.eq_of_id (mem_of_mem_descendants hp) (mem_of_mem_descendants hq) hid
  case sorted =>
    refine List.pairwise_map.2 ((pairwise_level_descendants ho).imp fun hgiven i k hi hk => ?_)
    obtain ⟨i', k', hi', hk', hlt⟩ := hgiven
    obtain rfl := ht.atDepth_unique hi'.atDepth hi
    obtain rfl := ht.atDepth_unique hk'.atDepth hk
    rcases hlt with hless | ⟨rfl, hless⟩
    · exact .inl (Nat.succ_lt_succ hless)
    · exact .inr ⟨rfl, hless⟩
  case parentsFirst =>
    apply List.pairwise_map.2
    refine ht.pairwise_descendants.imp_of_mem fun {p q} hp _ hnot hparent => ?_
    exact hnot (TransGen.single ⟨p, mem_of_mem_descendants hp, rfl, hparent⟩)
  case rows =>
    refine (evolves_change _ _ _).imp fun p hp q hq => ?_
    have hcovered : ((t.descendants way datasetId root expected).map Package.id).contains p.id =
        true ↔ t.Covers way datasetId root expected p := by
      rw [List.contains_iff_mem, List.mem_map, ← hmem]
      constructor
      · rintro ⟨r, hr, hid⟩
        rwa [← ht.keyed.eq_of_id (mem_of_mem_descendants hr) hp hid]
      · exact fun h => ⟨p, h, rfl⟩
    rw [hq, ← hcovered]
    exact ⟨fun h => if_pos h, fun h => if_neg h⟩

end Salvage.Tables

namespace Salvage.Transaction

/-- A move of descendants in a forest comes to its end and is done. It moves and returns exactly the
packages below the root that are in the expected state and that a path of packages to go through
leads to, those further up first and those at one depth in the order of their numbers; nothing else
changes. -/
theorem moveDescendants_exact {tx : Transaction} (ho : tx.working.Ordered)
    (hacyclic : ∀ id, ¬ tx.working.IsAncestor id id) (datasetId root : Int)
    (expected target : Package.State) :
    ∃ moved t', moveDescendants datasetId root expected target tx =
        (.done moved, { tx with working := t' }) ∧
      tx.working.MovesExactly tx.way datasetId root expected target moved t' :=
  ⟨_, _, moveDescendants_eq_done.2 ⟨rfl, rfl⟩, Tables.Treelike.movesExactly ⟨ho.keyed, hacyclic⟩ ho⟩

/-- A folder with a live folder and two trashed files, the second of which belongs to another
dataset. In the live folder there is a trashed file, too. -/
def grove : Transaction where
  org := 1
  way := .entireSubtree
  working := { Tables.empty with
    packages := [⟨1, "f", .collection, .ready, "f", none, 1, 1, none, false⟩,
      ⟨2, "g", .collection, .ready, "g", some 1, 1, 1, none, false⟩,
      ⟨3, "__DELETED__a_a", .text, .deleted, "a", some 2, 1, 1, none, false⟩,
      ⟨4, "__DELETED__b_b", .text, .deleted, "b", some 1, 1, 1, none, false⟩,
      ⟨5, "__DELETED__c_c", .text, .deleted, "c", some 1, 2, 1, none, false⟩] }
  savepoints := []

/-- The rows below the folder are in order and form a forest, so a move finds what it has to. -/
theorem moveDescendants_exact_grove :
    grove.working.Ordered ∧ grove.working.Forest ∧
      ∃ moved t', moveDescendants 1 1 .deleted .restoring grove =
          (.done moved, { grove with working := t' }) ∧
        grove.working.MovesExactly .entireSubtree 1 1 .deleted .restoring moved t' := by
  have ho : grove.working.Ordered := by decide
  have hf : grove.working.Forest := Tables.forest_of_lt (by decide) (by decide) (by decide)
  exact ⟨ho, hf, moveDescendants_exact ho hf.acyclic 1 1 .deleted .restoring⟩

/-- The trashed file in the folder itself moves first, and the one in the live folder after it. -/
example : ((grove.working.descendants grove.way 1 1 .deleted).map Package.id) = [4, 3] := by
  decide

end Salvage.Transaction
