import Salvage.Proofs.Tables.Forest

/-!
# Walking down

The walk below a package visits one level after another. Level by level it finds the packages that a
path of packages to go through leads to; in a forest it finds each of them once, none before one
above it, and its rounds suffice for all of them. `mem_descendants_iff` says which packages a move of
descendants takes along, without the walk.
-/

namespace Salvage.Tables

open Relation (TransGen ReflTransGen)

/-- A package that moves when the descendants of `root` do that are in the expected state.

It lies somewhere below `root`. The package above it that lies directly below `root` is in the
dataset, and no package between them keeps the walk from coming down. -/
structure Covers (t : Tables) (way : Traversal) (datasetId root : Int) (expected : Package.State)
    (p : Package) : Prop where
  mem : p ∈ t.packages
  state : p.state = expected
  below : t.IsAncestor root p.id
  dataset : ∀ q ∈ t.packages, q.parentId = some root → ReflTransGen t.IsParent q.id p.id →
    q.datasetId = datasetId
  between : way = .bounded → ∀ q ∈ t.packages, t.IsAncestor root q.id → t.IsAncestor q.id p.id →
    q.state = expected

/-- The packages of a level below `root`: those directly below it have to satisfy `first`, and
those further below lie under one to go through. -/
inductive Level (t : Tables) (through first : Package → Bool) (root : Int) : Nat → Package → Prop
  | top {p : Package} : p ∈ t.packages → p.parentId = some root → first p →
      Level t through first root 0 p
  | next {k : Nat} {p q : Package} : Level t through first root k q → through q →
      p ∈ t.packages → p.parentId = some q.id → Level t through first root (k + 1) p

/-- How many steps a package is below another one. -/
inductive AtDepth (t : Tables) (root : Int) : Nat → Int → Prop
  | root : AtDepth t root 0 root
  | child {k : Nat} {a b : Int} : AtDepth t root k a → t.IsParent a b → AtDepth t root (k + 1) b

variable {t : Tables} {wanted through first : Package → Bool} {root : Int} {j k n : Nat}
  {p q : Package}

/-- A package of a level is a row. -/
theorem Level.mem (h : Level t through first root k p) : p ∈ t.packages := by
  cases h with
  | top hp => exact hp
  | next _ _ hp => exact hp

/-- A package of a level lies below the root. -/
theorem Level.isAncestor (h : Level t through first root k p) : t.IsAncestor root p.id := by
  induction h with
  | top hp hparent => exact TransGen.single ⟨_, hp, rfl, hparent⟩
  | next _ _ hp hparent ih => exact TransGen.tail ih ⟨_, hp, rfl, hparent⟩

/-- The first level is one step below the root. -/
theorem Level.atDepth (h : Level t through first root k p) : t.AtDepth root (k + 1) p.id := by
  induction h with
  | top hp hparent _ => exact .child .root ⟨_, hp, rfl, hparent⟩
  | next _ _ hp hparent ih => exact .child ih ⟨_, hp, rfl, hparent⟩

/-! ## Levels in a forest -/

namespace Treelike

variable (ht : t.Treelike)
include ht

/-- In a forest a package is at one depth only. -/
theorem atDepth_unique {a : Int} (h : t.AtDepth root j a)
    (h' : t.AtDepth root k a) : j = k := by
  have hbelow {i : Nat} {b : Int} (hb : t.AtDepth root i b) : ReflTransGen t.IsParent root b := by
    induction hb with
    | root => exact .refl
    | child _ hstep ih => exact ih.tail hstep
  induction h generalizing k with
  | root =>
    cases h' with
    | root => rfl
    | child hup hstep => exact absurd (TransGen.tail' (hbelow hup) hstep) (ht.acyclic _)
  | child hup hstep ih =>
    cases h' with
    | root => exact absurd (TransGen.tail' (hbelow hup) hstep) (ht.acyclic _)
    | child hup' hstep' =>
      obtain ⟨p, hp, rfl, hparent⟩ := hstep
      rw [(ht.keyed.isParent_iff hp).1 hstep'] at hparent
      obtain rfl := Option.some.inj hparent
      rw [ih hup']

/-- A package is on one level only. -/
theorem level_unique (h : Level t through first root j p) (h' : Level t through first root k p) :
    j = k :=
  Nat.succ.inj (ht.atDepth_unique h.atDepth h'.atDepth)

/-- Of two packages on levels the one above the other is on an earlier level. -/
theorem level_lt_of_isAncestor (hq : Level t through first root j q)
    (hp : Level t through first root k p) (habove : t.IsAncestor q.id p.id) : j < k := by
  induction hp with
  | top hp hparent =>
    obtain ⟨b, hb, hup⟩ := (ht.keyed.isAncestor_iff hp).1 habove
    obtain rfl := Option.some.inj (hparent.symm.trans hb)
    exact absurd hup (ht.not_reflTransGen hq.isAncestor)
  | next hr _ hp hparent ih =>
    obtain ⟨b, hb, hup⟩ := (ht.keyed.isAncestor_iff hp).1 habove
    obtain rfl := Option.some.inj (hparent.symm.trans hb)
    rcases Relation.reflTransGen_iff_eq_or_transGen.1 hup with heq | hstrict
    · obtain rfl := ht.keyed.eq_of_id hr.mem hq.mem heq
      rw [ht.level_unique hq hr]
      exact Nat.lt_succ_self _
    · exact Nat.lt_succ_of_lt (ih hstrict)

/-- Above a package of a level lie as many packages as there are levels above it. -/
theorem exists_path_of_level (h : Level t through first root k p) :
    ∃ path : List Int, path.Nodup ∧ path.length = k + 1 ∧ path ⊆ t.packages.map Package.id ∧
      ∀ a ∈ path, ReflTransGen t.IsParent a p.id := by
  induction h with
  | @top p hp =>
    refine ⟨[p.id], List.nodup_singleton _, rfl, ?_, ?_⟩
    · simpa using List.mem_map_of_mem hp
    · intro a ha
      rw [List.mem_singleton.1 ha]
  | @next k p q hq _ hp hparent ih =>
    obtain ⟨path, hnodup, hlength, hsub, hpath⟩ := ih
    have hstep : t.IsParent q.id p.id := ⟨p, hp, rfl, hparent⟩
    refine ⟨p.id :: path, List.nodup_cons.2 ⟨?_, hnodup⟩, by rw [List.length_cons, hlength], ?_, ?_⟩
    · exact fun hmem => ht.acyclic p.id (TransGen.tail' (hpath _ hmem) hstep)
    · exact List.cons_subset.2 ⟨List.mem_map_of_mem hp, hsub⟩
    · intro a ha
      rcases List.mem_cons.1 ha with rfl | hrest
      · exact .refl
      · exact (hpath a hrest).tail hstep

/-- There are fewer levels than packages. -/
theorem level_lt (h : Level t through first root k p) : k < t.packages.length := by
  obtain ⟨path, hnodup, hlength, hsub, -⟩ := ht.exists_path_of_level h
  have hle := List.Nodup.length_le_of_subset hnodup hsub
  rw [List.length_map] at hle
  omega

end Treelike

/-! ## The walk -/

/-- Below no package there is none. -/
theorem below_nil (first : Package → Bool) (n : Nat) : t.below wanted through n first [] = [] := by
  have hnone (o : Option Int) : o.any ([] : List Int).contains = false := by cases o <;> rfl
  cases n with
  | zero => rfl
  | succ n => simp [below, hnone]

/-- A walk takes what is wanted from its first level and goes on from there. -/
theorem below_succ (first : Package → Bool) (n : Nat) (frontier : List Int) :
    t.below wanted through (n + 1) first frontier =
      let level := t.packages.filter fun p => p.parentId.any frontier.contains && first p
      level.filter wanted ++
        t.below wanted through n (fun _ => true) ((level.filter through).map Package.id) := by
  rw [below]
  split
  · rename_i hnone
    dsimp only
    rw [List.isEmpty_iff.1 hnone, List.map_nil, below_nil, List.append_nil]
  · rfl

/-- A walk finds rows only, and those that are wanted. -/
theorem wanted_of_mem_below {frontier : List Int} {here : Package → Bool}
    (h : p ∈ t.below wanted through n here frontier) : p ∈ t.packages ∧ wanted p := by
  induction n generalizing frontier here with
  | zero => simp [below] at h
  | succ n ih =>
    rw [below_succ, List.mem_append] at h
    rcases h with hlevel | hrest
    · obtain ⟨hrow, hwanted⟩ := List.mem_filter.1 hlevel
      exact ⟨(List.mem_filter.1 hrow).1, hwanted⟩
    · exact ih hrest

/-- The packages under those to go through form the next level. -/
theorem level_succ_iff {frontier : List Int} {here : Package → Bool}
    (hlevel : ∀ p, p ∈ t.packages ∧ (p.parentId.any frontier.contains && here p) = true ↔
      Level t through first root j p) (p : Package) :
    p ∈ t.packages ∧ (p.parentId.any (((t.packages.filter fun p =>
        p.parentId.any frontier.contains && here p).filter through).map Package.id).contains &&
        true) = true ↔ Level t through first root (j + 1) p := by
  simp only [Bool.and_true, Option.any_eq_true, List.contains_iff_mem, List.mem_map,
    List.mem_filter, hlevel]
  constructor
  · intro hgiven
    obtain ⟨hp, _, hparent, q, ⟨hq, hthrough⟩, rfl⟩ := hgiven
    exact .next hq hthrough hp hparent
  · intro h
    cases h with
    | next hq hthrough hp hparent => exact ⟨hp, _, hparent, _, ⟨hq, hthrough⟩, rfl⟩

/-- A walk that starts with a level finds what is wanted on it and on the levels that follow. -/
theorem mem_below_iff {frontier : List Int} {here : Package → Bool}
    (hlevel : ∀ p, p ∈ t.packages ∧ (p.parentId.any frontier.contains && here p) = true ↔
      Level t through first root j p) :
    p ∈ t.below wanted through n here frontier ↔
      wanted p ∧ ∃ k < n, Level t through first root (j + k) p := by
  induction n generalizing j frontier here with
  | zero => simp [below]
  | succ n ih =>
    rw [below_succ, List.mem_append, ih (level_succ_iff hlevel), List.mem_filter, List.mem_filter,
      hlevel]
    constructor
    · intro hgiven
      rcases hgiven with ⟨h, hwanted⟩ | ⟨hwanted, k, hk, h⟩
      · exact ⟨hwanted, 0, Nat.succ_pos n, h⟩
      · exact ⟨hwanted, k + 1, by omega, by rwa [Nat.add_right_comm] at h⟩
    · intro hgiven
      obtain ⟨hwanted, k, hk, h⟩ := hgiven
      cases k with
      | zero => exact .inl ⟨h, hwanted⟩
      | succ k => exact .inr ⟨hwanted, k, by omega, by rwa [Nat.add_right_comm]⟩

/-- A walk finds the packages of one level in the order of the rows, and all of them before those of
the levels that follow. -/
theorem pairwise_below {R : Package → Package → Prop} (hrows : t.packages.Pairwise R)
    {frontier : List Int} {here : Package → Bool}
    (hlevel : ∀ p, p ∈ t.packages ∧ (p.parentId.any frontier.contains && here p) = true ↔
      Level t through first root j p) :
    (t.below wanted through n here frontier).Pairwise fun p q => ∃ i k,
      Level t through first root i p ∧ Level t through first root k q ∧ (i < k ∨ i = k ∧ R p q) := by
  induction n generalizing j frontier here with
  | zero => exact .nil
  | succ n ih =>
    rw [below_succ]
    have honLevel {p : Package} (hp : p ∈ (t.packages.filter fun p =>
        p.parentId.any frontier.contains && here p).filter wanted) :
        Level t through first root j p :=
      (hlevel p).1 (List.mem_filter.1 (List.mem_filter.1 hp).1)
    refine List.pairwise_append.2 ⟨?_, ih (level_succ_iff hlevel), ?_⟩
    · refine ((hrows.filter _).filter _).imp_of_mem fun hp hq hR => ?_
      exact ⟨j, j, honLevel hp, honLevel hq, .inr ⟨rfl, hR⟩⟩
    · intro p hp q hq
      obtain ⟨-, k, -, hk⟩ := (mem_below_iff (level_succ_iff hlevel)).1 hq
      exact ⟨j, j + 1 + k, honLevel hp, hk, .inl (by omega)⟩

/-- Descendants that are to move are rows. -/
theorem mem_of_mem_descendants {way : Traversal} {datasetId : Int} {expected : Package.State}
    (h : p ∈ t.descendants way datasetId root expected) : p ∈ t.packages :=
  (wanted_of_mem_below h).1

/-- Descendants that are to move are in the expected state. -/
theorem state_of_mem_descendants {way : Traversal} {datasetId : Int} {expected : Package.State}
    (h : p ∈ t.descendants way datasetId root expected) : p.state = expected :=
  beq_iff_eq.1 (wanted_of_mem_below h).2

/-! ## What a move of descendants takes along -/

/-- A move of descendants goes on below a package. -/
def passes (way : Traversal) (expected : Package.State) (p : Package) : Bool :=
  way == .entireSubtree || p.state == expected

variable {way : Traversal} {datasetId : Int} {expected : Package.State}

namespace Treelike

variable (ht : t.Treelike)
include ht

/-- The package directly below the root from which a level is reached satisfies the condition of the
first level. -/
theorem first_of_level (h : Level t through first root k p) (hq : q ∈ t.packages)
    (hparent : q.parentId = some root) (hpath : ReflTransGen t.IsParent q.id p.id) : first q := by
  have hbelow : t.IsAncestor root q.id := TransGen.single ⟨q, hq, rfl, hparent⟩
  induction h with
  | top hp hproot hfirst =>
    rcases Relation.reflTransGen_iff_eq_or_transGen.1 hpath with heq | hstrict
    · obtain rfl := ht.keyed.eq_of_id hp hq heq
      exact hfirst
    · obtain ⟨b, hb, hup⟩ := (ht.keyed.isAncestor_iff hp).1 hstrict
      obtain rfl := Option.some.inj (hproot.symm.trans hb)
      exact absurd hup (ht.not_reflTransGen hbelow)
  | next hlevel _ hp hpq ih =>
    rcases Relation.reflTransGen_iff_eq_or_transGen.1 hpath with heq | hstrict
    · obtain rfl := ht.keyed.eq_of_id hp hq heq
      obtain rfl := Option.some.inj (hpq.symm.trans hparent)
      exact absurd hlevel.isAncestor (ht.acyclic _)
    · obtain ⟨b, hb, hup⟩ := (ht.keyed.isAncestor_iff hp).1 hstrict
      obtain rfl := Option.some.inj (hpq.symm.trans hb)
      exact ih hup

/-- A walk goes through all packages between the root and a package of a level. -/
theorem through_of_level (h : Level t through first root k p) (hq : q ∈ t.packages)
    (hroot : t.IsAncestor root q.id) (hbelow : t.IsAncestor q.id p.id) : through q := by
  induction h with
  | top hp hproot =>
    obtain ⟨b, hb, hup⟩ := (ht.keyed.isAncestor_iff hp).1 hbelow
    obtain rfl := Option.some.inj (hproot.symm.trans hb)
    exact absurd hup (ht.not_reflTransGen hroot)
  | next hlevel hthrough hp hpq ih =>
    obtain ⟨b, hb, hup⟩ := (ht.keyed.isAncestor_iff hp).1 hbelow
    obtain rfl := Option.some.inj (hpq.symm.trans hb)
    rcases Relation.reflTransGen_iff_eq_or_transGen.1 hup with heq | hstrict
    · obtain rfl := ht.keyed.eq_of_id hlevel.mem hq heq
      exact hthrough
    · exact ih hstrict

/-- A package below the root is on some level if nothing above it stands in the way. -/
theorem exists_level (hp : p ∈ t.packages) (hroot : t.IsAncestor root p.id)
    (hfirst : ∀ q ∈ t.packages, q.parentId = some root →
      ReflTransGen t.IsParent q.id p.id → first q)
    (hthrough : ∀ q ∈ t.packages, t.IsAncestor root q.id → t.IsAncestor q.id p.id → through q) :
    ∃ k, Level t through first root k p := by
  generalize hid : p.id = b at hroot
  induction hroot generalizing p with
  | single hstep =>
    subst hid
    have hparent := (ht.keyed.isParent_iff hp).1 hstep
    exact ⟨0, .top hp hparent (hfirst p hp hparent .refl)⟩
  | tail habove hstep ih =>
    subst hid
    have hparent := (ht.keyed.isParent_iff hp).1 hstep
    obtain ⟨q, hq, rfl⟩ := exists_row_of_isAncestor habove
    obtain ⟨k, hk⟩ := ih hq
      (fun r hr hrroot hpath => hfirst r hr hrroot (hpath.tail hstep))
      (fun r hr hrroot hpath => hthrough r hr hrroot (hpath.tail hstep)) rfl
    exact ⟨k + 1, .next hk (hthrough q hq habove (TransGen.single hstep)) hp hparent⟩

/-- A package moves exactly when it is in the expected state and on a level of the walk. -/
theorem covers_iff_level : t.Covers way datasetId root expected p ↔ p.state = expected ∧
    ∃ k, Level t (passes way expected) (fun p => p.datasetId == datasetId) root k p := by
  constructor
  · intro h
    refine ⟨h.state, ht.exists_level h.mem h.below ?_ ?_⟩
    · intro q hq hparent hpath
      exact beq_iff_eq.2 (h.dataset q hq hparent hpath)
    · intro q hq hroot hbelow
      cases way with
      | bounded => simpa [passes] using h.between rfl q hq hroot hbelow
      | entireSubtree => rfl
  · intro hgiven
    obtain ⟨hstate, k, hk⟩ := hgiven
    refine ⟨hk.mem, hstate, hk.isAncestor, ?_, ?_⟩
    · intro q hq hparent hpath
      exact beq_iff_eq.1 (ht.first_of_level hk hq hparent hpath)
    · rintro rfl q hq hroot hbelow
      simpa [passes] using ht.through_of_level hk hq hroot hbelow

end Treelike

/-- The packages directly below the root form the first level of the walk. -/
theorem level_zero_iff (t : Tables) (through first : Package → Bool) (root : Int) (p : Package) :
    p ∈ t.packages ∧ (p.parentId.any [root].contains && first p) = true ↔
      Level t through first root 0 p := by
  rw [Bool.and_eq_true, Option.any_eq_true]
  constructor
  · intro hgiven
    obtain ⟨hp, ⟨a, hparent, ha⟩, hfirst⟩ := hgiven
    obtain rfl : a = root := by simpa using ha
    exact .top hp hparent hfirst
  · intro hgiven
    obtain ⟨hp, hparent, hfirst⟩ := hgiven
    exact ⟨hp, ⟨root, hparent, by simp⟩, hfirst⟩

/-- In a forest exactly the packages that a move covers are descendants that are to move. -/
theorem Treelike.mem_descendants_iff (ht : t.Treelike) :
    p ∈ t.descendants way datasetId root expected ↔ t.Covers way datasetId root expected p := by
  rw [ht.covers_iff_level, descendants]
  apply (mem_below_iff (level_zero_iff t (passes way expected) _ root)).trans
  rw [beq_iff_eq]
  refine and_congr_right fun _ => ⟨?_, ?_⟩
  · intro hgiven
    obtain ⟨k, -, hk⟩ := hgiven
    exact ⟨0 + k, hk⟩
  · intro hgiven
    obtain ⟨k, hk⟩ := hgiven
    -- the rounds of the walk suffice, since a way up has at most as many rows as there are
    have hlt := ht.level_lt hk
    exact ⟨k, by rw [depth]; omega, by rwa [Nat.zero_add]⟩

/-- The descendants that are to move are found level by level, those of one level in the order of the
rows. -/
theorem pairwise_level_descendants {R : Package → Package → Prop} (hrows : t.packages.Pairwise R) :
    (t.descendants way datasetId root expected).Pairwise fun p q => ∃ i k,
      Level t (passes way expected) (fun p => p.datasetId == datasetId) root i p ∧
      Level t (passes way expected) (fun p => p.datasetId == datasetId) root k q ∧
      (i < k ∨ i = k ∧ R p q) :=
  pairwise_below hrows (level_zero_iff t (passes way expected) _ root)

/-- In a forest each of the descendants that are to move is found once. -/
theorem Treelike.nodup_descendants (ht : t.Treelike) :
    (t.descendants way datasetId root expected).Nodup := by
  refine (pairwise_level_descendants ht.keyed.nodup).imp fun hgiven => ?_
  obtain ⟨i, k, hi, hk, hlt | ⟨-, hne⟩⟩ := hgiven
  · rintro rfl
    exact Nat.ne_of_lt hlt (ht.level_unique hi hk)
  · exact hne

/-- In a forest no descendant that is to move comes before one above it. -/
theorem Treelike.pairwise_descendants (ht : t.Treelike) :
    (t.descendants way datasetId root expected).Pairwise fun p q => ¬ t.IsAncestor q.id p.id := by
  refine (pairwise_level_descendants ht.keyed.nodup).imp fun hgiven habove => ?_
  obtain ⟨i, k, hi, hk, hle⟩ := hgiven
  have hlt := ht.level_lt_of_isAncestor hk hi habove
  omega

/-- In a forest the packages that a move covers say which descendants are to move and in which
order, however the walk finds them. -/
theorem Treelike.descendants_congr (ht : t.Treelike) {way' : Traversal}
    (h : ∀ p, t.Covers way datasetId root expected p ↔ t.Covers way' datasetId root expected p) :
    t.descendants way datasetId root expected = t.descendants way' datasetId root expected := by
  have hrows : t.packages.Pairwise fun p q => t.packages.idxOf p < t.packages.idxOf q := by
    apply List.pairwise_iff_getElem.2
    intro i k hi hk hlt
    rwa [ht.keyed.nodup.idxOf_getElem, ht.keyed.nodup.idxOf_getElem]
  -- each walk goes by depth and then by row, and that leaves one order for the same packages
  have hsorted (way : Traversal) : (t.descendants way datasetId root expected).Pairwise fun p q =>
      ∃ i k, t.AtDepth root i p.id ∧ t.AtDepth root k q.id ∧
        (i < k ∨ i = k ∧ t.packages.idxOf p < t.packages.idxOf q) := by
    refine (pairwise_level_descendants hrows).imp fun hgiven => ?_
    obtain ⟨i, k, hi, hk, hlt⟩ := hgiven
    exact ⟨i + 1, k + 1, hi.atDepth, hk.atDepth, by omega⟩
  have hperm : (t.descendants way datasetId root expected).Perm
      (t.descendants way' datasetId root expected) := by
    apply (List.perm_ext_iff_of_nodup ht.nodup_descendants ht.nodup_descendants).2
    intro p
    rw [ht.mem_descendants_iff, ht.mem_descendants_iff, h]
  refine hperm.eq_of_pairwise ?_ (hsorted way) (hsorted way')
  intro p q _ _ hpq hqp
  obtain ⟨i, k, hi, hk, hlt⟩ := hpq
  obtain ⟨k', i', hk', hi', hgt⟩ := hqp
  have hsame := ht.atDepth_unique hi hi'
  have hsame' := ht.atDepth_unique hk hk'
  omega

namespace Forest

variable (hf : t.Forest)
include hf

/-- In a forest exactly the packages that a move covers are descendants that are to move. -/
theorem mem_descendants_iff :
    p ∈ t.descendants way datasetId root expected ↔ t.Covers way datasetId root expected p :=
  hf.treelike.mem_descendants_iff

/-- In a forest each of the descendants that are to move is found once. -/
theorem nodup_descendants : (t.descendants way datasetId root expected).Nodup :=
  hf.treelike.nodup_descendants

/-- In a forest no descendant that is to move comes before one above it. -/
theorem pairwise_descendants :
    (t.descendants way datasetId root expected).Pairwise fun p q => ¬ t.IsAncestor q.id p.id :=
  hf.treelike.pairwise_descendants

end Forest

/-! ## Walks in changed tables -/

/-- Packages that go through a change unseen by a condition are selected before or after it. -/
theorem filter_map_of_mem {g : Package → Package} {c : Package → Bool} {ps : List Package}
    (h : ∀ p ∈ ps, c (g p) = c p) : (ps.map g).filter c = (ps.filter c).map g := by
  rw [List.filter_map]
  exact congrArg _ (List.filter_congr h)

/-- A change that no condition of a walk can see and that leaves alone what is wanted does not
change what the walk finds. -/
theorem below_map {t' : Tables} {g : Package → Package} (ht : t'.packages = t.packages.map g)
    (hid : ∀ p ∈ t.packages, (g p).id = p.id)
    (hparent : ∀ p ∈ t.packages, (g p).parentId = p.parentId)
    (hthrough : ∀ p ∈ t.packages, through (g p) = through p)
    (hwanted : ∀ p ∈ t.packages, wanted (g p) = wanted p)
    (hsame : ∀ p ∈ t.packages, wanted p → g p = p) (n : Nat) (here : Package → Bool)
    (hhere : ∀ p ∈ t.packages, here (g p) = here p) (frontier : List Int) :
    t'.below wanted through n here frontier = t.below wanted through n here frontier := by
  induction n generalizing frontier here with
  | zero => rfl
  | succ n ih =>
    have hlevel : (t'.packages.filter fun p => p.parentId.any frontier.contains && here p) =
        (t.packages.filter fun p => p.parentId.any frontier.contains && here p).map g := by
      rw [ht]
      exact filter_map_of_mem fun p hp => by rw [hparent p hp, hhere p hp]
    rw [below_succ, below_succ, hlevel]
    have hrows {p : Package} (hp : p ∈ t.packages.filter fun p =>
        p.parentId.any frontier.contains && here p) : p ∈ t.packages := (List.mem_filter.1 hp).1
    generalize (t.packages.filter fun p => p.parentId.any frontier.contains && here p) = level
      at hrows
    dsimp only
    have htaken : (level.map g).filter wanted = level.filter wanted := by
      rw [filter_map_of_mem fun p hp => hwanted p (hrows hp)]
      calc (level.filter wanted).map g
        _ = (level.filter wanted).map id := by
          refine List.map_congr_left fun p hp => ?_
          exact hsame p (hrows (List.mem_filter.1 hp).1) (List.mem_filter.1 hp).2
        _ = level.filter wanted := List.map_id _
    have hnext : ((level.map g).filter through).map Package.id =
        (level.filter through).map Package.id := by
      rw [filter_map_of_mem fun p hp => hthrough p (hrows hp), List.map_map]
      exact List.map_congr_left fun p hp => hid p (hrows (List.mem_filter.1 hp).1)
    rw [htaken, hnext, ih (fun _ => true) fun _ _ => rfl]

/-- Touching a package that is not in the expected state changes no descendants that are to move. -/
theorem descendants_changeId_moveTo {target : Package.State} (hne : target ≠ expected) {id : Int}
    (hstate : ∀ p ∈ t.packages, p.id = id → p.state = target) :
    (t.changeId id (·.moveTo target)).descendants way datasetId root expected =
      t.descendants way datasetId root expected := by
  have hkept : ∀ p ∈ t.packages, (if p.id == id then p.moveTo target else p).state = p.state := by
    intro p hp
    split
    · rename_i hid
      exact (hstate p hp (beq_iff_eq.1 hid)).symm
    · rfl
  have hdepth : (t.changeId id (·.moveTo target)).depth = t.depth := by
    simp [depth, changeId, change]
  rw [descendants, descendants, hdepth]
  apply below_map (g := fun p => if p.id == id then p.moveTo target else p) rfl
  · intro p _
    split <;> rfl
  · intro p _
    split <;> rfl
  · intro p hp
    dsimp only
    rw [hkept p hp]
  · intro p hp
    rw [hkept p hp]
  · intro p hp hwanted
    rw [if_neg]
    intro hid
    rw [hstate p hp (beq_iff_eq.1 hid)] at hwanted
    exact hne (beq_iff_eq.1 hwanted)
  · intro p _
    split <;> rfl

end Salvage.Tables
