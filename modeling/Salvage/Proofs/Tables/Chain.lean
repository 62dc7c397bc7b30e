import Salvage.Proofs.Transaction

/-!
# Chains of collections

A move upwards takes one collection after another to the new state and goes on to its parent. It has no
bound on rounds, and it keeps no list of where it has been, while parent links may lead in a circle.
What ends it is that a collection that has been moved is no longer in the expected state. So it goes as
far as it can without coming back, over the rows as they were before the first round, and
`moveAncestors_exact` says that this is all it does. Without its bound it would find the same.
-/

namespace Salvage

/-- The package is a collection in a state. -/
def Package.isCollectionIn (state : Package.State) (p : Package) : Bool :=
  p.kind.isCollection && p.state == state

namespace Tables

/-- From a number, parent links lead through the packages of a list, which are collections in the
expected state. -/
inductive Leads (t : Tables) (expected : Package.State) : Option Int → List Package → Prop
  | nil {start : Option Int} : Leads t expected start []
  | cons {id : Int} {p : Package} {ps : List Package} : t.package? id = some p →
      p.isCollectionIn expected → Leads t expected p.parentId ps → Leads t expected (some id) (p :: ps)

/-- A walk upwards. -/
structure Walk where
  /-- The number of the package that comes next, if there is one. -/
  next : Option Int
  /-- The packages that have been moved, in the order of the rounds. -/
  moved : List Package
  tables : Tables

namespace Walk

/-- One round of a walk moves the package that comes next, if that is a collection in the expected
state. -/
def round (expected target : Package.State) (w : Walk) : Option Walk :=
  match w.next.bind w.tables.package? with
  | none => none
  | some p =>
    if p.isCollectionIn expected then
      some ⟨p.parentId, w.moved ++ [setState target p], w.tables.changeId p.id (setState target)⟩
    else none

/-- Round by round a walk comes to its end. -/
inductive EndsAt (expected target : Package.State) : Walk → Walk → Prop
  | over {w : Walk} : w.round expected target = none → EndsAt expected target w w
  | on {w w' w'' : Walk} : w.round expected target = some w' → EndsAt expected target w' w'' →
      EndsAt expected target w w''

end Walk

/-- What a move upwards from a number does to tables, when it returns `moved` and leaves `t'`. -/
structure MovesChain (t : Tables) (start : Int) (expected target : Package.State)
    (moved : List Package) (t' : Tables) : Prop where
  /-- A walk that nothing bounds comes to its end, and there it has moved what is returned. -/
  ends : ∃ next, Walk.EndsAt expected target ⟨some start, [], t⟩ ⟨next, moved, t'⟩
  /-- What is returned are the packages that parent links lead through, in the new state and as far as
  no number comes up again. Every other chain without repetition is a start of this one. -/
  longest : ∃ chain, t.Leads expected (some start) chain ∧ (chain.map Package.id).Nodup ∧
    (∀ other, t.Leads expected (some start) other → (other.map Package.id).Nodup → other <+: chain) ∧
    moved = chain.map (setState target)
  /-- The rows with their numbers move, and nothing else changes. -/
  rows : t.Evolves
    (fun p q => q = if p.id ∈ moved.map Package.id then setState target p else p) t'

variable {t : Tables} {expected target : Package.State} {seen : List Int} {start : Option Int} {n : Nat}
  {ps : List Package} {p : Package} {id : Int}

/-! ## Rows that have been moved -/

/-- The tables after the packages with some numbers have been moved. -/
def marked (t : Tables) (target : Package.State) (seen : List Int) : Tables :=
  t.change (fun p => seen.contains p.id) (setState target)

/-- Before the first round nothing has been moved. -/
theorem marked_nil (t : Tables) (target : Package.State) : t.marked target [] = t := by
  simp [marked, change]

/-- One more package is moved. -/
theorem marked_cons (t : Tables) (target : Package.State) (seen : List Int) (id : Int) :
    (t.marked target seen).changeId id (setState target) = t.marked target (id :: seen) := by
  rw [marked, marked, changeId_change (f := setState target) t _ id (fun _ => rfl) fun _ => rfl]
  refine change_congr fun p _ => ?_
  rw [List.contains_cons, Bool.or_comm]

/-- A number leads to the row that it led to before, which may have been moved. -/
theorem package?_marked (t : Tables) (target : Package.State) (seen : List Int) (id : Int) :
    (t.marked target seen).package? id =
      (t.package? id).map fun p => if seen.contains id then setState target p else p := by
  have hsame : ((fun p => p.id == id) ∘ fun p => if seen.contains p.id then setState target p else p) =
      fun p : Package => p.id == id := by
    funext p
    dsimp only [Function.comp]
    split <;> rfl
  rw [marked, change, package?, package?, List.find?_map, hsame]
  refine Option.map_congr fun p hp => ?_
  rw [show p.id = id by simpa using List.find?_some hp]

/-- A package that has been moved is no longer in the expected state, and any other is as it was. -/
theorem isCollectionIn_marked (hne : expected ≠ target) (seen : List Int) (id : Int) (p : Package) :
    (if seen.contains id then setState target p else p).isCollectionIn expected =
      (p.isCollectionIn expected && !seen.contains id) := by
  cases hseen : seen.contains id with
  | true =>
    have hmoved : (target == expected) = false := beq_false_of_ne hne.symm
    simp [Package.isCollectionIn, setState, hmoved]
  | false => simp

/-! ## A round -/

/-- A round after some packages have been moved finds the row as it was before, and moves it when it is
a collection in the expected state that has not been moved. -/
theorem round_marked (hne : expected ≠ target) (t : Tables) (moved : List Package) (seen : List Int)
    (hfound : t.package? id = some p) :
    Walk.round expected target ⟨some id, moved, t.marked target seen⟩ =
      if p.isCollectionIn expected && !seen.contains id then
        some ⟨p.parentId, moved ++ [setState target p], t.marked target (id :: seen)⟩
      else none := by
  obtain ⟨_, hid⟩ := mem_of_package? hfound
  have hfits := isCollectionIn_marked hne seen id p
  rw [Walk.round, Option.bind_some, package?_marked, hfound, ← hfits]
  cases hseen : seen.contains id with
  | true =>
    simp only [hseen, Bool.not_true, Bool.and_false, if_true] at hfits
    simp [hfits]
  | false =>
    simp only [Option.map_some, Bool.false_eq_true, if_false, hid, marked_cons]

/-- Without a row for the number that comes next there is no round. -/
theorem round_marked_of_none (t : Tables) (moved : List Package) (seen : List Int)
    (hnone : t.package? id = none) :
    Walk.round expected target ⟨some id, moved, t.marked target seen⟩ = none := by
  rw [Walk.round, Option.bind_some, package?_marked, hnone]
  rfl

/-- A move upwards goes on after a round. -/
theorem moveUpwards_of_round {w : Walk} (h : Walk.round expected target ⟨start, [], t⟩ = some w) :
    moveUpwards expected target (n + 1) start t =
      (w.moved ++ (moveUpwards expected target n w.next w.tables).1,
        (moveUpwards expected target n w.next w.tables).2) := by
  unfold Walk.round at h
  cases start with
  | none => cases h
  | some id =>
    rw [Option.bind_some] at h
    cases hfound : t.package? id with
    | none =>
      rw [hfound] at h
      cases h
    | some p =>
      simp only [hfound] at h
      split at h
      · rename_i hfits
        obtain rfl := Option.some.inj h
        rw [moveUpwards, hfound]
        simp only [(mem_of_package? hfound).2]
        exact if_pos hfits
      · cases h

/-- A move upwards is over when there is no round. -/
theorem moveUpwards_of_over (h : Walk.round expected target ⟨start, [], t⟩ = none) :
    moveUpwards expected target n start t = ([], t) := by
  unfold Walk.round at h
  cases n with
  | zero => rfl
  | succ n =>
    cases start with
    | none => rfl
    | some id =>
      rw [Option.bind_some] at h
      rw [moveUpwards]
      cases hfound : t.package? id with
      | none => rfl
      | some p =>
        simp only [hfound] at h ⊢
        split at h
        · cases h
        · rename_i hstays
          exact if_neg hstays

/-! ## The way of a walk -/

/-- The packages that parent links lead through, as far as some rounds go and no number comes up that
has been seen. -/
def chainFrom (t : Tables) (expected : Package.State) :
    Nat → List Int → Option Int → List Package
  | 0, _, _ => []
  | _, _, none => []
  | n + 1, seen, some id =>
    match t.package? id with
    | none => []
    | some p =>
      if p.isCollectionIn expected && !seen.contains id then
        p :: chainFrom t expected n (id :: seen) p.parentId
      else []

/-- Parent links lead through a chain. -/
theorem leads_chainFrom (t : Tables) (expected : Package.State) (n : Nat) (seen : List Int)
    (start : Option Int) : t.Leads expected start (t.chainFrom expected n seen start) := by
  fun_induction chainFrom t expected n seen start with
  | case1 => exact .nil
  | case2 => exact .nil
  | case3 => exact .nil
  | case4 n seen id p hfound hfits ih =>
    exact .cons hfound (Bool.and_eq_true_iff.1 hfits).1 ih
  | case5 => exact .nil

/-- No number on a chain has been seen. -/
theorem not_mem_seen_of_mem_chainFrom (h : p ∈ t.chainFrom expected n seen start) : p.id ∉ seen := by
  fun_induction chainFrom t expected n seen start with
  | case1 => cases h
  | case2 => cases h
  | case3 => cases h
  | case4 n seen id q hfound hfits ih =>
    rcases List.mem_cons.1 h with rfl | hlater
    · rw [(mem_of_package? hfound).2]
      simpa using (Bool.and_eq_true_iff.1 hfits).2
    · exact fun hmem => ih hlater (List.mem_cons_of_mem _ hmem)
  | case5 => cases h

/-- No number comes up twice on a chain. -/
theorem nodup_chainFrom (t : Tables) (expected : Package.State) (n : Nat) (seen : List Int)
    (start : Option Int) : ((t.chainFrom expected n seen start).map Package.id).Nodup := by
  fun_induction chainFrom t expected n seen start with
  | case1 => exact List.nodup_nil
  | case2 => exact List.nodup_nil
  | case3 => exact List.nodup_nil
  | case4 n seen id p hfound hfits ih =>
    refine List.nodup_cons.2 ⟨fun hmem => ?_, ih⟩
    obtain ⟨q, hq, hid⟩ := List.mem_map.1 hmem
    refine not_mem_seen_of_mem_chainFrom hq ?_
    rw [hid, (mem_of_package? hfound).2]
    exact List.mem_cons_self
  | case5 => exact List.nodup_nil

/-- A move upwards after some packages have been moved moves those on a chain. -/
theorem moveUpwards_marked (hne : expected ≠ target) (t : Tables) (n : Nat) (seen : List Int)
    (start : Option Int) :
    moveUpwards expected target n start (t.marked target seen) =
      ((t.chainFrom expected n seen start).map (setState target),
        t.marked target (((t.chainFrom expected n seen start).map Package.id).reverse ++ seen)) := by
  fun_induction chainFrom t expected n seen start with
  | case1 => rfl
  | case2 => exact moveUpwards_of_over rfl
  | case3 n seen id hnone => exact moveUpwards_of_over (round_marked_of_none t [] seen hnone)
  | case4 n seen id p hfound hfits ih =>
    have hround := round_marked hne t [] seen hfound
    rw [if_pos hfits] at hround
    rw [moveUpwards_of_round hround, ih]
    simp [(mem_of_package? hfound).2]
  | case5 n seen id p hfound hstays =>
    have hover := round_marked hne t [] seen hfound
    rw [if_neg hstays] at hover
    exact moveUpwards_of_over hover

/-! ## The end of a walk -/

/-- The packages that have not been seen. -/
def unseen (t : Tables) (seen : List Int) : List Package :=
  t.packages.filter fun p => !seen.contains p.id

/-- Each round leaves fewer packages that have not been seen. -/
theorem length_unseen_cons_lt (hfound : t.package? id = some p) (hfresh : id ∉ seen) :
    (t.unseen (id :: seen)).length < (t.unseen seen).length := by
  obtain ⟨hp, hid⟩ := mem_of_package? hfound
  have hsame : t.unseen (id :: seen) = (t.unseen seen).filter fun q => q.id != id := by
    rw [unseen, unseen, List.filter_filter]
    refine List.filter_congr fun q _ => ?_
    rw [List.contains_cons, Bool.not_or]
    rfl
  rw [hsame, List.length_filter_lt_length_iff_exists]
  exact ⟨p, List.mem_filter.2 ⟨hp, by simpa [hid] using hfresh⟩, by simp [hid]⟩

/-- With a round for each package that has not been seen and one more, a chain goes on until it would
come back or there is nothing to go on to. -/
theorem prefix_chainFrom {other : List Package} (hrounds : (t.unseen seen).length < n)
    (hleads : t.Leads expected start other) (hnodup : (other.map Package.id).Nodup)
    (hfresh : ∀ p ∈ other, p.id ∉ seen) : other <+: t.chainFrom expected n seen start := by
  induction hleads generalizing n seen with
  | nil => exact List.nil_prefix
  | @cons id p ps hfound hfits _ ih =>
    obtain ⟨_, hid⟩ := mem_of_package? hfound
    obtain ⟨hown, hnodup⟩ := List.nodup_cons.1 hnodup
    have hunseen : id ∉ seen := hid ▸ hfresh p List.mem_cons_self
    have hless := length_unseen_cons_lt hfound hunseen
    obtain ⟨n, rfl⟩ := Nat.exists_eq_succ_of_ne_zero (Nat.ne_of_gt (Nat.zero_lt_of_lt hrounds))
    have hgoes : (p.isCollectionIn expected && !seen.contains id) = true := by
      simp [hfits, hunseen]
    rw [chainFrom, hfound]
    simp only [hgoes, if_true]
    refine List.prefix_cons_inj _ |>.2 (ih (by omega) hnodup fun q hq hmem => ?_)
    rcases List.mem_cons.1 hmem with heq | hseen
    · exact hown (List.mem_map.2 ⟨q, hq, heq.trans hid.symm⟩)
    · exact hfresh q (List.mem_cons_of_mem _ hq) hseen

/-- With as many rounds, a walk comes to its end at the end of the chain. -/
theorem endsAt_chainFrom (hne : expected ≠ target) (hrounds : (t.unseen seen).length < n)
    (start : Option Int) (moved : List Package) :
    ∃ next, Walk.EndsAt expected target ⟨start, moved, t.marked target seen⟩
      ⟨next, moved ++ (t.chainFrom expected n seen start).map (setState target),
        t.marked target (((t.chainFrom expected n seen start).map Package.id).reverse ++ seen)⟩ := by
  fun_induction chainFrom t expected n seen start generalizing moved with
  | case1 => exact absurd hrounds (Nat.not_lt_zero _)
  | case2 => exact ⟨none, by simpa using .over rfl⟩
  | case3 n seen id hnone =>
    refine ⟨some id, ?_⟩
    simpa using .over (round_marked_of_none t moved seen hnone)
  | case4 n seen id p hfound hfits ih =>
    obtain ⟨_, hid⟩ := mem_of_package? hfound
    have hround := round_marked hne t moved seen hfound
    rw [if_pos hfits] at hround
    have hless := length_unseen_cons_lt hfound (by simpa using (Bool.and_eq_true_iff.1 hfits).2)
    obtain ⟨next, hends⟩ := ih (by omega) (moved ++ [setState target p])
    refine ⟨next, .on hround ?_⟩
    simpa [hid] using hends
  | case5 n seen id p hfound hstays =>
    have hover := round_marked hne t moved seen hfound
    rw [if_neg hstays] at hover
    refine ⟨some id, ?_⟩
    simpa using .over hover

/-! ## A move upwards -/

/-- A move upwards to a state other than the expected one moves the longest chain. -/
theorem movesChain (hne : expected ≠ target) (t : Tables) (start : Int) :
    t.MovesChain start expected target (t.moveAncestors start expected target).1
      (t.moveAncestors start expected target).2 := by
  have hrounds : (t.unseen []).length < t.depth :=
    Nat.lt_succ_of_le (List.length_filter_le _ _)
  have hmove := moveUpwards_marked hne t t.depth [] (some start)
  rw [marked_nil, List.append_nil] at hmove
  rw [moveAncestors, hmove]
  constructor
  case ends =>
    obtain ⟨next, hends⟩ := endsAt_chainFrom hne hrounds (some start) []
    exact ⟨next, by simpa [marked_nil] using hends⟩
  case longest =>
    refine ⟨t.chainFrom expected t.depth [] (some start), leads_chainFrom .., nodup_chainFrom ..,
      fun other hleads hnodup => ?_, rfl⟩
    exact prefix_chainFrom hrounds hleads hnodup fun _ _ => List.not_mem_nil
  case rows =>
    have hids : ((t.chainFrom expected t.depth [] (some start)).map (setState target)).map Package.id =
        (t.chainFrom expected t.depth [] (some start)).map Package.id := by
      rw [List.map_map]
      rfl
    refine (evolves_change _ _ _).imp fun p _ q hq => ?_
    simp only [hq, hids, List.contains_iff_mem, List.mem_reverse]

end Tables

namespace Transaction

/-- A move upwards to a state other than the expected one comes to its end and is done, whatever the
parent links are. It moves and returns the packages of the longest chain of collections in the expected
state that starts with the given one and in which no number comes up twice, in its order; nothing else
changes. -/
theorem moveAncestors_exact {expected target : Package.State} (hne : expected ≠ target)
    (tx : Transaction) (start : Int) :
    ∃ moved t', moveAncestors start expected target tx =
        (.done moved, { tx with working := t' }) ∧
      tx.working.MovesChain start expected target moved t' :=
  ⟨_, _, moveAncestors_eq_done.2 ⟨rfl, rfl⟩, Tables.movesChain hne tx.working start⟩

/-- Three trashed folders, each in the one before it and the first in the last. A live folder is in the
ring, too. -/
def ring : Transaction where
  org := 1
  way := .bounded
  working := { Tables.empty with
    packages := [⟨1, "a", .collection, .deleted, "a", some 3, 1, 1, none, false⟩,
      ⟨2, "b", .collection, .deleted, "b", some 1, 1, 1, none, false⟩,
      ⟨3, "c", .collection, .deleted, "c", some 2, 1, 1, none, true⟩,
      ⟨4, "d", .collection, .ready, "d", some 3, 1, 1, none, false⟩] }
  savepoints := []

/-- A move upwards in a ring comes to its end, too. -/
theorem moveAncestors_exact_ring :
    Package.State.deleted ≠ .ready ∧
      ∃ moved t', moveAncestors 2 .deleted .ready ring = (.done moved, { ring with working := t' }) ∧
        ring.working.MovesChain 2 .deleted .ready moved t' := by
  have hne : Package.State.deleted ≠ .ready := by decide
  exact ⟨hne, moveAncestors_exact hne ring 2⟩

/-- It goes round once. -/
example : (ring.working.moveAncestors 2 .deleted .ready).1.map Package.id = [2, 1, 3] := by
  decide

end Transaction

end Salvage
