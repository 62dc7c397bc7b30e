import Salvage.Proofs.Restoration.Candidates

/-!
# All candidates differ

The candidates for a name are handed out on demand: the old name once, the numbered ones by a counter,
the last one once. What is still to come can be told at every step, so they come in the order of the
list of candidates, and after the last one nothing comes, however often one more is asked for. No two of
them are the same, whatever points or marks the name has itself: a mark makes a name longer, and with
the same base and extension marked names differ as their marks do.
-/

namespace Salvage.Name

open Restoration (CutAtLastPoint markedName range'_one exists_candidates_eq)

/-! ## Candidates on demand -/

namespace Candidates

/-- The candidates that are still to come, in order. -/
def toCome (token : String) (c : Candidates) : List String :=
  c.former.toList ++
    (List.range' c.next (numberLimit + 1 - c.next)).map (fun n => c.withMark (toString n)) ++
      if c.finished then [] else [c.withMark token]

/-- The first of the candidates to come is handed out, and the others are still to come. -/
theorem draw_eq (token : String) (c : Candidates) :
    (c.draw token).1 = (c.toCome token).head? ∧
      (c.draw token).2.toCome token = (c.toCome token).tail := by
  rcases c with ⟨_ | name, base, extension, next, finished⟩
  · by_cases hnumber : next ≤ numberLimit
    · -- the counter goes up by one as the first number is taken off
      have hcount : numberLimit + 1 - next = numberLimit + 1 - (next + 1) + 1 := by omega
      have hnumbers : List.range' next (numberLimit + 1 - next) =
          next :: List.range' (next + 1) (numberLimit + 1 - (next + 1)) := by
        rw [hcount, List.range'_succ]
      simp only [draw, if_pos hnumber, toCome, hnumbers]
      exact ⟨rfl, rfl⟩
    · -- the numbers are used up, and the last candidate may be left
      have hnone : numberLimit + 1 - next = 0 := by omega
      cases finished with
      | false => simp [draw, if_neg hnumber, toCome, hnone, withMark]
      | true => simp [draw, if_neg hnumber, toCome, hnone]
  · exact ⟨rfl, rfl⟩

/-- What is handed out after some candidates is what comes after as many of those to come. -/
theorem drawn_eq (token : String) (k : Nat) (c : Candidates) :
    drawn token k c = (c.toCome token)[k]? := by
  induction k generalizing c with
  | zero => rw [drawn, (draw_eq token c).1, List.head?_eq_getElem?]
  | succ k ih => rw [drawn, ih, (draw_eq token c).2, List.getElem?_tail]

/-- At the start all candidates are still to come. -/
theorem toCome_start (name token : String) :
    (start name).toCome token = candidates name token := by
  have htoCome : (start name).toCome token =
      name :: (List.range' 1 numberLimit).map (fun n => marked name (toString n)) ++
        [marked name token] := rfl
  rw [htoCome, range'_one, List.map_map]
  rfl

end Candidates

/-! ## Marks -/

variable {name base extension token : String}

/-- A name with a mark is longer than the name. -/
theorem ne_markedName (hcut : CutAtLastPoint name base extension) (mark : String) :
    name ≠ markedName base mark extension := by
  intro heq
  have hlonger := congrArg String.length heq
  rw [← hcut.joined] at hlonger
  simp only [markedName, String.length_append] at hlonger
  have hmark : "-restored_".length = 10 := by decide
  omega

/-- Names with different marks differ. -/
theorem markedName_injective (base extension : String) :
    Function.Injective fun mark => markedName base mark extension := by
  intro mark mark' heq
  simpa only [markedName, String.append_left_inj, String.append_right_inj] using heq

/-- The numbers up to a hundred and a token that is longer than each of them all differ. -/
theorem nodup_marks (htoken : token.length = 36) :
    ((List.range' 1 100).map (fun n => toString n) ++ [token]).Nodup := by
  have hnumbers : ((List.range' 1 100).map fun n => toString n).Nodup :=
    (List.nodup_range' 1).map fun _ _ heq => Nat.repr_injective heq
  refine List.nodup_append.2 ⟨hnumbers, List.nodup_singleton token, ?_⟩
  intro number hnumber _ hlast heq
  obtain ⟨n, hn, rfl⟩ := List.mem_map.1 hnumber
  rw [List.mem_singleton.1 hlast] at heq
  have hshort : (toString n).length ≤ 3 := by
    have hn' := List.mem_range'_1.1 hn
    exact Nat.repr_length n 3 (by omega) (by omega)
  rw [heq, htoken] at hshort
  omega

/-- With a token of the length of a UUID the candidates for a name that are handed out are one hundred
and two different ones, and then none: first the name, then the name with each number up to a hundred,
and last the name with the token, each mark in front of the last point. -/
theorem candidates_all_differ (name token : String) (htoken : token.length = 36) :
    (candidates name token).length = 102 ∧
      (∀ k, (Candidates.start name).drawn token k = (candidates name token)[k]?) ∧
      (∀ k, 102 ≤ k → (Candidates.start name).drawn token k = none) ∧
      (candidates name token).Nodup ∧
      ∃ base extension, CutAtLastPoint name base extension ∧
        candidates name token =
          name :: ((List.range' 1 100).map fun n => markedName base (toString n) extension) ++
            [markedName base token extension] := by
  obtain ⟨base, extension, hcut, hcandidates⟩ := exists_candidates_eq name token
  have hlength : (candidates name token).length = 102 := length_candidates name token
  have hdrawn (k : Nat) : (Candidates.start name).drawn token k = (candidates name token)[k]? := by
    rw [Candidates.drawn_eq, Candidates.toCome_start]
  have hmarked : candidates name token =
      name :: ((List.range' 1 100).map (fun n => toString n) ++ [token]).map
        fun mark => markedName base mark extension := by
    rw [hcandidates, List.map_append, List.map_map]
    rfl
  refine ⟨hlength, hdrawn, fun k hk => ?_, ?_, base, extension, hcut, hcandidates⟩
  · rw [hdrawn, List.getElem?_eq_none_iff, hlength]
    exact hk
  · rw [hmarked, List.nodup_cons]
    refine ⟨fun hmem => ?_, (nodup_marks htoken).map (markedName_injective base extension)⟩
    obtain ⟨mark, -, heq⟩ := List.mem_map.1 hmem
    exact ne_markedName hcut mark heq.symm

/-- The candidates for a name that ends in a numbered mark itself. The fifth one has two marks, the
last one the token, and another one does not come. -/
theorem candidates_all_differ_marked :
    "123e4567-e89b-42d3-a456-426614174000".length = 36 ∧
      (candidates "a-restored_4.gz" "123e4567-e89b-42d3-a456-426614174000").Nodup ∧
      (Candidates.start "a-restored_4.gz").drawn "123e4567-e89b-42d3-a456-426614174000" 4 =
        some "a-restored_4-restored_4.gz" ∧
      (Candidates.start "a-restored_4.gz").drawn "123e4567-e89b-42d3-a456-426614174000" 101 =
        some "a-restored_4-restored_123e4567-e89b-42d3-a456-426614174000.gz" ∧
      (Candidates.start "a-restored_4.gz").drawn "123e4567-e89b-42d3-a456-426614174000" 102 =
        none := by
  have htoken : "123e4567-e89b-42d3-a456-426614174000".length = 36 := by decide
  obtain ⟨-, hdrawn, hend, hdiffer, -⟩ := candidates_all_differ "a-restored_4.gz" _ htoken
  exact ⟨htoken, hdiffer, (hdrawn 4).trans (by decide), (hdrawn 101).trans (by decide),
    hend 102 (Nat.le_refl 102)⟩

end Salvage.Name
