import Mathlib
import Salvage.Tables

/-!
# Sums of totals

What adding does to the totals of all owners, for one addition and for the additions of all source
files. Additions are only partial because of their range: when one succeeds, it is exact.
-/

namespace Salvage

/-- A sum of sizes that is formed is the sum. -/
theorem eq_add_of_sum? {a b c : Int} (h : sum? a b = some c) : c = a + b := by
  rw [sum?] at h
  split at h
  · exact (Option.some.inj h).symm
  · cases h

namespace Totals

variable {t t' : Totals} {id delta : Int}

/-- An addition makes a row for the owner and touches no other. -/
theorem find?_add (h : t.add id delta = some t') (other : Int) :
    t'.find? other = if other = id then some (t.get id + delta) else t.find? other := by
  obtain ⟨c, hsum, hput⟩ := Option.bind_eq_some_iff.1 h
  obtain rfl := Option.some.inj hput
  rw [eq_add_of_sum? hsum]
  exact lookup_putRow id _ t.rows other

/-- An addition is exact and changes the total of the owner only. -/
theorem get_add (h : t.add id delta = some t') (other : Int) :
    t'.get other = t.get other + if other = id then delta else 0 := by
  rw [get, find?_add h]
  split
  · rename_i heq
    rw [heq]
    rfl
  · exact (Int.add_zero _).symm

end Totals

namespace Tables

/-- The sizes of the source files of a package. -/
def sizesOf (id : Int) (files : List FileRow) : List Int :=
  (files.filter fun f => f.packageId == id).map FileRow.size

/-- The sum of the source files of a package, if there are any. -/
def fileSum (t : Tables) (id : Int) : Option Int :=
  if sizesOf id t.files = [] then none else some (sizesOf id t.files).sum

/-- Adding source files one by one adds up the files of each package and makes no row for others. -/
theorem find?_foldlM_add {files : List FileRow} {s s' : Totals}
    (h : files.foldlM (fun sums f => sums.add f.packageId f.size) s = some s') (id : Int) :
    s'.find? id =
      if sizesOf id files = [] then s.find? id else some (s.get id + (sizesOf id files).sum) := by
  induction files generalizing s with
  | nil =>
    obtain rfl := Option.some.inj h
    rfl
  | cons f files ih =>
    rw [List.foldlM_cons] at h
    obtain ⟨s₁, hadd, hrest⟩ := Option.bind_eq_some_iff.1 h
    rw [ih hrest, Totals.find?_add hadd, Totals.get_add hadd]
    by_cases hid : f.packageId = id
    · have hsizes : sizesOf id (f :: files) = f.size :: sizesOf id files := by
        simp [sizesOf, hid]
      rw [hsizes, if_pos hid.symm, if_pos hid.symm, hid, if_neg (List.cons_ne_nil _ _),
        List.sum_cons]
      split
      · rename_i hnone
        rw [hnone, List.sum_nil, Int.add_zero]
      · rw [Int.add_assoc]
    · have hsizes : sizesOf id (f :: files) = sizesOf id files := by
        simp [sizesOf, hid]
      rw [hsizes, if_neg (Ne.symm hid), if_neg (Ne.symm hid), Int.add_zero]

/-- The sums of source files that are asked for are exactly those of the packages that were named
and have any. -/
theorem find?_fileSizes {t : Tables} {ids : List Int} {sums : Totals}
    (h : t.fileSizes ids = some sums) (id : Int) :
    sums.find? id = if id ∈ ids then t.fileSum id else none := by
  have hsizes : sizesOf id (t.files.filter fun f => ids.contains f.packageId) =
      if id ∈ ids then sizesOf id t.files else [] := by
    rw [sizesOf, List.filter_filter]
    split
    · rename_i hid
      refine congrArg _ (List.filter_congr fun f _ => ?_)
      rw [Bool.and_eq_left_iff_imp, beq_iff_eq]
      intro heq
      subst heq
      exact List.contains_iff_mem.2 hid
    · rename_i hid
      rw [List.map_eq_nil_iff, List.filter_eq_nil_iff]
      intro f _
      rw [Bool.and_eq_true, beq_iff_eq, List.contains_iff_mem]
      intro hgiven
      obtain ⟨rfl, hmem⟩ := hgiven
      exact hid hmem
  rw [find?_foldlM_add h, hsizes, fileSum]
  by_cases hid : id ∈ ids
  · rw [if_pos hid, if_pos hid]
    split
    · rfl
    · exact congrArg some (Int.zero_add _)
  · rw [if_neg hid, if_neg hid, if_pos rfl]
    rfl

end Tables

end Salvage
