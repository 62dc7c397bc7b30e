import Salvage.Proofs.Restoration
import Salvage.Proofs.Tables.Siblings

/-!
# The first free name

A package whose name stands behind its prefix gets the first of its candidates that no other package
in its place holds, and that is all that happens. The candidates are spelled out here by the base
and the extension of the old name, and a name is free when no row says otherwise, so neither the
search nor its savepoint is part of the statement. No search ends before the last candidate: the limit
on attempts is the number of candidates.
-/

namespace Salvage.Restoration

/-- Another package of the same dataset with the same parent has a name, in whatever state it is. -/
def HeldByOther (t : Tables) (p : Package) (name : String) : Prop :=
  ∃ q ∈ t.packages, q.id ≠ p.id ∧ q.datasetId = p.datasetId ∧ q.parentId = p.parentId ∧
    q.name = name

instance (t : Tables) (p : Package) (name : String) : Decidable (HeldByOther t p name) :=
  inferInstanceAs (Decidable (∃ q ∈ t.packages, _))

/-- A name in two parts: an extension that starts with the last point, if there is one, and the base
in front of it. -/
structure CutAtLastPoint (name base extension : String) : Prop where
  joined : base ++ extension = name
  extension : extension = "" ∧ '.' ∉ name.toList ∨
    ∃ rest, extension = "." ++ rest ∧ '.' ∉ rest.toList

/-- A name with a mark between its base and its extension. -/
def markedName (base mark extension : String) : String :=
  base ++ "-restored_" ++ mark ++ extension

variable {t : Tables} {tx : Transaction} {p : Package}

/-- The numbers from one on. -/
theorem range'_one (n : Nat) : List.range' 1 n = (List.range n).map fun k => k + 1 := by
  simp only [List.range'_eq_map_range, Nat.add_comm]

/-- Every name can be cut at its last point, and its candidates are made of both parts. -/
theorem exists_candidates_eq (old token : String) :
    ∃ base extension, CutAtLastPoint old base extension ∧
      Name.candidates old token =
        old :: ((List.range' 1 100).map fun n => markedName base (toString n) extension) ++
          [markedName base token extension] := by
  refine ⟨String.ofList (Name.splitExtension old.toList).1,
    String.ofList (Name.splitExtension old.toList).2, ⟨?_, ?_⟩, ?_⟩
  · rw [← String.ofList_append, Name.splitExtension_append, String.ofList_toList]
  · rcases Name.splitExtension_snd old.toList with ⟨hnone, habsent⟩ | ⟨rest, hsome, habsent⟩
    · exact .inl ⟨by rw [hnone], habsent⟩
    · refine .inr ⟨String.ofList rest, ?_, by rwa [String.toList_ofList]⟩
      rw [hsome, ← String.toList_inj]
      simp
  · rw [range'_one, List.map_map]
    rfl

/-- A name is held by another package when a sibling has it. -/
theorem siblingHasName_eq_true_iff {name : String} :
    t.siblingHasName p name = true ↔ HeldByOther t p name := by
  rw [Tables.siblingHasName_iff]
  refine exists_congr fun q => and_congr_right fun _ => ?_
  rw [Package.isSiblingOf_iff, and_assoc, and_assoc, ne_comm, eq_comm (a := p.datasetId),
    eq_comm (a := p.parentId)]

/-- Among candidates of which the last is free there is a first one that is. -/
theorem exists_first_free {fallback : String} (front : List String)
    (hfree : ¬ HeldByOther t p fallback) :
    ∃ before name after, front ++ [fallback] = before ++ name :: after ∧
      (∀ c ∈ before, HeldByOther t p c) ∧ ¬ HeldByOther t p name ∧
      (front ++ [fallback]).find? (fun c => !t.siblingHasName p c) = some name := by
  have hfits (c : String) : (!t.siblingHasName p c) = true ↔ ¬ HeldByOther t p c := by
    rw [← siblingHasName_eq_true_iff, Bool.not_eq_true', Bool.not_eq_true]
  cases hfound : (front ++ [fallback]).find? fun c => !t.siblingHasName p c with
  | none =>
    have htaken := List.find?_eq_none.1 hfound fallback (by simp)
    exact absurd ((hfits fallback).2 hfree) htaken
  | some name =>
    obtain ⟨hname, before, after, hsplit, hbefore⟩ := List.find?_eq_some_iff_append.1 hfound
    refine ⟨before, name, after, hsplit, fun c hc => ?_, (hfits name).1 hname, rfl⟩
    by_contra hnot
    have htaken := hbefore c hc
    rw [(hfits c).2 hnot] at htaken
    cases htaken

/-- A package whose name stands behind the prefix of its node id gets the first of its candidates
that is free, if the last one is, and nothing else changes. A name without the prefix is refused,
and then nothing changes. -/
theorem restoreName_first_free (hk : tx.working.Keyed) (token : String) (info : PackageInfo) :
    (∀ p ∈ tx.working.packages, p.id = info.id →
      ∀ old, info.name = Name.deletedPrefix info.nodeId ++ old →
        ∃ base extension, CutAtLastPoint old base extension ∧
          (¬ HeldByOther tx.working p (markedName base token extension) →
            ∃ before name after,
              old :: ((List.range' 1 100).map fun n => markedName base (toString n) extension) ++
                [markedName base token extension] = before ++ name :: after ∧
              (∀ c ∈ before, HeldByOther tx.working p c) ∧ ¬ HeldByOther tx.working p name ∧
              restoreName token info tx =
                (.done ⟨name, old⟩,
                  { tx with working := { tx.working with
                      packages := tx.working.packages.map fun q =>
                        if q = p then { p with name } else q } }))) ∧
      ((¬ ∃ old, info.name = Name.deletedPrefix info.nodeId ++ old) →
        restoreName token info tx =
          (.failed (.invalidDeletedName info.name (Name.deletedPrefix info.nodeId)), tx)) := by
  refine ⟨fun p hp hid old hname => ?_, fun hprefix => ?_⟩
  · obtain ⟨base, extension, hcut, hcandidates⟩ := exists_candidates_eq old token
    refine ⟨base, extension, hcut, fun hfree => ?_⟩
    obtain ⟨before, name, after, hsplit, hbefore, hfirst, hfound⟩ := exists_first_free
      (old :: (List.range' 1 100).map fun n => markedName base (toString n) extension) hfree
    rw [← hcandidates] at hfound
    have hformer : Name.former info.name info.nodeId = .ok old := by
      rw [hname]
      exact Name.former_deletedPrefix info.nodeId old
    have hrow : tx.working.package? info.id = some p := hid ▸ hk.package?_eq hp
    have hrows : (tx.working.packages.map fun q =>
          if q.id == info.id then q.rename name else q) =
        tx.working.packages.map fun q => if q = p then { p with name } else q := by
      apply List.map_congr_left
      intro q hq
      by_cases hqp : q = p
      · simp [hqp, hid, Package.rename]
      · have hne : q.id ≠ info.id := fun heq => hqp (hk.eq_of_id hq hp (heq.trans hid.symm))
        simp [hqp, hne]
    refine ⟨before, name, after, hsplit, hbefore, hfirst, ?_⟩
    refine (restoreName_eq_done hrow).2 ⟨hformer, hfound, ?_⟩
    rw [Tables.changeId, Tables.change, hrows]
  · rw [restoreName, Name.former_of_no_prefix hprefix]
    rfl

/-- A trashed file. -/
def crowdedFile : Package :=
  ⟨3, "__DELETED__z_a.txt", .text, .restoring, "z", some 9, 1, 1, none, false⟩

/-- The file beside a live one that has its old name and one in the trash that has the first
numbered name, and the savepoint of an earlier search. -/
def crowdedFolder : Transaction where
  org := 1
  way := .bounded
  working := { Tables.empty with
    packages := [⟨1, "a.txt", .text, .ready, "x", some 9, 1, 1, none, false⟩,
      ⟨2, "a-restored_1.txt", .text, .deleted, "y", some 9, 1, 1, none, false⟩, crowdedFile] }
  savepoints := [("z_svpt", Tables.empty)]

/-- In the crowded folder the file gets a name that no other package has, and the older savepoint
stays. -/
theorem restoreName_first_free_crowded :
    crowdedFolder.working.Keyed ∧
      ∃ name tx', restoreName "token" (.ofPackage crowdedFile) crowdedFolder =
          (.done ⟨name, "a.txt"⟩, tx') ∧
        (∀ p ∈ crowdedFolder.working.packages, p.id ≠ 3 → p.name ≠ name) ∧
        tx'.savepoints = [("z_svpt", Tables.empty)] := by
  have hk : crowdedFolder.working.Keyed := by decide
  obtain ⟨base, extension, -, hnamed⟩ := (restoreName_first_free hk "token"
    (.ofPackage crowdedFile)).1 crowdedFile (by decide) rfl "a.txt" (by decide)
  have hletter : ∀ q ∈ crowdedFolder.working.packages, 'k' ∉ q.name.toList := by decide
  have hfree : ¬ HeldByOther crowdedFolder.working crowdedFile
      (markedName base "token" extension) := by
    rintro ⟨q, hq, -, -, -, hname⟩
    exact hletter q hq (by simp [hname, markedName])
  obtain ⟨-, name, -, -, -, hfirst, hdone⟩ := hnamed hfree
  have hplace : ∀ q ∈ crowdedFolder.working.packages,
      q.datasetId = crowdedFile.datasetId ∧ q.parentId = crowdedFile.parentId := by decide
  refine ⟨hk, name, _, hdone, fun p hp hid hname => hfirst ⟨p, hp, hid, ?_, ?_, hname⟩, rfl⟩
  · exact (hplace p hp).1
  · exact (hplace p hp).2

end Salvage.Restoration
