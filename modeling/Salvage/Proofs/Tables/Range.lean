import Salvage.Proofs.Tables.Ascent

/-!
# Sums that stay in range

Totals have room for a size when it can be added to each of them and taken off it within 64 bits.
Then every smaller addition succeeds, and leaves room for the rest. In a forest every way up has an
end, so adding to a package and all above it succeeds as well.
-/

namespace Salvage

/-- A sum of sizes fits into 64 bits. -/
def InRange (x : Int) : Prop :=
  Text.IntRange.bits64.contains x = true

instance (x : Int) : Decidable (InRange x) :=
  inferInstanceAs (Decidable (_ = true))

/-- The least and the greatest sum that fit. -/
theorem inRange_iff {x : Int} :
    InRange x ↔ -9223372036854775808 ≤ x ∧ x ≤ 9223372036854775807 := by
  rw [InRange, Text.IntRange.contains, decide_eq_true_eq]
  norm_num [Text.IntRange.bits64]

/-- A sum is no greater than what its parts come to without their signs. -/
theorem natAbs_sum_le (sizes : List Int) : sizes.sum.natAbs ≤ (sizes.map Int.natAbs).sum :=
  List.le_sum_of_subadditive Int.natAbs Int.natAbs_zero.le Int.natAbs_add_le sizes

namespace Totals

variable {t t' : Totals} {n k : Nat} {id delta : Int}

/-- A sum that fits is formed. -/
theorem exists_add (h : InRange (t.get id + delta)) : ∃ t', t.add id delta = some t' := by
  have hsum : sum? (t.get id) delta = some (t.get id + delta) := if_pos h
  refine ⟨t.put id (t.get id + delta), ?_⟩
  rw [add, hsum]
  rfl

/-- A size can be added to every total and taken off it. -/
def Room (t : Totals) (n : Nat) : Prop :=
  ∀ id, InRange (t.get id - n) ∧ InRange (t.get id + n)

instance (n : Nat) : Decidable (Room .empty n) :=
  decidable_of_iff (InRange (0 - n) ∧ InRange (0 + n))
    ⟨fun h _ => h, fun h => h 0⟩

/-- Room for a size is room for a smaller one. -/
theorem Room.mono (h : t.Room n) (hk : k ≤ n) : t.Room k := by
  intro id
  obtain ⟨hlow, hhigh⟩ := h id
  simp only [inRange_iff] at *
  omega

/-- A size for which there is room fits itself. -/
theorem Room.inRange (h : t.Room n) : InRange n := by
  obtain ⟨hlow, hhigh⟩ := h 0
  simp only [inRange_iff] at *
  omega

/-- An addition for which there is room succeeds. -/
theorem Room.exists_add (h : t.Room n) (hdelta : delta.natAbs ≤ n) (id : Int) :
    ∃ t', t.add id delta = some t' := by
  refine Totals.exists_add ?_
  obtain ⟨hlow, hhigh⟩ := h id
  simp only [inRange_iff] at *
  omega

/-- Totals that have grown by some size at most have room for the rest. -/
theorem Room.sub (h : t.Room n) (hk : k ≤ n) (hgrown : ∀ id, (t'.get id - t.get id).natAbs ≤ k) :
    t'.Room (n - k) := by
  intro id
  obtain ⟨hlow, hhigh⟩ := h id
  have hless := hgrown id
  simp only [inRange_iff] at *
  omega

/-- Additions one after another succeed when there is room for all of them. -/
theorem Room.exists_foldlM {files : List FileRow}
    (h : t.Room (files.map fun f => f.size.natAbs).sum) :
    ∃ t', files.foldlM (fun sums f => sums.add f.packageId f.size) t = some t' := by
  induction files generalizing t with
  | nil => exact ⟨t, rfl⟩
  | cons f files ih =>
    rw [List.map_cons, List.sum_cons] at h
    obtain ⟨t₁, hadd⟩ := h.exists_add (Nat.le_add_right _ _) f.packageId
    have hgrown : ∀ id, (t₁.get id - t.get id).natAbs ≤ f.size.natAbs := by
      intro id
      rw [get_add hadd]
      split <;> omega
    have hroom := h.sub (Nat.le_add_right f.size.natAbs _) hgrown
    rw [Nat.add_sub_cancel_left] at hroom
    obtain ⟨t', hothers⟩ := ih hroom
    exact ⟨t', by rw [List.foldlM_cons, hadd]; exact hothers⟩

end Totals

namespace Tables

variable {t : Tables} {links : Int → Option (Option Int)} {start : Option Int} {ids : List Int}
  {n : Nat} {delta : Int}

/-- The source files have sums that fit, however few of them are added up. -/
def FilesFit (t : Tables) : Prop :=
  Totals.empty.Room (t.files.map fun f => f.size.natAbs).sum

instance (t : Tables) : Decidable t.FilesFit :=
  inferInstanceAs (Decidable (Totals.Room .empty _))

/-- The sums of source files are found when they fit. -/
theorem FilesFit.exists_fileSizes (h : t.FilesFit) (ids : List Int) :
    ∃ sums, t.fileSizes ids = some sums := by
  refine Totals.Room.exists_foldlM (Totals.Room.mono h ?_)
  exact (List.filter_sublist.map _).sum_le_sum fun _ _ => Nat.zero_le _

/-! ## Ways up -/

/-- With enough rounds all numbers on a way up that ends are found. -/
theorem upwards_eq (h : Climbs links start ids) (hrounds : ids.length < n) :
    upwards links n start = ids := by
  induction h generalizing n with
  | top => cases n <;> rfl
  | gone hnone =>
    obtain ⟨n, rfl⟩ := Nat.exists_eq_add_one_of_ne_zero (Nat.ne_zero_of_lt hrounds)
    rw [upwards, hnone]
  | up hsome _ ih =>
    obtain ⟨n, rfl⟩ := Nat.exists_eq_add_one_of_ne_zero (Nat.ne_zero_of_lt hrounds)
    rw [upwards, hsome]
    exact congrArg (_ :: ·) (ih (Nat.lt_of_succ_lt_succ hrounds))

/-- Adding on a way up that ends succeeds when it does for each total. -/
theorem exists_addUpwards (h : Climbs t.links start ids) (hrounds : ids.length < n)
    (hfits : ∀ id ∈ ids, InRange (t.packageStorage.get id + delta)) :
    ∃ t', addUpwards delta n start t = some t' := by
  generalize hlinks : t.links = links at h
  induction h generalizing n t with
  | top => exact ⟨t, by cases n <;> rfl⟩
  | @gone id hnone =>
    obtain ⟨n, rfl⟩ := Nat.exists_eq_add_one_of_ne_zero (Nat.ne_zero_of_lt hrounds)
    refine ⟨t, ?_⟩
    subst hlinks
    rw [addUpwards, Option.map_eq_none_iff.1 hnone]
  | @up id parent ids hsome hclimb ih =>
    obtain ⟨n, rfl⟩ := Nat.exists_eq_add_one_of_ne_zero (Nat.ne_zero_of_lt hrounds)
    subst hlinks
    obtain ⟨p, hp, rfl⟩ := Option.map_eq_some_iff.1 hsome
    obtain ⟨totals, hadd⟩ := Totals.exists_add (hfits id List.mem_cons_self)
    -- the total that was added to is not met again
    have hnot := hclimb.not_mem_of_links hsome
    have hlater : ∀ other ∈ ids, InRange
        (({ t with packageStorage := totals } : Tables).packageStorage.get other + delta) := by
      intro other hother
      have hne : other ≠ id := fun heq => hnot (heq ▸ hother)
      change InRange (totals.get other + delta)
      rw [Totals.get_add hadd, if_neg hne, Int.add_zero]
      exact hfits other (List.mem_cons_of_mem _ hother)
    obtain ⟨t', hrest⟩ := ih (Nat.lt_of_succ_lt_succ hrounds) hlater rfl
    refine ⟨t', ?_⟩
    rw [addUpwards, hp]
    dsimp only
    rw [hadd]
    exact hrest

/-- In a forest a way up from above some rows ends, before all other rows are used up. -/
theorem Forest.exists_climbs_above (hf : t.Forest) {seen : List Int} (hnodup : seen.Nodup)
    (hrows : seen ⊆ t.packages.map Package.id)
    (habove : ∀ a, start = some a → ∀ s ∈ seen, t.IsAncestor a s)
    (hleft : n + seen.length = t.packages.length + 1) :
    ∃ ids, Climbs t.links start ids ∧ ids.length + seen.length ≤ t.packages.length := by
  have hsize {ids : List Int} (hids : ids.Nodup) (hsub : ids ⊆ t.packages.map Package.id) :
      ids.length ≤ t.packages.length := by
    rw [← List.length_map Package.id]
    exact (List.subperm_of_subset hids hsub).length_le
  induction n generalizing seen start with
  | zero =>
    have hcount := hsize hnodup hrows
    omega
  | succ n ih =>
    have hcount : ([] : List Int).length + seen.length ≤ t.packages.length := by
      simpa using hsize hnodup hrows
    cases start with
    | none => exact ⟨[], .top, hcount⟩
    | some id =>
      cases hlink : t.links id with
      | none => exact ⟨[], .gone hlink, hcount⟩
      | some parent =>
        obtain ⟨p, hp, rfl, rfl⟩ := hf.keyed.links_eq_some_iff.1 hlink
        have hown : ∀ s ∈ seen, t.IsAncestor p.id s := habove p.id rfl
        have hnot : p.id ∉ seen := fun hmem => hf.acyclic p.id (hown p.id hmem)
        have habove' : ∀ a, p.parentId = some a → ∀ s ∈ p.id :: seen, t.IsAncestor a s := by
          intro a hparent s hs
          have hstep : t.IsAncestor a p.id := .single ⟨p, hp, rfl, hparent⟩
          rcases List.mem_cons.1 hs with rfl | hlater
          · exact hstep
          · exact hstep.trans (hown s hlater)
        obtain ⟨ids, hclimbs, hlength⟩ := ih (List.nodup_cons.2 ⟨hnot, hnodup⟩)
          (List.cons_subset.2 ⟨List.mem_map_of_mem hp, hrows⟩) habove'
          (by rw [List.length_cons]; omega)
        refine ⟨p.id :: ids, .up hlink hclimbs, ?_⟩
        rw [List.length_cons] at hlength ⊢
        omega

/-- In a forest every way up ends within the rounds that are made. -/
theorem Forest.climbs (hf : t.Forest) (start : Option Int) :
    Climbs t.links start (t.above start) ∧ (t.above start).length < t.depth := by
  have hnone : ∀ a, start = some a → ∀ s ∈ ([] : List Int), t.IsAncestor a s := by simp
  obtain ⟨ids, hclimbs, hlength⟩ := hf.exists_climbs_above List.nodup_nil (List.nil_subset _) hnone
    (Nat.add_zero _)
  have hrounds : ids.length < t.depth := Nat.lt_succ_of_le hlength
  rw [above, upwards_eq hclimbs hrounds]
  exact ⟨hclimbs, hrounds⟩

/-- All totals of the tables have room for a size. -/
structure Room (t : Tables) (n : Nat) : Prop where
  packages : t.packageStorage.Room n
  datasets : t.datasetStorage.Room n
  organizations : t.organizationStorage.Room n

end Tables

end Salvage
