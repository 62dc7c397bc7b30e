import Salvage.Proofs.Workspace.Run
import Salvage.Proofs.Workspace.Storage

/-!
# What failed deliveries change about what is counted

A delivery that fails leaves the packages alone, so the next one finds the same leaves. It may have
removed delete records though, and with them the only trace of the sizes of their leaves.
`totals_redelivered_iff` says exactly when that shows in the totals: when such a leaf had a size.
A lost size cannot be made up for by another one, since the deepest leaf that lost its size is
missing from its own total, in which no other leaf that lost its size counts.
-/

namespace Salvage.Workspace

open Restoration (leafRows)
open Tables (Climbs)

/-- Deliveries of a message one after another none of which is done, each under faults of its own. -/
inductive FailedDeliveries (m : RestoreMessage) (w : Workspace) : Workspace → Prop
  | none : FailedDeliveries m w w
  | next {v : Workspace} (f : Faults) (token : Int → String) : FailedDeliveries m w v →
      (restore token m (v.withFaults f)).1.isDone = false →
      FailedDeliveries m w (restore token m (v.withFaults f)).2

/-- All storage totals are the same. -/
structure SameTotals (a b : Workspace) : Prop where
  packages : ∀ id,
    a.packages.tables.packageStorage.get id = b.packages.tables.packageStorage.get id
  datasets : ∀ id,
    a.packages.tables.datasetStorage.get id = b.packages.tables.datasetStorage.get id
  organizations : ∀ id,
    a.packages.tables.organizationStorage.get id = b.packages.tables.organizationStorage.get id

/-- The size of a leaf, which is not nothing, is known from its delete record only. -/
structure SizedByRecord (w : Workspace) (m : RestoreMessage) (l : Package) : Prop where
  message : m.package.kind.isCollection ∨ m.package.size = none
  files : w.packages.tables.fileSum l.id = none
  record : ∃ r, w.content.records.records.find? l.nodeId = some r ∧ r.size.getD 0 ≠ 0

variable {token token' : Int → String} {m : RestoreMessage} {w v a b : Workspace} {f g : Faults}
  {events events' : List Event} {l : Package}

/-! ## Failed deliveries -/

/-- Failed deliveries leave the packages alone and take delete records away at most. -/
theorem FailedDeliveries.kept (h : FailedDeliveries m w v) :
    v.packages = w.packages ∧ w.content.Clears v.content := by
  induction h with
  | none => exact ⟨rfl, Std.Refl.refl (r := Content.Clears) w.content⟩
  | @next v f token _ hnot ih =>
    obtain ⟨hpackages, hclears⟩ := ih
    refine ⟨?_, IsTrans.trans (r := Content.Clears) _ _ _ hclears ?_⟩
    · rw [restore_of_not_done hnot]
      exact hpackages
    · exact clears_restore token m (v.withFaults f)

/-! ## Sizes that are lost -/

/-- The size of a leaf that is not sized by the message or its source files is that on its record. -/
theorem restoredSize_of_record
    (hmessage : m.package.kind.isCollection ∨ m.package.size = none)
    (hfiles : w.packages.tables.fileSum l.id = none) :
    restoredSize w m l =
      ((w.content.records.records.find? l.nodeId).bind DeleteRecord.size).getD 0 := by
  have hown : (if m.package.kind.isCollection then none else m.package.size) = none := by
    split
    · rfl
    · rename_i hleaf
      exact hmessage.resolve_left hleaf
  rw [restoredSize, hown, hfiles, Option.none_or, Option.none_or]

/-- A leaf that is sized by the message or its source files has this size whatever the records are. -/
theorem restoredSize_of_not_record (hpackages : v.packages = w.packages)
    (h : ¬ ((m.package.kind.isCollection ∨ m.package.size = none) ∧
      w.packages.tables.fileSum l.id = none)) :
    restoredSize v m l = restoredSize w m l := by
  rw [restoredSize, restoredSize, hpackages]
  cases hown : if m.package.kind.isCollection then none else m.package.size with
  | some => rfl
  | none =>
    cases hfiles : w.packages.tables.fileSum l.id with
    | some => rfl
    | none =>
      refine absurd ⟨?_, hfiles⟩ h
      split at hown
      · rename_i hfolder
        exact .inl hfolder
      · exact .inr hown

/-- A leaf that is sized by a record loses its size with the record, and other leaves keep theirs. -/
theorem restoredSize_eq_iff (hpackages : v.packages = w.packages)
    (hclears : w.content.Clears v.content) (m : RestoreMessage) (l : Package) :
    restoredSize v m l = restoredSize w m l ↔ (SizedByRecord w m l →
      v.content.records.records.find? l.nodeId = w.content.records.records.find? l.nodeId) := by
  by_cases hsized : (m.package.kind.isCollection ∨ m.package.size = none) ∧
    w.packages.tables.fileSum l.id = none
  · obtain ⟨hmessage, hfiles⟩ := hsized
    rw [restoredSize_of_record hmessage hfiles,
      restoredSize_of_record hmessage (by rw [hpackages]; exact hfiles)]
    have hrecords : v.content.records.records.find? l.nodeId =
        w.content.records.records.find? l.nodeId ∨
        v.content.records.records.find? l.nodeId = none := hclears.kept_or_gone l.nodeId
    rcases hrecords with hkept | hgone
    · simp only [hkept, implies_true]
    · cases hrecord : w.content.records.records.find? l.nodeId with
      | none => simp only [hgone, implies_true]
      | some r =>
        rw [hgone]
        constructor
        · intro hzero hby
          obtain ⟨r', hr', hne⟩ := hby.record
          rw [hrecord] at hr'
          cases hr'
          exact absurd hzero.symm hne
        · intro h
          by_contra hne
          cases h ⟨hmessage, hfiles, r, hrecord, fun hzero => hne hzero.symm⟩
  · rw [restoredSize_of_not_record hpackages hsized]
    exact iff_of_true rfl fun hby => absurd ⟨hby.message, hby.files⟩ hsized

/-! ## Totals that differ -/

/-- When some of the leaves differ in size, the total of one of them shows it. -/
theorem exists_sum_count_ne_zero {t : Tables} {rows : List Package} {d : Package → Int}
    (hk : t.Keyed) (hrows : rows ⊆ t.packages)
    (hclimbs : ∀ l ∈ rows, d l ≠ 0 → Climbs t.links l.parentId (t.above l.parentId))
    (hne : ∃ l ∈ rows, d l ≠ 0) :
    ∃ l ∈ rows, (rows.map fun x => d x * (x.id :: t.above x.parentId).count l.id).sum ≠ 0 := by
  obtain ⟨l₀, hl₀, hd₀⟩ := hne
  -- the deepest leaf that differs: the way up from another one through it would be longer
  obtain ⟨l, hl, hmax⟩ := Finset.exists_max_image (rows.filter fun l => d l ≠ 0).toFinset
    (fun l => (t.above l.parentId).length)
    ⟨l₀, List.mem_toFinset.2 (List.mem_filter.2 ⟨hl₀, decide_eq_true hd₀⟩)⟩
  simp only [List.mem_toFinset, List.mem_filter, decide_eq_true_eq, and_imp] at hl hmax
  obtain ⟨hmem, hd⟩ := hl
  have hclimb := hclimbs l hmem hd
  have hlink := hk.links_eq_some_iff.2 ⟨l, hrows hmem, rfl, rfl⟩
  have hothers : ∀ x, x ≠ l → x ∈ rows → d x * (x.id :: t.above x.parentId).count l.id = 0 := by
    intro x hxl hx
    by_cases hzero : d x = 0
    · rw [hzero, Int.zero_mul]
    · rw [List.count_eq_zero_of_not_mem]
      · exact Int.mul_zero _
      · intro hway
        rcases List.mem_cons.1 hway with hid | habove
        · exact hxl (hk.eq_of_id (hrows hx) (hrows hmem) hid.symm)
        · obtain ⟨parent, rest, hlink', hrest, hlt⟩ := (hclimbs x hx hzero).rest habove
          obtain rfl := Option.some.inj (hlink.symm.trans hlink')
          rw [← hclimb.unique hrest] at hlt
          exact absurd (hmax x hx hzero) (Nat.not_le.2 hlt)
  refine ⟨l, hmem, ?_⟩
  rw [List.sum_map_eq_nsmul_single l _ hothers,
    List.count_eq_one_of_mem (hk.nodup_way (hrows hmem) hclimb) List.mem_cons_self]
  have hcount : rows.count l ≠ 0 := (List.count_pos_iff.2 hmem).ne'
  simp [hcount, hd]

/-- Two workspaces with the same packages come to the same totals exactly when each leaf has the same
size in both. -/
theorem sameTotals_iff (hpackages : v.packages = w.packages) (hk : w.packages.tables.Keyed)
    (ha : Counts w m a) (hb : Counts v m b) :
    SameTotals a b ↔ ∀ l ∈ leafRows w.packages.tables w.packages.way m,
      restoredSize v m l = restoredSize w m l := by
  obtain ⟨hpackages', hdatasets', horganizations', hclimbs'⟩ := hb
  simp only [hpackages] at hpackages' hdatasets' horganizations' hclimbs'
  constructor
  · intro hsame
    by_contra hnot
    simp only [not_forall] at hnot
    obtain ⟨l₀, hl₀, hne⟩ := hnot
    -- one of two sizes that differ is not zero, and a leaf with a size was climbed up from
    have hclimbs : ∀ x ∈ leafRows w.packages.tables w.packages.way m,
        restoredSize v m x - restoredSize w m x ≠ 0 →
        Climbs w.packages.tables.links x.parentId (w.packages.tables.above x.parentId) := by
      intro x hx hd
      by_cases hzero : restoredSize w m x = 0
      · rw [hzero, Int.sub_zero] at hd
        exact hclimbs' x hx hd
      · exact ha.climbs x hx hzero
    obtain ⟨l, -, hsum⟩ := exists_sum_count_ne_zero hk
      (fun _ => Restoration.mem_of_mem_leafRows) hclimbs ⟨l₀, hl₀, fun hd => hne (by omega)⟩
    have htotal := hsame.packages l.id
    rw [ha.packages l.id, hpackages' l.id] at htotal
    refine hsum (Int.add_left_cancel (a := ((leafRows w.packages.tables w.packages.way m).map
      fun x => restoredSize w m x *
        (x.id :: w.packages.tables.above x.parentId).count l.id).sum) ?_)
    rw [← List.sum_map_add, Int.add_zero]
    refine Eq.trans (congrArg List.sum (List.map_congr_left fun x _ => ?_))
      (Int.add_left_cancel htotal).symm
    rw [← Int.add_mul]
    exact congrArg (· * _) (by omega)
  · intro hsizes
    refine ⟨fun id => ?_, fun id => ?_, fun id => ?_⟩
    · rw [ha.packages id, hpackages' id]
      refine congrArg (_ + List.sum ·) (List.map_congr_left fun l hl => ?_)
      rw [hsizes l hl]
    · rw [ha.datasets id, hdatasets' id, List.map_congr_left hsizes]
    · rw [ha.organizations id, horganizations' id, List.map_congr_left hsizes]

/-- After failed deliveries a delivery that is done counts what it would have counted at the start,
in every total, exactly when each leaf that is sized by its delete record still has that record. -/
theorem totals_redelivered_iff (hk : w.packages.tables.Keyed)
    (hfirst : restore token m (w.withFaults f) = (.done events, a))
    (hfailed : FailedDeliveries m w v)
    (hlast : restore token' m (v.withFaults g) = (.done events', b)) :
    SameTotals a b ↔ ∀ l ∈ leafRows w.packages.tables w.packages.way m, SizedByRecord w m l →
      v.content.records.records.find? l.nodeId = w.content.records.records.find? l.nodeId := by
  obtain ⟨hpackages, hclears⟩ := hfailed.kept
  have hkeyed : v.packages.tables.Keyed := by rw [hpackages]; exact hk
  have hfirstCounts := (counts_of_restore (w := w.withFaults f) hk hfirst).2
  have hlastCounts := (counts_of_restore (w := v.withFaults g) hkeyed hlast).2
  rw [sameTotals_iff (w := w.withFaults f) (v := v.withFaults g) hpackages hk hfirstCounts
    hlastCounts]
  exact forall₂_congr fun l _ => restoredSize_eq_iff hpackages hclears m l

/-- The small workspace after one delivery under some faults. -/
def sampleAfter (f : Faults) : Workspace :=
  (restore sampleToken sampleMessage (sample.withFaults f)).2

/-- In the small workspace a delivery that fails because no request is answered changes no total. -/
theorem totals_redelivered_sample :
    ∃ events a events' b,
      restore sampleToken sampleMessage (sample.withFaults .none) = (.done events, a) ∧
      FailedDeliveries sampleMessage sample (sampleAfter ⟨[], true, 0⟩) ∧
      restore sampleToken sampleMessage ((sampleAfter ⟨[], true, 0⟩).withFaults .none) =
        (.done events', b) ∧
      SameTotals a b := by
  obtain ⟨events, hfirst⟩ := restore_of_isDone sampleToken sampleMessage (sample.withFaults .none)
    (by decide +kernel)
  have hfailed : FailedDeliveries sampleMessage sample (sampleAfter ⟨[], true, 0⟩) :=
    .next _ _ .none (by decide +kernel)
  obtain ⟨events', hlast⟩ := restore_of_isDone sampleToken sampleMessage
    ((sampleAfter ⟨[], true, 0⟩).withFaults .none) (by decide +kernel)
  have hrecords : (sampleAfter ⟨[], true, 0⟩).content.records.records =
      sample.content.records.records := by decide +kernel
  refine ⟨events, _, events', _, hfirst, hfailed, hlast, ?_⟩
  refine (totals_redelivered_iff forest_sampleTables.keyed hfirst hfailed hlast).2 fun l _ _ => ?_
  rw [hrecords]

/-- In the small workspace a delivery that fails because one marker cannot be deleted loses the size
of the other leaf with a record: a single delivery adds 14 to the organization, and a delivery
after the failed one 9. -/
theorem totals_redelivered_differ :
    ∃ events a events' b,
      restore sampleToken sampleMessage (sample.withFaults .none) = (.done events, a) ∧
      FailedDeliveries sampleMessage sample (sampleAfter ⟨["y"], false, 0⟩) ∧
      restore sampleToken sampleMessage ((sampleAfter ⟨["y"], false, 0⟩).withFaults .none) =
        (.done events', b) ∧
      a.packages.tables.organizationStorage.get 1 = 14 ∧
      b.packages.tables.organizationStorage.get 1 = 9 ∧ ¬ SameTotals a b := by
  obtain ⟨events, hfirst⟩ := restore_of_isDone sampleToken sampleMessage (sample.withFaults .none)
    (by decide +kernel)
  have hfailed : FailedDeliveries sampleMessage sample (sampleAfter ⟨["y"], false, 0⟩) :=
    .next _ _ .none (by decide +kernel)
  obtain ⟨events', hlast⟩ := restore_of_isDone sampleToken sampleMessage
    ((sampleAfter ⟨["y"], false, 0⟩).withFaults .none) (by decide +kernel)
  refine ⟨events, _, events', _, hfirst, hfailed, hlast, by decide +kernel, by decide +kernel, ?_⟩
  intro hsame
  exact absurd (hsame.organizations 1) (by decide +kernel)

end Salvage.Workspace
