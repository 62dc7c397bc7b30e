import Mathlib.Data.List.Nodup
import Salvage.Proofs.Content

/-!
# What bringing content back takes away

Three things may become of a leaf whose content is brought back. It has no record, and nothing is done.
Its record tells of no marker, and only the record goes. Or its record tells of a marker, and both go
unless the key is one that fails; then both stay. When requests fail nothing goes at all, provided that
there is a request to make: without a marker to delete the objects are not asked. That makes three ways
to end, and in each it can be said of every record and of every version whether it is still there.
-/

namespace Salvage

/-- The record tells of a marker under a key that fails. -/
def DeleteRecord.Stuck (failingKeys : List String) (r : DeleteRecord) : Prop :=
  r.versionId ≠ "" ∧ r.key ∈ failingKeys

instance (failingKeys : List String) (r : DeleteRecord) : Decidable (r.Stuck failingKeys) :=
  inferInstanceAs (Decidable (_ ∧ _))

namespace Content

/-- One of some node ids has the record. -/
def Finds (c : Content) (nodeIds : List String) (r : DeleteRecord) : Prop :=
  r.nodeId ∈ nodeIds ∧ c.recordOf r.nodeId = some r

/-- Some of the delete records are gone with the markers that they told of, and nothing else is. -/
structure Removes (which : DeleteRecord → Prop) (c c' : Content) : Prop where
  records : ∀ n r, c'.recordOf n = some r ↔ c.recordOf n = some r ∧ ¬ which r
  versions : ∀ bucket key s, s ∈ c'.objects.versions bucket key ↔
    s ∈ c.objects.versions bucket key ∧
      ¬ ∃ r, c.recordOf r.nodeId = some r ∧ which r ∧ r.versionId ≠ "" ∧
        r.bucket = bucket ∧ r.key = key ∧ r.versionId = s.versionId
  order : ∀ bucket key, (c'.objects.versions bucket key).Sublist (c.objects.versions bucket key)

/-- Bringing back the content of some leaves ended in a way that fits what it left. -/
structure Undeletes (nodeIds : List String) (c : Content) (outcome : Outcome RecordSet)
    (c' : Content) : Prop where
  /-- It is done if requests are answered or none is to be made, and no marker has to stay. -/
  done_iff : outcome.isDone ↔
    (c.objects.isDown = false ∨ ∀ r, c.Finds nodeIds r → r.versionId = "") ∧
      ∀ r, c.Finds nodeIds r → ¬ r.Stuck c.objects.failingKeys
  /-- Then the records found are returned, and they are gone with their markers. -/
  done : ∀ found, outcome = .done found →
    (∀ n, found.find? n = if n ∈ nodeIds then c.recordOf n else none) ∧
      Removes (fun r => r.nodeId ∈ nodeIds) c c'
  /-- A marker that has to stay is an error, keeps its record and keeps no other. -/
  stuck : c.objects.isDown = false →
    (∃ r, c.Finds nodeIds r ∧ r.Stuck c.objects.failingKeys) →
    (∃ text, outcome = .failed (.objectStore text)) ∧
      Removes (fun r => r.nodeId ∈ nodeIds ∧ ¬ r.Stuck c.objects.failingKeys) c c' ∧
      ∀ r, c.Finds nodeIds r → r.Stuck c.objects.failingKeys →
        c'.recordOf r.nodeId = some r ∧
          c'.objects.versions r.bucket r.key = c.objects.versions r.bucket r.key
  /-- A request that fails is an error and changes nothing. -/
  refused : c.objects.isDown = true → (∃ r, c.Finds nodeIds r ∧ r.versionId ≠ "") →
    (∃ e, outcome = .failed e) ∧ c'.records.records = c.records.records ∧ c'.objects = c.objects

variable {c c' : Content} {nodeIds : List String} {keys : List String}

/-- No node id has a record to tell of a marker when there is no marker to delete. -/
theorem markersOf_eq_nil_iff :
    c.markersOf nodeIds = [] ↔ ∀ r, c.Finds nodeIds r → r.versionId = "" := by
  rw [List.eq_nil_iff_forall_not_mem]
  constructor
  · intro hnone r hr
    by_contra hhidden
    exact hnone (markerOf r) (mem_markersOf_iff.2 ⟨r, hr.1, hr.2, hhidden, rfl⟩)
  · intro hplain v hv
    obtain ⟨r, hn, hfound, hhidden, -⟩ := mem_markersOf_iff.1 hv
    exact hhidden (hplain r ⟨hn, hfound⟩)

/-- The markers that may be deleted are those of records that do not have to stay. -/
theorem mem_allowed_iff {v : ObjectVersion} :
    v ∈ (c.markersOf nodeIds).filter (ObjectVersion.allowed keys) ↔
      ∃ r, c.Finds nodeIds r ∧ r.versionId ≠ "" ∧ ¬ r.Stuck keys ∧ markerOf r = v := by
  simp only [List.mem_filter, mem_markersOf_iff, ObjectVersion.allowed, Bool.not_eq_true',
    ← Bool.not_eq_true, List.contains_iff_mem]
  constructor
  · rintro ⟨⟨r, hn, hfound, hhidden, rfl⟩, hkey⟩
    exact ⟨r, ⟨hn, hfound⟩, hhidden, fun hstuck => hkey hstuck.2, rfl⟩
  · rintro ⟨r, ⟨hn, hfound⟩, hhidden, hfree, rfl⟩
    exact ⟨⟨r, hn, hfound, hhidden, rfl⟩, fun hkey => hfree ⟨hhidden, hkey⟩⟩

/-- A deletion reports no error exactly when no marker has to stay. -/
theorem errors_eq_nil_iff {order : List ObjectVersion} {report : DeletionReport}
    (hperm : order.Perm (c.markersOf nodeIds)) (hreports : ObjectTable.Reports keys order report) :
    report.errors = [] ↔ ∀ r, c.Finds nodeIds r → ¬ r.Stuck keys := by
  rw [hreports.errors, List.map_eq_nil_iff, List.filter_eq_nil_iff]
  simp only [hperm.mem_iff, mem_markersOf_iff, ObjectVersion.allowed, Bool.not_not,
    List.contains_iff_mem]
  constructor
  · intro hall r hr hstuck
    exact hall (markerOf r) ⟨r, hr.1, hr.2, hstuck.1, rfl⟩ hstuck.2
  · rintro hfree _ ⟨r, hn, hfound, hhidden, rfl⟩ hkey
    exact hfree r ⟨hn, hfound⟩ ⟨hhidden, hkey⟩

/-- The records to remove after a deletion are those found that do not have to stay. -/
theorem mem_cleared_iff_of_found {order : List ObjectVersion} {report : DeletionReport}
    {r : DeleteRecord} (hperm : order.Perm (c.markersOf nodeIds))
    (hreports : ObjectTable.Reports keys order report) (hr : c.recordOf r.nodeId = some r) :
    r.nodeId ∈ ((nodeIds.filterMap c.recordOf).filter fun r => r.versionId.isEmpty).map
        DeleteRecord.nodeId ++ report.deleted.map DeletedVersion.nodeId ↔
      r.nodeId ∈ nodeIds ∧ ¬ r.Stuck keys := by
  rw [mem_cleared_iff hperm hreports]
  simp only [ObjectVersion.allowed, Bool.not_eq_true', ← Bool.not_eq_true, List.contains_iff_mem]
  constructor
  · rintro ⟨r', hr', hnode, hwhy⟩
    obtain ⟨n, hn, hfind⟩ := List.mem_filterMap.1 hr'
    obtain rfl : n = r.nodeId := (RecordSet.nodeId_of_find? hfind).symm.trans hnode
    obtain rfl : r' = r := Option.some.inj (hfind.symm.trans hr)
    refine ⟨hn, fun hstuck => ?_⟩
    rcases hwhy with hempty | ⟨-, hkey⟩
    · exact hstuck.1 hempty
    · exact hkey hstuck.2
  · rintro ⟨hn, hfree⟩
    refine ⟨r, List.mem_filterMap.2 ⟨r.nodeId, hn, hr⟩, rfl, ?_⟩
    by_cases hempty : r.versionId = ""
    · exact .inl hempty
    · exact .inr ⟨hempty, fun hkey => hfree ⟨hempty, hkey⟩⟩

/-- Where version ids differ, what is left after the allowed markers and their records are removed is
exactly what does not belong to them. -/
theorem removes_of_erases (gone : String → Bool)
    (hids : ∀ bucket key, ((c.objects.versions bucket key).map StoredVersion.versionId).Nodup)
    (herases : ObjectTable.Erases ((c.markersOf nodeIds).filter (ObjectVersion.allowed keys))
      c.objects c'.objects)
    (hrows : c'.records.records.rows = c.records.records.rows.filter fun r => !gone r.nodeId)
    (hgone : ∀ r, c.recordOf r.nodeId = some r →
      (gone r.nodeId = true ↔ r.nodeId ∈ nodeIds ∧ ¬ r.Stuck keys)) :
    Removes (fun r => r.nodeId ∈ nodeIds ∧ ¬ r.Stuck keys) c c' := by
  refine ⟨fun n r => ?_, fun bucket key s => ?_, herases.sublist⟩
  · have hrecords : c'.records.records = ⟨c.records.records.rows.filter fun r => !gone r.nodeId⟩ :=
      congrArg RecordSet.mk hrows
    have hafter : c'.recordOf n = if gone n then none else c.recordOf n := by
      rw [recordOf, hrecords]
      exact RecordSet.find?_filter_rows _ gone n
    rw [hafter, Option.ite_none_left_eq_some, and_comm, and_congr_right_iff]
    intro hr
    obtain rfl := RecordSet.nodeId_of_find? hr
    exact not_congr (hgone r hr)
  · rw [herases.versions_eq_filter (hids bucket key), List.mem_filter, Bool.not_eq_true',
      ← Bool.not_eq_true, List.any_eq_true]
    refine and_congr_right fun _ => not_congr ?_
    simp only [mem_allowed_iff, Bool.and_eq_true, beq_iff_eq]
    constructor
    · rintro ⟨_, ⟨r, ⟨hn, hfound⟩, hhidden, hfree, rfl⟩, ⟨hbucket, hkey⟩, hid⟩
      exact ⟨r, hfound, ⟨hn, hfree⟩, hhidden, hbucket, hkey, hid.symm⟩
    · rintro ⟨r, hfound, ⟨hn, hfree⟩, hhidden, hbucket, hkey, hid⟩
      exact ⟨_, ⟨r, ⟨hn, hfound⟩, hhidden, hfree, rfl⟩, ⟨hbucket, hkey⟩, hid.symm⟩

variable {which which' : DeleteRecord → Prop}

/-- What is removed depends on which of the records that there are go. -/
theorem Removes.congr (h : Removes which c c')
    (hsame : ∀ r, c.recordOf r.nodeId = some r → (which r ↔ which' r)) : Removes which' c c' := by
  refine ⟨fun n r => ?_, fun bucket key s => ?_, h.order⟩
  · rw [h.records, and_congr_right_iff]
    intro hr
    obtain rfl := RecordSet.nodeId_of_find? hr
    exact not_congr (hsame r hr)
  · rw [h.versions]
    refine and_congr_right fun _ => not_congr (exists_congr fun r => and_congr_right fun hr => ?_)
    rw [hsame r hr]

/-- Where version ids differ, all versions under a key are still there that no removed record told of. -/
theorem Removes.versions_eq (h : Removes which c c') {bucket key : String}
    (hids : ((c.objects.versions bucket key).map StoredVersion.versionId).Nodup)
    (hnone : ∀ r, which r → r.versionId ≠ "" → r.key ≠ key) :
    c'.objects.versions bucket key = c.objects.versions bucket key := by
  have hkept : c.objects.versions bucket key ⊆ c'.objects.versions bucket key := by
    intro s hs
    refine (h.versions bucket key s).2 ⟨hs, ?_⟩
    rintro ⟨r, -, hgone, hhidden, -, hkey, -⟩
    exact hnone r hgone hhidden hkey
  have hnodup : (c.objects.versions bucket key).Nodup := List.Nodup.of_map _ hids
  exact (h.order bucket key).eq_of_length_le (List.subperm_of_subset hnodup hkept).length_le

/-- After the records are read, bringing content back goes on with the deletion of their markers. -/
theorem undelete_of_read {found : RecordSet} {table : RecordTable} (hsome : nodeIds ≠ [])
    (hread : RecordTable.readAll nodeIds c.records = (.done found, table))
    (hfound : ∀ n, found.find? n = if n ∈ nodeIds then c.recordOf n else none) :
    undelete nodeIds c = (do
      let report ← onObjects (ObjectTable.deleteAll (c.markersOf nodeIds))
      onRecords (RecordTable.removeAll
        (((nodeIds.filterMap c.recordOf).filter fun r => r.versionId.isEmpty).map
          DeleteRecord.nodeId ++ report.deleted.map DeletedVersion.nodeId))
      match report.errors with
      | [] => return found
      | first :: _ => Action.fail (markersLeft report.errors first (c.markersOf nodeIds).length) :
        Action Content RecordSet) { c with records := table } := by
  have hfirst : onRecords (RecordTable.readAll nodeIds) c =
      (.done found, { c with records := table }) := Action.on_apply_of hread
  have hgiven : nodeIds.isEmpty = false := by simpa using hsome
  rw [undelete]
  simp only [hgiven, Bool.false_eq_true, if_false]
  rw [Action.bind_of_done hfirst]
  simp only [List.partition_eq_filter_filter, Function.comp_def, Bool.not_not,
    filterMap_read hfound]
  rfl

/-- When requests are answered or none is to be made, everything is removed that does not have to stay,
and nothing but a marker that has to stay is an error. -/
theorem undelete_answered (hfree : c.records.throttled = 0)
    (hids : ∀ bucket key, ((c.objects.versions bucket key).map StoredVersion.versionId).Nodup)
    (hanswered : c.objects.isDown = false ∨ c.markersOf nodeIds = []) :
    ∃ found c', (∀ n, found.find? n = if n ∈ nodeIds then c.recordOf n else none) ∧
      Removes (fun r => r.nodeId ∈ nodeIds ∧ ¬ r.Stuck c.objects.failingKeys) c c' ∧
      ((∀ r, c.Finds nodeIds r → ¬ r.Stuck c.objects.failingKeys) →
        undelete nodeIds c = (.done found, c')) ∧
      ((∃ r, c.Finds nodeIds r ∧ r.Stuck c.objects.failingKeys) →
        ∃ text, undelete nodeIds c = (.failed (.objectStore text), c')) := by
  rcases nodeIds with _ | ⟨nodeId, others⟩
  · refine ⟨.empty, c, fun _ => rfl, ?_, fun _ => rfl, fun ⟨r, hr, _⟩ => absurd hr.1 List.not_mem_nil⟩
    exact removes_of_erases (fun _ => false) hids (ObjectTable.erases_nil _) (by simp) (by simp)
  · let nodeIds := nodeId :: others
    obtain ⟨found, table, hread, hfree'⟩ := RecordTable.readAll_succeeds nodeIds hfree
    obtain ⟨hsame, hfound⟩ := RecordTable.readAll_done hread
    obtain ⟨report, objects, hdelete⟩ := ObjectTable.deleteAll_answered hanswered
    obtain ⟨-, herases, order, hperm, hreports⟩ := ObjectTable.deleteAll_done ⟨rfl, rfl⟩ hdelete
    let cleared := ((nodeIds.filterMap c.recordOf).filter fun r => r.versionId.isEmpty).map
      DeleteRecord.nodeId ++ report.deleted.map DeletedVersion.nodeId
    obtain ⟨table', hremove, -⟩ := RecordTable.removeAll_succeeds cleared hfree'
    have hrows := RecordTable.removeAll_done hremove
    rw [hsame] at hrows
    have hsecond : onObjects (ObjectTable.deleteAll (c.markersOf nodeIds)) { c with records := table } =
        (.done report, ⟨table, objects⟩) := Action.on_apply_of hdelete
    have hthird : onRecords (RecordTable.removeAll cleared) (⟨table, objects⟩ : Content) =
        (.done (), ⟨table', objects⟩) := Action.on_apply_of hremove
    have hrun := undelete_of_read (c := c) (List.cons_ne_nil nodeId others) hread hfound
    rw [Action.bind_of_done hsecond, Action.bind_of_done hthird] at hrun
    have herrors := errors_eq_nil_iff hperm hreports
    refine ⟨found, ⟨table', objects⟩, hfound, ?_, fun hfree => ?_, fun hstuck => ?_⟩
    · refine removes_of_erases cleared.contains hids herases hrows fun r hr => ?_
      rw [List.contains_iff_mem]
      exact mem_cleared_iff_of_found hperm hreports hr
    · rw [hrun, herrors.2 hfree]
      rfl
    · cases hlist : report.errors with
      | nil =>
        obtain ⟨r, hr, hstay⟩ := hstuck
        exact absurd hstay (herrors.1 hlist r hr)
      | cons first rest =>
        rw [hrun, hlist]
        exact ⟨_, rfl⟩

/-- When requests fail and there is one to make, nothing is removed. -/
theorem undelete_refused (hfree : c.records.throttled = 0) (hdown : c.objects.isDown = true)
    (hmarkers : c.markersOf nodeIds ≠ []) :
    ∃ e table, undelete nodeIds c = (.failed e, { c with records := table }) ∧
      table.records = c.records.records := by
  have hsome : nodeIds ≠ [] := by
    rintro rfl
    exact hmarkers rfl
  obtain ⟨found, table, hread, -⟩ := RecordTable.readAll_succeeds nodeIds hfree
  obtain ⟨hsame, hfound⟩ := RecordTable.readAll_done hread
  obtain ⟨e, hdelete⟩ := ObjectTable.deleteAll_refused hdown hmarkers
  have hsecond : onObjects (ObjectTable.deleteAll (c.markersOf nodeIds)) { c with records := table } =
      (.failed e, { c with records := table }) := Action.on_apply_of hdelete
  exact ⟨e, table, (undelete_of_read hsome hread hfound).trans (Action.bind_of_failed hsecond), hsame⟩

/-! ## The three ways to end -/

/-- When nothing has to stay, everything that was found is returned and gone. -/
theorem undeletes_of_done {found : RecordSet}
    (hfound : ∀ n, found.find? n = if n ∈ nodeIds then c.recordOf n else none)
    (hremoves : Removes (fun r => r.nodeId ∈ nodeIds ∧ ¬ r.Stuck c.objects.failingKeys) c c')
    (hanswered : c.objects.isDown = false ∨ ∀ r, c.Finds nodeIds r → r.versionId = "")
    (hnone : ∀ r, c.Finds nodeIds r → ¬ r.Stuck c.objects.failingKeys) :
    Undeletes nodeIds c (.done found) c' where
  done_iff := ⟨fun _ => ⟨hanswered, hnone⟩, fun _ => rfl⟩
  done := by
    rintro _ ⟨⟩
    refine ⟨hfound, hremoves.congr fun r hr => ?_⟩
    exact ⟨And.left, fun hn => ⟨hn, hnone r ⟨hn, hr⟩⟩⟩
  stuck := fun _ ⟨r, hr, hstay⟩ => absurd hstay (hnone r hr)
  refused := by
    rintro hdown ⟨r, hr, hhidden⟩
    rcases hanswered with hup | hplain
    · rw [hup] at hdown
      cases hdown
    · exact absurd (hplain r hr) hhidden

/-- When a marker has to stay, its record stays too. -/
theorem undeletes_of_stuck {text : String}
    (hids : ∀ bucket key, ((c.objects.versions bucket key).map StoredVersion.versionId).Nodup)
    (hremoves : Removes (fun r => r.nodeId ∈ nodeIds ∧ ¬ r.Stuck c.objects.failingKeys) c c')
    (hup : c.objects.isDown = false)
    (hstuck : ∃ r, c.Finds nodeIds r ∧ r.Stuck c.objects.failingKeys) :
    Undeletes nodeIds c (.failed (.objectStore text)) c' where
  done_iff := by
    obtain ⟨r, hr, hstay⟩ := hstuck
    exact ⟨nofun, fun hgiven => absurd hstay (hgiven.2 r hr)⟩
  done := nofun
  stuck := by
    refine fun _ _ => ⟨⟨text, rfl⟩, hremoves, fun r hr hstay => ⟨?_, ?_⟩⟩
    · exact (hremoves.records r.nodeId r).2 ⟨hr.2, fun hgone => hgone.2 hstay⟩
    · refine hremoves.versions_eq (hids r.bucket r.key) fun r' hgone hhidden hkey => ?_
      exact hgone.2 ⟨hhidden, hkey ▸ hstay.2⟩
  refused := by
    intro hdown
    rw [hup] at hdown
    cases hdown

/-- When a request fails, nothing has changed. -/
theorem undeletes_of_refused {e : Error} {table : RecordTable} (hdown : c.objects.isDown = true)
    (hmarkers : c.markersOf nodeIds ≠ []) (hsame : table.records = c.records.records) :
    Undeletes nodeIds c (.failed e) { c with records := table } where
  done_iff := by
    refine ⟨nofun, fun hgiven => ?_⟩
    rcases hgiven.1 with hup | hplain
    · rw [hup] at hdown
      cases hdown
    · exact absurd (markersOf_eq_nil_iff.2 hplain) hmarkers
  done := nofun
  stuck := by
    intro hup
    rw [hup] at hdown
    cases hdown
  refused := fun _ _ => ⟨⟨e, rfl⟩, hsame, rfl⟩

/-- Bringing content back does exactly its share: whatever the leaves, the records, the objects and
their faults are, how it ends and what is left afterwards are told by the records of its leaves. -/
theorem undelete_exact (nodeIds : List String) (c : Content) (hfree : c.records.throttled = 0)
    (hids : ∀ bucket key, ((c.objects.versions bucket key).map StoredVersion.versionId).Nodup) :
    Undeletes nodeIds c (undelete nodeIds c).1 (undelete nodeIds c).2 := by
  by_cases hanswered : c.objects.isDown = false ∨ c.markersOf nodeIds = []
  · obtain ⟨found, c', hfound, hremoves, hdone, hfailed⟩ := undelete_answered hfree hids hanswered
    rw [markersOf_eq_nil_iff] at hanswered
    by_cases hstuck : ∃ r, c.Finds nodeIds r ∧ r.Stuck c.objects.failingKeys
    · obtain ⟨text, hrun⟩ := hfailed hstuck
      have hup : c.objects.isDown = false := by
        obtain ⟨r, hr, hstay⟩ := hstuck
        exact hanswered.resolve_right fun hplain => hstay.1 (hplain r hr)
      rw [hrun]
      exact undeletes_of_stuck hids hremoves hup hstuck
    · have hnone : ∀ r, c.Finds nodeIds r → ¬ r.Stuck c.objects.failingKeys :=
        fun r hr hstay => hstuck ⟨r, hr, hstay⟩
      rw [hdone hnone]
      exact undeletes_of_done hfound hremoves hanswered hnone
  · rw [not_or, Bool.not_eq_false] at hanswered
    obtain ⟨hdown, hmarkers⟩ := hanswered
    obtain ⟨e, table, hrun, hsame⟩ := undelete_refused hfree hdown hmarkers
    rw [hrun]
    exact undeletes_of_refused hdown hmarkers hsame

/-- Content of three leaves: one can be brought back, one is under a key that fails, and one was never
hidden. -/
def partlyDenied : Content where
  records := ⟨⟨[⟨"a", "store", "x", "v1", none⟩, ⟨"b", "store", "y", "v2", none⟩,
    ⟨"p", "store", "z", "", none⟩]⟩, 0, [], []⟩
  objects := ⟨[⟨"store", "x", [⟨"v0", false⟩, ⟨"v1", true⟩]⟩, ⟨"store", "y", [⟨"v2", true⟩]⟩], ["y"],
    false, []⟩

/-- Only the leaf under the key that fails keeps its record and its marker. -/
theorem undelete_exact_partlyDenied :
    ∃ text c', undelete ["p", "b", "a"] partlyDenied = (.failed (.objectStore text), c') ∧
      c'.recordOf "a" = none ∧ c'.recordOf "p" = none ∧
      c'.recordOf "b" = some ⟨"b", "store", "y", "v2", none⟩ ∧
      ⟨"v1", true⟩ ∉ c'.objects.versions "store" "x" ∧
      c'.objects.versions "store" "y" = [⟨"v2", true⟩] := by
  have hexact := undelete_exact ["p", "b", "a"] partlyDenied rfl
    (ObjectTable.nodup_versions (by decide))
  have hb : partlyDenied.Finds ["p", "b", "a"] ⟨"b", "store", "y", "v2", none⟩ := ⟨by decide, rfl⟩
  have hstuck : DeleteRecord.Stuck ["y"] ⟨"b", "store", "y", "v2", none⟩ := by decide
  obtain ⟨⟨text, herror⟩, hremoves, hkept⟩ := hexact.stuck rfl ⟨_, hb, hstuck⟩
  obtain ⟨hrecord, hversions⟩ := hkept _ hb hstuck
  have hgone (n : String) (hn : n ∈ ["p", "b", "a"])
      (hfree : ∀ r, partlyDenied.recordOf n = some r → ¬ r.Stuck ["y"]) :
      (undelete ["p", "b", "a"] partlyDenied).2.recordOf n = none := by
    refine Option.eq_none_iff_forall_ne_some.2 fun r hr => ?_
    obtain ⟨hbefore, hnot⟩ := (hremoves.records n r).1 hr
    exact hnot ⟨RecordSet.nodeId_of_find? hbefore ▸ hn, hfree r hbefore⟩
  have ha : ∀ r, partlyDenied.recordOf "a" = some r → ¬ r.Stuck ["y"] := by
    rintro _ ⟨⟩
    decide
  have hp : ∀ r, partlyDenied.recordOf "p" = some r → ¬ r.Stuck ["y"] := by
    rintro _ ⟨⟩
    decide
  refine ⟨text, _, Prod.ext herror rfl, hgone "a" (by decide) ha, hgone "p" (by decide) hp,
    hrecord, ?_, hversions⟩
  intro hmarker
  refine ((hremoves.versions "store" "x" _).1 hmarker).2 ⟨⟨"a", "store", "x", "v1", none⟩, rfl, ?_⟩
  exact ⟨⟨by decide, ha _ rfl⟩, by decide, rfl, rfl, rfl⟩

end Content

end Salvage
