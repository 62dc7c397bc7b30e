import Salvage.Content
import Salvage.Proofs.Objects
import Salvage.Proofs.Records

/-!
# Bringing content back, step by step

Bringing content back returns the delete records that were there at the start, whatever it removes.
When it is done the records of all its leaves are gone and so are their markers. When it ends
anywhere before that, a record is gone only if it told of no marker or its marker is gone, and every
other record is as it was.
-/

namespace Salvage.Content

variable {c c' c'' : Content} {nodeIds : List String} {α : Type}

/-! ## Parts of the content -/

/-- What is done with the delete records leaves the objects alone. -/
theorem onRecords_eq_done {x : Action RecordTable α} {a : α} :
    onRecords x c = (.done a, c') ↔
      ∃ table, x c.records = (.done a, table) ∧ c' = { c with records := table } :=
  Action.on_eq_done

/-- What is done with the objects leaves the delete records alone. -/
theorem onObjects_eq_done {x : Action ObjectTable α} {a : α} :
    onObjects x c = (.done a, c') ↔
      ∃ table, x c.objects = (.done a, table) ∧ c' = { c with objects := table } :=
  Action.on_eq_done

/-- The record of a node id, if there is one. -/
def recordOf (c : Content) (nodeId : String) : Option DeleteRecord :=
  c.records.records.find? nodeId

/-- The markers that the records of some node ids tell of. -/
def markersOf (c : Content) (nodeIds : List String) : List ObjectVersion :=
  ((nodeIds.filterMap c.recordOf).filter fun r => !r.versionId.isEmpty).map markerOf

/-- A marker is one of those of some node ids when a record of one of these tells of it. -/
theorem mem_markersOf_iff {v : ObjectVersion} :
    v ∈ c.markersOf nodeIds ↔
      ∃ r, r.nodeId ∈ nodeIds ∧ c.recordOf r.nodeId = some r ∧ r.versionId ≠ "" ∧ markerOf r = v := by
  simp only [markersOf, List.mem_map, List.mem_filter, List.mem_filterMap, Bool.not_eq_true',
    String.isEmpty_eq_false_iff]
  constructor
  · intro hgiven
    obtain ⟨r, ⟨⟨n, hn, hfound⟩, hhidden⟩, hv⟩ := hgiven
    obtain rfl := RecordSet.nodeId_of_find? hfound
    exact ⟨r, hn, hfound, hhidden, hv⟩
  · intro hgiven
    obtain ⟨r, hn, hfound, hhidden, hv⟩ := hgiven
    exact ⟨r, ⟨⟨r.nodeId, hn, hfound⟩, hhidden⟩, hv⟩

/-- The markers of two lists of node ids are those of one and then those of the other. -/
theorem markersOf_append (c : Content) (nodeIds others : List String) :
    c.markersOf (nodeIds ++ others) = c.markersOf nodeIds ++ c.markersOf others := by
  simp only [markersOf, List.filterMap_append, List.filter_append, List.map_append]

/-- In which order node ids are listed does not matter for their markers. -/
theorem markersOf_perm (c : Content) {others : List String} (h : nodeIds.Perm others) :
    (c.markersOf nodeIds).Perm (c.markersOf others) :=
  ((h.filterMap c.recordOf).filter _).map markerOf

/-- The markers of node ids depend on their records only. -/
theorem markersOf_congr (h : ∀ n ∈ nodeIds, c'.recordOf n = c.recordOf n) :
    c'.markersOf nodeIds = c.markersOf nodeIds := by
  rw [markersOf, markersOf, List.filterMap_congr h]

/-! ## When it is done -/

/-- After a deletion the records to remove are those, of the ones found, that tell of no marker or
whose marker is deleted. -/
theorem mem_cleared_iff {found : List DeleteRecord} {keys : List String}
    {order : List ObjectVersion} {report : DeletionReport} {n : String}
    (hperm : order.Perm ((found.filter fun r => !r.versionId.isEmpty).map markerOf))
    (hreports : ObjectTable.Reports keys order report) :
    n ∈ (found.filter fun r => r.versionId.isEmpty).map DeleteRecord.nodeId ++
        report.deleted.map DeletedVersion.nodeId ↔
      ∃ r ∈ found, r.nodeId = n ∧
        (r.versionId = "" ∨ r.versionId ≠ "" ∧ ObjectVersion.allowed keys (markerOf r)) := by
  rw [List.mem_append, hreports.deleted]
  constructor
  · intro hgiven
    rcases hgiven with hplain | hdeleted
    · obtain ⟨r, hr, rfl⟩ := List.mem_map.1 hplain
      obtain ⟨hfound, hempty⟩ := List.mem_filter.1 hr
      exact ⟨r, hfound, rfl, .inl (by simpa using hempty)⟩
    · obtain ⟨v, hv, rfl⟩ := List.mem_map.1 hdeleted
      obtain ⟨hmem, hallowed⟩ := List.mem_filter.1 hv
      obtain ⟨r, hr, rfl⟩ := List.mem_map.1 (hperm.mem_iff.1 hmem)
      obtain ⟨hfound, hhidden⟩ := List.mem_filter.1 hr
      exact ⟨r, hfound, rfl, .inr ⟨by simpa using hhidden, hallowed⟩⟩
  · intro hgiven
    obtain ⟨r, hfound, rfl, hempty | ⟨hhidden, hallowed⟩⟩ := hgiven
    · exact .inl (List.mem_map_of_mem (List.mem_filter.2 ⟨hfound, by simpa using hempty⟩))
    · have hmarker : markerOf r ∈ order :=
        hperm.mem_iff.2 (List.mem_map_of_mem (List.mem_filter.2 ⟨hfound, by simpa using hhidden⟩))
      exact .inr (List.mem_map.2 ⟨markerOf r, List.mem_filter.2 ⟨hmarker, hallowed⟩, rfl⟩)

/-- What has become of the content of some leaves that was brought back. -/
structure Cleared (nodeIds : List String) (c : Content) (found : RecordSet) (c' : Content) :
    Prop where
  found : ∀ n, found.find? n = if n ∈ nodeIds then c.recordOf n else none
  records : c'.records.records.rows =
    c.records.records.rows.filter fun r => !nodeIds.contains r.nodeId
  objects : ObjectTable.Erases (c.markersOf nodeIds) c.objects c'.objects
  faults : ObjectTable.HasFaults c.objects.failingKeys c.objects.isDown c'.objects

/-- The records found for some node ids in what was read of them are those from the start. -/
theorem filterMap_read {found : RecordSet}
    (h : ∀ n, found.find? n = if n ∈ nodeIds then c.recordOf n else none) :
    nodeIds.filterMap found.find? = nodeIds.filterMap c.recordOf := by
  refine List.filterMap_congr fun n hn => ?_
  rw [h, if_pos hn]

/-- When all markers of some node ids may be deleted, the records to remove are all that there are for
these. -/
theorem mem_cleared_iff_of_allowed {keys : List String} {order : List ObjectVersion}
    {report : DeletionReport} {r : DeleteRecord} (hperm : order.Perm (c.markersOf nodeIds))
    (hreports : ObjectTable.Reports keys order report)
    (hall : ∀ v ∈ c.markersOf nodeIds, ObjectVersion.allowed keys v = true)
    (hr : r ∈ c.records.records.rows) :
    r.nodeId ∈ ((nodeIds.filterMap c.recordOf).filter fun r => r.versionId.isEmpty).map
        DeleteRecord.nodeId ++ report.deleted.map DeletedVersion.nodeId ↔ r.nodeId ∈ nodeIds := by
  rw [mem_cleared_iff hperm hreports]
  constructor
  · intro hgiven
    obtain ⟨r', hr', hnode, -⟩ := hgiven
    obtain ⟨n, hn, hfind⟩ := List.mem_filterMap.1 hr'
    rwa [← hnode, RecordSet.nodeId_of_find? hfind]
  · intro hn
    obtain ⟨r', hfind⟩ : ∃ r', c.recordOf r.nodeId = some r' :=
      Option.isSome_iff_exists.1 (List.find?_isSome.2 ⟨r, hr, by simp⟩)
    have hnode := RecordSet.nodeId_of_find? hfind
    refine ⟨r', List.mem_filterMap.2 ⟨r.nodeId, hn, hfind⟩, hnode, ?_⟩
    by_cases hhidden : r'.versionId = ""
    · exact .inl hhidden
    · refine .inr ⟨hhidden, hall _ (mem_markersOf_iff.2 ⟨r', ?_, ?_, hhidden, rfl⟩)⟩
      · rwa [hnode]
      · rwa [hnode]

/-- Bringing content back that is done has returned the records from the start, and has removed them
and their markers. -/
theorem undelete_done {found : RecordSet} (h : undelete nodeIds c = (.done found, c')) :
    Cleared nodeIds c found c' := by
  rw [undelete] at h
  split at h
  · rename_i hnone
    obtain ⟨rfl, rfl⟩ := Action.pure_eq_done.1 h
    rw [List.isEmpty_iff.1 hnone]
    exact ⟨fun n => rfl, by simp, ObjectTable.erases_nil _, rfl, rfl⟩
  · simp only [Action.bind_eq_done, onRecords_eq_done, onObjects_eq_done,
      List.partition_eq_filter_filter, Function.comp_def, Bool.not_not] at h
    obtain ⟨records, _, ⟨table, hread, rfl⟩, report, _, ⟨objects, hdelete, rfl⟩, _, _,
      ⟨table', hremove, rfl⟩, h⟩ := h
    obtain ⟨hsame, hfound⟩ := RecordTable.readAll_done hread
    rw [filterMap_read hfound] at hdelete hremove
    have hdeleted : ObjectTable.deleteAll (c.markersOf nodeIds) c.objects = (.done report, objects) :=
      hdelete
    obtain ⟨hfaults, herases, order, hperm, hreports⟩ :=
      ObjectTable.deleteAll_done ⟨rfl, rfl⟩ hdeleted
    cases herrors : report.errors with
    | cons first rest =>
      rw [herrors] at h
      simp at h
    | nil =>
      rw [herrors] at h
      obtain ⟨rfl, rfl⟩ := Action.pure_eq_done.1 h
      have hall : ∀ v ∈ c.markersOf nodeIds,
          ObjectVersion.allowed c.objects.failingKeys v = true := by
        have hnone := hreports.errors.symm.trans herrors
        rw [List.map_eq_nil_iff, List.filter_eq_nil_iff] at hnone
        intro v hv
        simpa using hnone v (hperm.mem_iff.2 hv)
      rw [List.filter_eq_self.2 hall] at herases
      refine ⟨hfound, ?_, herases, hfaults⟩
      dsimp only
      rw [RecordTable.removeAll_done hremove, hsame]
      refine List.filter_congr fun r hr => ?_
      rw [Bool.not_inj_iff, Bool.eq_iff_iff, List.contains_iff_mem, List.contains_iff_mem]
      exact mem_cleared_iff_of_allowed hperm hreports hall hr

/-- The records of some node ids are gone and the markers that they told of are taken out, and nothing
else has changed. -/
structure Emptied (nodeIds : List String) (c c' : Content) : Prop where
  records : c'.records.records.rows =
    c.records.records.rows.filter fun r => !nodeIds.contains r.nodeId
  objects : ObjectTable.Erases (c.markersOf nodeIds) c.objects c'.objects

/-- Content that is left alone has nothing gone from it. -/
theorem emptied_nil (c : Content) : Emptied [] c c :=
  ⟨by simp, ObjectTable.erases_nil _⟩

/-- Records that are gone are not found, and the others are as they were. -/
theorem Emptied.recordOf_eq (h : Emptied nodeIds c c') (n : String) :
    c'.recordOf n = if n ∈ nodeIds then none else c.recordOf n := by
  have hrows : c'.records.records = ⟨c.records.records.rows.filter fun r =>
      !nodeIds.contains r.nodeId⟩ := congrArg RecordSet.mk h.records
  rw [recordOf, hrows, RecordSet.find?_filter_rows]
  simp only [List.contains_iff_mem]
  rfl

/-- What is gone after one step and what is gone after another is gone after both, if the second one
is about other node ids. -/
theorem Emptied.trans {others : List String} (h : Emptied nodeIds c c') (h' : Emptied others c' c'')
    (hother : ∀ n ∈ others, n ∉ nodeIds) : Emptied (nodeIds ++ others) c c'' := by
  have hmarkers : c'.markersOf others = c.markersOf others :=
    markersOf_congr fun n hn => (h.recordOf_eq n).trans (if_neg (hother n hn))
  refine ⟨?_, ?_⟩
  · rw [h'.records, h.records, List.filter_filter]
    refine List.filter_congr fun r _ => ?_
    rw [List.contains_append, Bool.not_or, Bool.and_comm]
  · rw [markersOf_append, ← hmarkers]
    exact h.objects.trans h'.objects

/-- What is left does not depend on the order of the node ids. -/
theorem Emptied.unique {others : List String} (h : Emptied nodeIds c c') (h' : Emptied others c c'')
    (hperm : nodeIds.Perm others) :
    c'.records.records = c''.records.records ∧ c'.objects.objects = c''.objects.objects := by
  constructor
  · refine congrArg RecordSet.mk ?_
    rw [h.records, h'.records]
    refine List.filter_congr fun r _ => ?_
    rw [Bool.eq_iff_iff]
    simp only [Bool.not_eq_true', ← Bool.not_eq_true, List.contains_iff_mem, hperm.mem_iff]
  · have hsame : c'.objects.objects = _ := h.objects.perm (c.markersOf_perm hperm)
    exact Eq.trans hsame (Eq.symm h'.objects)

/-- Of content that was brought back the records and markers are gone. -/
theorem Cleared.emptied {found : RecordSet} (h : Cleared nodeIds c found c') :
    Emptied nodeIds c c' :=
  ⟨h.records, h.objects⟩

/-- With different version ids under its key, the marker of content that was brought back is gone. -/
theorem Cleared.ne_of_mem_versions {found : RecordSet} {r : DeleteRecord} {s : StoredVersion}
    (h : Cleared nodeIds c found c')
    (hids : ((c.objects.versions r.bucket r.key).map StoredVersion.versionId).Nodup)
    (hn : r.nodeId ∈ nodeIds) (hr : c.recordOf r.nodeId = some r) (hhidden : r.versionId ≠ "")
    (hs : s ∈ c'.objects.versions r.bucket r.key) : s.versionId ≠ r.versionId :=
  h.objects.gone (v := markerOf r) hids (mem_markersOf_iff.2 ⟨r, hn, hr, hhidden, rfl⟩) hs

/-- Without throttling and while all requests are answered, content without keys that fail is
brought back, and there are no faults after that either. -/
theorem undelete_succeeds (nodeIds : List String) (hrecords : c.records.throttled = 0)
    (hobjects : ObjectTable.HasFaults [] false c.objects) :
    ∃ found c', undelete nodeIds c = (.done found, c') ∧ c'.records.throttled = 0 := by
  rw [undelete]
  split
  · exact ⟨.empty, c, rfl, hrecords⟩
  · obtain ⟨records, table, hread, hfree⟩ := RecordTable.readAll_succeeds nodeIds hrecords
    obtain ⟨report, objects, hdelete⟩ := ObjectTable.deleteAll_succeeds
      (((nodeIds.filterMap records.find?).filter fun r => !r.versionId.isEmpty).map markerOf)
      hobjects.2
    obtain ⟨-, -, order, -, hreports⟩ := ObjectTable.deleteAll_done hobjects hdelete
    have hnone : report.errors = [] := by
      rw [hreports.errors, List.map_eq_nil_iff, List.filter_eq_nil_iff]
      simp [ObjectVersion.allowed]
    obtain ⟨table', hremove, hfree'⟩ := RecordTable.removeAll_succeeds
      (((nodeIds.filterMap records.find?).filter fun r => r.versionId.isEmpty).map
        DeleteRecord.nodeId ++ report.deleted.map DeletedVersion.nodeId) hfree
    refine ⟨records, { records := table', objects := objects }, ?_, hfree'⟩
    simp only [Action.bind_eq_done, onRecords_eq_done, onObjects_eq_done,
      List.partition_eq_filter_filter, Function.comp_def, Bool.not_not]
    refine ⟨records, _, ⟨table, hread, rfl⟩, report, _, ⟨objects, hdelete, rfl⟩, (), _,
      ⟨table', hremove, rfl⟩, ?_⟩
    rw [hnone]
    rfl

/-! ## However it ends -/

/-- Some markers that delete records tell of are taken out of the objects. A delete record is gone
only if it told of no marker or its marker was taken out, and nothing else has changed. -/
def Clears (c c' : Content) : Prop :=
  ∃ taken : List ObjectVersion,
    (∀ v ∈ taken, ∃ r, c.recordOf r.nodeId = some r ∧ r.versionId ≠ "" ∧ markerOf r = v) ∧
    ObjectTable.Erases taken c.objects c'.objects ∧
    ∀ n, c'.recordOf n = c.recordOf n ∨ c'.recordOf n = none ∧
      ∀ r, c.recordOf n = some r → r.versionId = "" ∨ markerOf r ∈ taken

/-- A delete record that is still there is the one from before. -/
theorem Clears.kept_or_gone (h : Clears c c') (n : String) :
    c'.recordOf n = c.recordOf n ∨ c'.recordOf n = none := by
  obtain ⟨_, -, -, hrecords⟩ := h
  exact (hrecords n).imp_right And.left

instance : IsPreorder Content Clears where
  refl c := ⟨[], by simp, ObjectTable.erases_nil _, fun n => .inl rfl⟩
  trans c₁ c₂ c₃ h h' := by
    have hearlier := h.kept_or_gone
    obtain ⟨taken, htaken, herases, hrecords⟩ := h
    obtain ⟨taken', htaken', herases', hrecords'⟩ := h'
    refine ⟨taken ++ taken', fun v hv => ?_, herases.trans herases', fun n => ?_⟩
    · rcases List.mem_append.1 hv with hfirst | hsecond
      · exact htaken v hfirst
      · obtain ⟨r, hfound, hv⟩ := htaken' v hsecond
        rcases hearlier r.nodeId with hkept | hgone
        · exact ⟨r, hkept ▸ hfound, hv⟩
        · rw [hgone] at hfound
          cases hfound
    · have hdrops : RecordSet.Drops _ c₁.records.records c₂.records.records :=
        fun n => (hrecords n).imp_right And.symm
      have hdrops' : RecordSet.Drops _ c₂.records.records c₃.records.records :=
        fun n => (hrecords' n).imp_right And.symm
      refine (hdrops.comp hdrops' n).imp_right fun hgiven => ⟨hgiven.2, fun r hr => ?_⟩
      rcases hgiven.1 with hwhy | ⟨hkept, hwhy⟩
      · exact (hwhy r hr).imp_right (List.mem_append_left taken')
      · exact (hwhy r (hkept.trans hr)).imp_right (List.mem_append_right taken)

/-- Delete records and stored versions that are in step with those from before. No record was
altered. One is gone only if it told of no marker or its marker is not stored any more. And no
version is gone that no record told of. -/
structure InStep (c c' : Content) : Prop where
  kept : ∀ n, c'.recordOf n = c.recordOf n ∨ c'.recordOf n = none
  gone : ∀ r, c.recordOf r.nodeId = some r → c'.recordOf r.nodeId = none →
    r.versionId = "" ∨ ∀ s ∈ c'.objects.versions r.bucket r.key, s.versionId ≠ r.versionId
  fewer : ∀ bucket key, (c'.objects.versions bucket key).Sublist (c.objects.versions bucket key)
  taken : ∀ bucket key, ∀ s ∈ c.objects.versions bucket key, s ∉ c'.objects.versions bucket key →
    ∃ r, c.recordOf r.nodeId = some r ∧ r.versionId ≠ "" ∧
      r.bucket = bucket ∧ r.key = key ∧ r.versionId = s.versionId

/-- With different version ids under each key, content stays in step when markers are taken out. -/
theorem Clears.inStep
    (hids : ∀ bucket key, ((c.objects.versions bucket key).map StoredVersion.versionId).Nodup)
    (h : Clears c c') : InStep c c' := by
  have hkept := h.kept_or_gone
  obtain ⟨taken, htaken, herases, hrecords⟩ := h
  refine ⟨hkept, fun r hr hgone => ?_, herases.sublist, fun bucket key s hs hnot => ?_⟩
  · rcases hrecords r.nodeId with hsame | ⟨-, hwhy⟩
    · rw [hgone, hr] at hsame
      cases hsame
    · refine (hwhy r hr).imp_right fun hmarker s hs => ?_
      exact herases.gone (v := markerOf r) (hids r.bucket r.key) hmarker hs
  · obtain ⟨v, hv, rfl, rfl, hid⟩ := herases.mem_of_removed hs hnot
    obtain ⟨r, hr, hhidden, rfl⟩ := htaken v hv
    exact ⟨r, hr, hhidden, rfl, rfl, hid⟩

/-- Clears content of some node ids at most: only markers of theirs are taken out, and only records of
theirs are gone. -/
def Thins (nodeIds : List String) (c c' : Content) : Prop :=
  ∃ taken ⊆ c.markersOf nodeIds, ObjectTable.Erases taken c.objects c'.objects ∧
    RecordSet.Drops
      (fun n => n ∈ nodeIds ∧ ∀ r, c.recordOf n = some r → r.versionId = "" ∨ markerOf r ∈ taken)
      c.records.records c'.records.records

/-- Where records are only taken away, markers are only those from before. -/
theorem markersOf_subset (h : ∀ n, c'.recordOf n = c.recordOf n ∨ c'.recordOf n = none) :
    c'.markersOf nodeIds ⊆ c.markersOf nodeIds := by
  intro v hv
  obtain ⟨r, hn, hfound, hhidden, hmarker⟩ := mem_markersOf_iff.1 hv
  refine mem_markersOf_iff.2 ⟨r, hn, ?_, hhidden, hmarker⟩
  rcases h r.nodeId with hkept | hgone
  · rwa [← hkept]
  · rw [hgone] at hfound
    cases hfound

/-- What clears content of some node ids clears content. -/
theorem Thins.clears (h : Thins nodeIds c c') : Clears c c' := by
  obtain ⟨taken, htaken, herases, hrecords⟩ := h
  refine ⟨taken, fun v hv => ?_, herases, fun n => (hrecords n).imp_right fun hgone => ?_⟩
  · obtain ⟨r, -, hfound, hhidden, hmarker⟩ := mem_markersOf_iff.1 (htaken hv)
    exact ⟨r, hfound, hhidden, hmarker⟩
  · exact ⟨hgone.2, hgone.1.2⟩

instance : IsPreorder Content (Thins nodeIds) where
  refl c := ⟨[], List.nil_subset _, ObjectTable.erases_nil _,
    Std.Refl.refl (r := RecordSet.Drops _) c.records.records⟩
  trans c₁ c₂ c₃ h h' := by
    have hearlier := h.clears.kept_or_gone
    obtain ⟨taken, htaken, herases, hrecords⟩ := h
    obtain ⟨taken', htaken', herases', hrecords'⟩ := h'
    refine ⟨taken ++ taken', ?_, herases.trans herases', (hrecords.comp hrecords').mono ?_⟩
    · exact List.append_subset.2
        ⟨htaken, fun _ hv => markersOf_subset hearlier (htaken' hv)⟩
    · intro n hgiven
      rcases hgiven with ⟨hn, hwhy⟩ | ⟨hkept, hn, hwhy⟩
      · exact ⟨hn, fun r hr => (hwhy r hr).imp_right (List.mem_append_left taken')⟩
      · refine ⟨hn, fun r hr => ?_⟩
        exact (hwhy r (hkept.trans hr)).imp_right (List.mem_append_right taken)

/-- After a deletion only records of its node ids that told of no marker or whose markers were taken out
are removed, however that ends. -/
theorem within_removeCleared {keys : List String} {order : List ObjectVersion}
    {report : DeletionReport} (hperm : order.Perm (c.markersOf nodeIds))
    (hreports : ObjectTable.Reports keys order report) :
    Action.Within (Order.Preimage RecordTable.records (RecordSet.Drops fun n =>
        n ∈ nodeIds ∧ ∀ r, c.recordOf n = some r →
          r.versionId = "" ∨ markerOf r ∈ (c.markersOf nodeIds).filter (ObjectVersion.allowed keys)))
      (RecordTable.removeAll
        (((nodeIds.filterMap c.recordOf).filter fun r => r.versionId.isEmpty).map
          DeleteRecord.nodeId ++ report.deleted.map DeletedVersion.nodeId)) := by
  refine RecordTable.within_removeAll fun n hn => ?_
  obtain ⟨r', hr', hnode, hwhy⟩ := (mem_cleared_iff hperm hreports).1 hn
  obtain ⟨n', hn', hfind⟩ := List.mem_filterMap.1 hr'
  obtain rfl : n' = n := (RecordSet.nodeId_of_find? hfind).symm.trans hnode
  refine ⟨hn', fun r hr => ?_⟩
  obtain rfl : r' = r := Option.some.inj (hfind.symm.trans hr)
  refine hwhy.imp_right fun hmarker => List.mem_filter.2 ⟨?_, hmarker.2⟩
  exact mem_markersOf_iff.2 ⟨r', hnode ▸ hn', hnode ▸ hr, hmarker.1, rfl⟩

/-- Bringing content back clears content of its node ids at most, however it ends. -/
theorem thins_undelete (nodeIds : List String) : Action.Within (Thins nodeIds) (undelete nodeIds) := by
  intro c
  rw [undelete]
  split
  · exact Action.within_pure _ c
  refine Action.snd_bind_of ⟨[], List.nil_subset _, ObjectTable.erases_nil _,
    RecordTable.within_readAll nodeIds c.records⟩ ?_
  intro records _ hfirst
  obtain ⟨table, hread, rfl⟩ := onRecords_eq_done.1 hfirst
  obtain ⟨hsame, hfound⟩ := RecordTable.readAll_done hread
  simp only [List.partition_eq_filter_filter, Function.comp_def, Bool.not_not]
  rw [filterMap_read hfound]
  have hkept {which : String → Prop} :
      RecordSet.Drops which c.records.records table.records := by
    rw [hsame]
    exact Std.Refl.refl (r := RecordSet.Drops which) c.records.records
  have hown : ∀ v ∈ c.markersOf nodeIds, v ∈ c.markersOf nodeIds := fun _ hv => hv
  obtain ⟨taken, htaken, hlost⟩ := ObjectTable.within_deleteAll hown c.objects
  refine Action.snd_bind_of ⟨taken, htaken, hlost, hkept⟩ ?_
  intro report _ hsecond
  obtain ⟨objects, hdelete, rfl⟩ := onObjects_eq_done.1 hsecond
  have hreport : ObjectTable.deleteAll (c.markersOf nodeIds) c.objects = (.done report, objects) :=
    hdelete
  obtain ⟨-, herases, order, hperm, hreports⟩ := ObjectTable.deleteAll_done ⟨rfl, rfl⟩ hreport
  have hdropped := within_removeCleared hperm hreports table
  rw [Order.Preimage, hsame] at hdropped
  have hremoved : Thins nodeIds c (onRecords (RecordTable.removeAll _) ⟨table, objects⟩).2 :=
    ⟨_, List.filter_subset_self _, herases, hdropped⟩
  refine Action.snd_bind_of hremoved fun _ t hthird => ?_
  rw [hthird] at hremoved
  cases report.errors with
  | nil => exact hremoved
  | cons => exact hremoved

/-! ## Brought back after all -/

/-- Content that was cleared in part before it is brought back has the same records and versions left
in the end as content that was brought back at once. -/
theorem Thins.cleared_eq {found found' : RecordSet} (h : Thins nodeIds c c')
    (hids : ∀ bucket key, ((c.objects.versions bucket key).map StoredVersion.versionId).Nodup)
    {a b : Content} (ha : Cleared nodeIds c found a) (hb : Cleared nodeIds c' found' b) :
    (∀ n, b.recordOf n = a.recordOf n) ∧
      ∀ bucket key, b.objects.versions bucket key = a.objects.versions bucket key := by
  have hkept := h.clears.kept_or_gone
  obtain ⟨taken, htaken, herases, hrecords⟩ := h
  refine ⟨fun n => ?_, fun bucket key => ?_⟩
  · rw [hb.emptied.recordOf_eq, ha.emptied.recordOf_eq]
    split
    · rfl
    · rename_i hn
      exact (hrecords n).resolve_right fun hgone => hn hgone.1.1
  · have hboth := herases.trans hb.objects
    refine hboth.versions_congr ha.objects (hids bucket key) fun v => ?_
    rw [List.mem_append]
    constructor
    · intro hgiven
      exact hgiven.elim (fun hv => htaken hv) fun hv => markersOf_subset hkept hv
    · intro hv
      obtain ⟨r, hn, hfound, hhidden, rfl⟩ := mem_markersOf_iff.1 hv
      -- its record is still there, unless the marker is gone already
      rcases hrecords r.nodeId with hsame | ⟨⟨-, hwhy⟩, -⟩
      · exact .inr (mem_markersOf_iff.2 ⟨r, hn, hsame.trans hfound, hhidden, rfl⟩)
      · exact .inl ((hwhy r hfound).resolve_left hhidden)

end Salvage.Content
