import Mathlib.Data.List.Forall2
import Salvage.Proofs.Action
import Salvage.Provider.Objects

/-!
# Whom a report is about

A deletion is reported by its key, and in a request a key stands for the node of the last version under
it. So every report names the right node as long as the versions under a key belong to one node. As soon
as two nodes share a key there are replies after which the wrong one counts as deleted, and whoever then
removes its delete record loses sight of a marker that still hides content.
-/

namespace Salvage.ObjectService

open List (Forall₂)

/-- A reply reports some versions as deleted and others as errors. Of the former it gives the key only. -/
structure Reports (deleted failed : List ObjectVersion) (reply : ObjectReply) : Prop where
  deleted : Forall₂ (fun v (r : ReportedDeletion) => r.key = some v.key) deleted reply.deleted
  errors : Forall₂ (fun v (r : ReportedError) => r.key = some v.key ∧ r.versionId = some v.versionId)
    failed reply.errors

/-- What is made of a reply names the node of each version once, and as deleted or as an error for the
reason that the version was reported so. -/
structure Attributes (deleted failed : List ObjectVersion) (report : DeletionReport) : Prop where
  once : (report.deleted.map (fun d => some d.nodeId) ++ report.errors.map VersionError.nodeId).Perm
    ((deleted ++ failed).map fun v => some v.nodeId)
  deleted : ∀ nodeId,
    (∃ d ∈ report.deleted, d.nodeId = nodeId) ↔ ∃ v ∈ deleted, v.nodeId = nodeId
  errors : ∀ nodeId,
    (∃ e ∈ report.errors, e.nodeId = some nodeId) ↔ ∃ v ∈ failed, v.nodeId = nodeId

/-- No two nodes have versions under one key. -/
def KeysApart (versions : List ObjectVersion) : Prop :=
  ∀ v ∈ versions, ∀ w ∈ versions, v.key = w.key → v.nodeId = w.nodeId

instance (versions : List ObjectVersion) : Decidable (KeysApart versions) :=
  inferInstanceAs (Decidable (∀ v ∈ versions, ∀ w ∈ versions, _))

variable {bucket : String} {versions deleted failed : List ObjectVersion} {reply : ObjectReply}
  {service : ObjectService} {v : ObjectVersion}

/-- A key of a request stands for the node of a version under it. -/
theorem exists_nodeOf? (hv : v ∈ versions) :
    ∃ w ∈ versions, w.key = v.key ∧ nodeOf? versions v.key = some w.nodeId := by
  obtain ⟨w, hw⟩ : ∃ w, versions.reverse.find? (fun w => w.key == v.key) = some w := by
    refine Option.isSome_iff_exists.1 (List.find?_isSome.2 ⟨v, List.mem_reverse.2 hv, ?_⟩)
    exact beq_self_eq_true v.key
  have hkey : w.key = v.key := by simpa using List.find?_some hw
  refine ⟨w, List.mem_reverse.1 (List.mem_of_find?_eq_some hw), hkey, ?_⟩
  rw [nodeOf?, hw]
  rfl

/-- When no two nodes share a key, a key stands for the node of every version under it. -/
theorem KeysApart.nodeOf?_eq (h : KeysApart versions) (hv : v ∈ versions) :
    nodeOf? versions v.key = some v.nodeId := by
  obtain ⟨w, hw, hkey, hnode⟩ := exists_nodeOf? hv
  rw [hnode, h w hw v hv hkey]

/-- When no two nodes share a key, a reported deletion is one of the node that the version hides. -/
theorem KeysApart.map_deleted (h : KeysApart versions) (hsub : deleted ⊆ versions)
    {reported : List ReportedDeletion}
    (hreported : Forall₂ (fun v (r : ReportedDeletion) => r.key = some v.key) deleted reported) :
    (reported.filterMap (deletion? bucket versions)).map DeletedVersion.nodeId =
      deleted.map ObjectVersion.nodeId := by
  induction hreported with
  | nil => rfl
  | @cons v r deleted reported hkey _ ih =>
    obtain ⟨hv, hothers⟩ := List.cons_subset.1 hsub
    have hfirst : deletion? bucket versions r =
        some ⟨v.nodeId, bucket, v.key, r.isMarker.getD false⟩ := by
      rw [deletion?, hkey, Option.getD_some, h.nodeOf?_eq hv]
      rfl
    rw [List.filterMap_cons_some hfirst, List.map_cons, List.map_cons, ih hothers]

/-- When no two nodes share a key, a reported error names the node that the version hides. -/
theorem KeysApart.map_errors (h : KeysApart versions) (hsub : failed ⊆ versions)
    {reported : List ReportedError}
    (hreported : Forall₂ (fun v (r : ReportedError) =>
      r.key = some v.key ∧ r.versionId = some v.versionId) failed reported) :
    (reported.map (errorOf bucket versions)).map VersionError.nodeId =
      failed.map fun v => some v.nodeId := by
  induction hreported with
  | nil => rfl
  | @cons v r failed reported hkey _ ih =>
    obtain ⟨hv, hothers⟩ := List.cons_subset.1 hsub
    have hfirst : (errorOf bucket versions r).nodeId = some v.nodeId := by
      rw [errorOf, hkey.1, Option.getD_some, h.nodeOf?_eq hv]
    rw [List.map_cons, List.map_cons, List.map_cons, ih hothers, hfirst]

/-- When no two nodes share a key, what is made of a reply names the right nodes. -/
theorem KeysApart.attributes (h : KeysApart versions) (hperm : (deleted ++ failed).Perm versions)
    (hreports : Reports deleted failed reply) :
    Attributes deleted failed (reportOf bucket versions reply) := by
  have hdeleted : (reply.deleted.filterMap (deletion? bucket versions)).map DeletedVersion.nodeId =
      deleted.map ObjectVersion.nodeId :=
    h.map_deleted (List.Subset.trans (List.subset_append_left deleted failed) hperm.subset)
      hreports.deleted
  have herrors : (reply.errors.map (errorOf bucket versions)).map VersionError.nodeId =
      failed.map fun v => some v.nodeId :=
    h.map_errors (List.Subset.trans (List.subset_append_right deleted failed) hperm.subset)
      hreports.errors
  refine ⟨?_, fun nodeId => ?_, fun nodeId => ?_⟩
  · have hsome := congrArg (List.map some) hdeleted
    rw [List.map_map, List.map_map] at hsome
    rw [List.map_append]
    exact .of_eq (congrArg₂ (· ++ ·) hsome herrors)
  · rw [← List.mem_map, ← List.mem_map, ← hdeleted]
    rfl
  · have hmem : some nodeId ∈ (reportOf bucket versions reply).errors.map VersionError.nodeId ↔
        some nodeId ∈ failed.map fun v => some v.nodeId := by
      rw [← herrors]
      rfl
    simpa using hmem

/-- When the node of a version is named by the report of its deletion alone, its key stands for it. -/
theorem Attributes.nodeOf?_eq {isMarker : Option Bool}
    (h : Attributes [v] failed (reportOf bucket versions reply))
    (hreply : reply.deleted = [⟨some v.key, isMarker⟩]) :
    nodeOf? versions v.key = some v.nodeId := by
  obtain ⟨d, hd, hnode⟩ := (h.deleted v.nodeId).2 ⟨v, List.mem_singleton_self v, rfl⟩
  rw [reportOf, hreply] at hd
  obtain ⟨r, hr, hdeletion⟩ := List.mem_filterMap.1 hd
  obtain rfl := List.mem_singleton.1 hr
  obtain ⟨nodeId, hfound, rfl⟩ := Option.map_eq_some_iff.1 hdeletion
  rw [← hnode]
  exact hfound

/-- A request of a bucket with a name makes a report of the reply. -/
theorem submit_of_reply (hname : Text.trimmed bucket.toList ≠ []) (versions : List ObjectVersion)
    (h : service.answers.head? = some (.ok reply)) :
    ∃ service', (delete bucket).submit versions service =
      (.done ⟨reportOf bucket versions reply, []⟩, service') := by
  obtain ⟨rest, hanswers⟩ := List.head?_eq_some_iff.1 h
  have hcall : ∃ service', Provider.call .objectStore
      ⟨bucket, versions.map fun v => (v.key, v.versionId)⟩ service = (.done reply, service') := by
    rw [Provider.call, hanswers]
    exact ⟨_, rfl⟩
  obtain ⟨service', hcall⟩ := hcall
  refine ⟨service', ?_⟩
  simp only [delete, if_neg hname]
  exact Action.bind_of_done hcall

/-- Reports name the right nodes, whatever the service replies, exactly when no two nodes share a key. -/
theorem submit_attributes_iff (hname : Text.trimmed bucket.toList ≠ [])
    (versions : List ObjectVersion) :
    (∀ deleted failed reply (service : ObjectService), (deleted ++ failed).Perm versions →
      Reports deleted failed reply → service.answers.head? = some (.ok reply) →
      ∃ report service', (delete bucket).submit versions service =
        (.done ⟨report, []⟩, service') ∧ Attributes deleted failed report) ↔
      KeysApart versions := by
  constructor
  · intro hall
    -- the service may report one version as deleted and all others as errors
    have hnode : ∀ v ∈ versions, nodeOf? versions v.key = some v.nodeId := by
      intro v hv
      let reply : ObjectReply := ⟨[⟨some v.key, none⟩],
        (versions.erase v).map fun w => ⟨some w.key, some w.versionId, none, none⟩⟩
      have hreports : Reports [v] (versions.erase v) reply := by
        refine ⟨.cons rfl .nil, List.forall₂_map_right_iff.2 ?_⟩
        exact List.forall₂_same.2 fun w _ => ⟨rfl, rfl⟩
      let service : ObjectService := ⟨[.ok reply], "", []⟩
      have hanswer : service.answers.head? = some (.ok reply) := rfl
      obtain ⟨_, hdone⟩ := submit_of_reply hname versions hanswer
      obtain ⟨report, _, hsubmit, hattributes⟩ := hall [v] (versions.erase v) reply service
        (List.perm_cons_erase hv).symm hreports hanswer
      cases hdone.symm.trans hsubmit
      exact hattributes.nodeOf?_eq rfl
    intro v hv w hw hkey
    have hsame := (hnode v hv).symm.trans ((congrArg (nodeOf? versions) hkey).trans (hnode w hw))
    exact Option.some.inj hsame
  · intro hapart deleted failed reply service hperm hreports hanswer
    obtain ⟨service', hdone⟩ := submit_of_reply hname versions hanswer
    exact ⟨_, service', hdone, hapart.attributes hperm hreports⟩

/-- Two versions under a key of one node, and a version under a key of another. -/
def ownKeys : List ObjectVersion :=
  [⟨"a", "store", "k", "v1"⟩, ⟨"b", "store", "l", "v1"⟩, ⟨"a", "store", "k", "v2"⟩]

/-- Nodes with keys of their own are told apart, also when one of them has a version of either kind. -/
theorem submit_attributes_ownKeys :
    ∃ report service', (delete "store").submit ownKeys
        ⟨[.ok ⟨[⟨some "l", some true⟩, ⟨some "k", none⟩], [⟨some "k", some "v2", some "SlowDown", none⟩]⟩],
          "closed", []⟩ = (.done ⟨report, []⟩, service') ∧
      Attributes [⟨"b", "store", "l", "v1"⟩, ⟨"a", "store", "k", "v1"⟩] [⟨"a", "store", "k", "v2"⟩]
        report :=
  (submit_attributes_iff (by decide) ownKeys).2 (by decide) _ _ _ _ (by decide)
    ⟨by simp, by simp⟩ rfl

/-- Versions of two nodes under one key. -/
def sharedKey : List ObjectVersion :=
  [⟨"a", "store", "k", "v1"⟩, ⟨"b", "store", "k", "v2"⟩]

/-- The version of the first node is deleted, and that of the second one is not. -/
def partlyDeleted : ObjectReply :=
  ⟨[⟨some "k", some true⟩], [⟨some "k", some "v2", some "AccessDenied", some "Access Denied"⟩]⟩

/-- What is made of the report on a shared key. -/
def sharedReport : DeletionReport :=
  ⟨[⟨"b", "store", "k", true⟩],
    [⟨some "b", "store", "k", some "v2", "AccessDenied", "Access Denied"⟩]⟩

/-- With a shared key the node whose version is still there counts as deleted, and the other one is not
named at all. -/
theorem submit_attributes_sharedKey :
    (sharedKey.map fun v => (v.key, v.versionId)).Nodup ∧
      Reports [⟨"a", "store", "k", "v1"⟩] [⟨"b", "store", "k", "v2"⟩] partlyDeleted ∧
      (∃ service', (delete "store").submit sharedKey ⟨[.ok partlyDeleted], "closed", []⟩ =
        (.done ⟨sharedReport, []⟩, service')) ∧
      ¬ Attributes [⟨"a", "store", "k", "v1"⟩] [⟨"b", "store", "k", "v2"⟩] sharedReport := by
  have hname : Text.trimmed "store".toList ≠ [] := by decide
  refine ⟨by decide, ⟨by simp [partlyDeleted], by simp [partlyDeleted]⟩, ?_, fun h => ?_⟩
  · have hanswer : (⟨[.ok partlyDeleted], "closed", []⟩ : ObjectService).answers.head? =
        some (.ok partlyDeleted) := rfl
    exact submit_of_reply hname sharedKey hanswer
  · obtain ⟨d, hd, hnode⟩ := (h.deleted "a").2 ⟨_, List.mem_singleton_self _, rfl⟩
    obtain rfl := List.mem_singleton.1 hd
    exact absurd hnode (by decide)

end Salvage.ObjectService
