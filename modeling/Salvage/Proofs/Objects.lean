import Mathlib.Data.List.Perm.Basic
import Salvage.Objects
import Salvage.Proofs.Batch

/-!
# What is deleted from the stored objects

Deleting takes versions that are listed out of the objects and does nothing else to them. In which
order that happens does not matter, so what is left can be said without the buckets and chunks in
which the versions are sent. A deletion that is done has deleted all versions whose keys allow it,
and reports each of the others.
-/

namespace Salvage

open List (Forall₂)

namespace StoredObject

/-- An object without a version, if that is one of its own. -/
def without (o : StoredObject) (v : ObjectVersion) : StoredObject :=
  { o with versions :=
      if ObjectTable.isAt v.bucket v.key o then
        o.versions.eraseP fun s => s.versionId == v.versionId
      else o.versions }

/-- An object without some versions, of which each is taken away once for each time it is listed. -/
def withoutAll (versions : List ObjectVersion) (o : StoredObject) : StoredObject :=
  versions.foldl without o

variable {o : StoredObject} {v : ObjectVersion} {versions versions' : List ObjectVersion}
  {s : StoredVersion}

/-- Taking a version away only makes the versions fewer. -/
theorem sublist_without (o : StoredObject) (v : ObjectVersion) :
    (o.without v).versions.Sublist o.versions := by
  dsimp only [without]
  split
  · exact List.eraseP_sublist
  · exact .refl _

/-- It does not matter which of two versions is taken away first. -/
theorem without_comm (o : StoredObject) (v v' : ObjectVersion) :
    (o.without v).without v' = (o.without v').without v := by
  have hcomm (a b : String) :
      (o.versions.eraseP fun s => s.versionId == a).eraseP (fun s => s.versionId == b) =
        (o.versions.eraseP fun s => s.versionId == b).eraseP fun s => s.versionId == a := by
    by_cases heq : a = b
    · rw [heq]
    · refine List.eraseP_comm fun s _ => ?_
      by_cases hs : s.versionId = a
      · simp [hs, heq]
      · simp [hs]
  have hversions : ((o.without v).without v').versions = ((o.without v').without v).versions := by
    change (if ObjectTable.isAt v'.bucket v'.key o then _ else _) =
      if ObjectTable.isAt v.bucket v.key o then _ else _
    by_cases hv : ObjectTable.isAt v.bucket v.key o <;>
      by_cases hv' : ObjectTable.isAt v'.bucket v'.key o <;>
      simp [without, hv, hv', hcomm v.versionId v'.versionId]
  exact congrArg (fun versions => ({ o with versions } : StoredObject)) hversions

instance : RightCommutative without := ⟨without_comm⟩

/-- It does not matter in which order versions are taken away. -/
theorem withoutAll_perm (h : versions.Perm versions') : withoutAll versions = withoutAll versions' :=
  funext fun o => h.foldl_eq o

/-- Versions may be taken away one list after another. -/
theorem withoutAll_append (versions versions' : List ObjectVersion) (o : StoredObject) :
    withoutAll (versions ++ versions') o = withoutAll versions' (withoutAll versions o) :=
  List.foldl_append

/-- Where an object lies does not change when versions are taken away. -/
theorem isAt_withoutAll (bucket key : String) (versions : List ObjectVersion) (o : StoredObject) :
    ObjectTable.isAt bucket key (withoutAll versions o) = ObjectTable.isAt bucket key o := by
  induction versions generalizing o with
  | nil => rfl
  | cons v versions ih => exact ih (o.without v)

/-- Taking versions away only makes the versions of an object fewer. -/
theorem sublist_withoutAll (versions : List ObjectVersion) (o : StoredObject) :
    (withoutAll versions o).versions.Sublist o.versions := by
  induction versions generalizing o with
  | nil => exact .refl _
  | cons v versions ih => exact (ih (o.without v)).trans (sublist_without o v)

/-- A version that is gone was one of those to take away. -/
theorem mem_of_removed (h : s ∈ o.versions) (hgone : s ∉ (withoutAll versions o).versions) :
    ∃ v ∈ versions, ObjectTable.isAt v.bucket v.key o ∧ v.versionId = s.versionId := by
  induction versions generalizing o with
  | nil => exact absurd h hgone
  | cons v versions ih =>
    by_cases hkept : s ∈ (o.without v).versions
    · obtain ⟨v', hv', hat, hid⟩ := ih hkept hgone
      exact ⟨v', List.mem_cons_of_mem _ hv', hat, hid⟩
    · refine ⟨v, List.mem_cons_self, ?_⟩
      by_contra hother
      refine hkept ?_
      dsimp only [without]
      split
      · rename_i hat
        have hne : ¬ v.versionId = s.versionId := fun hid => hother ⟨hat, hid⟩
        exact (List.mem_eraseP_of_neg (by simpa using Ne.symm hne)).2 h
      · exact h

/-- With different version ids, erasing the first version with an id leaves all with other ids. -/
theorem eraseP_eq_filter {stored : List StoredVersion} (id : String)
    (hids : (stored.map StoredVersion.versionId).Nodup) :
    (stored.eraseP fun s => s.versionId == id) = stored.filter fun s => !(s.versionId == id) := by
  induction stored with
  | nil => rfl
  | cons s stored ih =>
    rw [List.map_cons, List.nodup_cons] at hids
    by_cases hs : s.versionId = id
    · rw [List.eraseP_cons_of_pos (by simpa using hs), List.filter_cons_of_neg (by simp [hs]),
        List.filter_eq_self.2]
      intro s' hs'
      have hne : s'.versionId ≠ id := fun hid =>
        hids.1 (List.mem_map.2 ⟨s', hs', hid.trans hs.symm⟩)
      simpa using hne
    · rw [List.eraseP_cons_of_neg (by simpa using hs), List.filter_cons_of_pos (by simpa using hs),
        ih hids.2]

/-- With different version ids, exactly the versions whose ids are not taken away are left. -/
theorem versions_withoutAll (hids : (o.versions.map StoredVersion.versionId).Nodup) :
    (withoutAll versions o).versions = o.versions.filter fun s =>
      !versions.any fun v => ObjectTable.isAt v.bucket v.key o && s.versionId == v.versionId := by
  induction versions generalizing o with
  | nil => simp [withoutAll]
  | cons v versions ih =>
    have hfirst : (o.without v).versions = o.versions.filter fun s =>
        !(ObjectTable.isAt v.bucket v.key o && s.versionId == v.versionId) := by
      dsimp only [without]
      split
      · rename_i hat
        rw [eraseP_eq_filter v.versionId hids, hat]
        rfl
      · rename_i hnot
        rw [Bool.eq_false_iff.2 hnot]
        simp
    have hids' := hids.sublist ((sublist_without o v).map StoredVersion.versionId)
    refine (ih hids').trans ?_
    rw [hfirst, List.filter_filter]
    refine List.filter_congr fun s _ => ?_
    rw [List.any_cons, Bool.not_or, Bool.and_comm]
    rfl

/-- With different version ids, no version of an object has the id of one that is taken away. -/
theorem ne_of_mem_withoutAll (hids : (o.versions.map StoredVersion.versionId).Nodup)
    (hv : v ∈ versions) (hat : ObjectTable.isAt v.bucket v.key o)
    (hs : s ∈ (withoutAll versions o).versions) : s.versionId ≠ v.versionId := by
  rw [versions_withoutAll hids] at hs
  have hnone := (List.mem_filter.1 hs).2
  rw [Bool.not_eq_true', List.any_eq_false] at hnone
  intro hid
  exact hnone v hv (by rw [hat, hid, beq_self_eq_true, Bool.and_self])

end StoredObject

namespace ObjectVersion

/-- A version may be deleted unless its key fails. -/
def allowed (failingKeys : List String) (v : ObjectVersion) : Bool :=
  !failingKeys.contains v.key

/-- Elements grouped by keys that include all of theirs are the same elements. -/
theorem flatMap_filter_perm {ι κ : Type} [BEq κ] [LawfulBEq κ] (key : ι → κ) {keys : List κ}
    {items : List ι} (hkeys : keys.Nodup) (hall : ∀ i ∈ items, key i ∈ keys) :
    (keys.flatMap fun k => items.filter fun i => key i == k).Perm items := by
  induction keys generalizing items with
  | nil =>
    have hnone : items = [] := List.eq_nil_iff_forall_not_mem.2 fun i hi => by simpa using hall i hi
    rw [hnone]
    rfl
  | cons k keys ih =>
    obtain ⟨hnot, hkeys⟩ := List.nodup_cons.1 hkeys
    have hothers : (keys.flatMap fun k' => items.filter fun i => key i == k') =
        keys.flatMap fun k' => (items.filter fun i => !key i == k).filter fun i => key i == k' := by
      refine List.flatMap_congr fun k' hk' => ?_
      rw [List.filter_filter]
      refine List.filter_congr fun i _ => ?_
      by_cases hi : key i = k'
      · have hne : k' ≠ k := fun heq => hnot (heq ▸ hk')
        simp [hi, hne]
      · simp [hi]
    have hrest : ∀ i ∈ items.filter fun i => !key i == k, key i ∈ keys := by
      intro i hi
      obtain ⟨hmem, hne⟩ := List.mem_filter.1 hi
      exact (List.mem_cons.1 (hall i hmem)).resolve_left (by simpa using hne)
    rw [List.flatMap_cons, hothers]
    exact ((ih hkeys hrest).append_left _).trans (List.filter_append_perm _ items)

/-- A list without its duplicates has none. -/
theorem nodup_eraseDups (names : List String) : names.eraseDups.Nodup := by
  induction hn : names.length using Nat.strongRecOn generalizing names with
  | _ n ih =>
    cases names with
    | nil => simp
    | cons name names =>
      have hshorter : (names.filter fun b => !b == name).length < n := by
        have hle := List.length_filter_le (fun b => !b == name) names
        rw [List.length_cons] at hn
        omega
      rw [List.eraseDups_cons, List.nodup_cons]
      refine ⟨?_, ih _ hshorter _ rfl⟩
      simp

/-- The buckets of some versions are listed once each. -/
theorem nodup_buckets (versions : List ObjectVersion) : (buckets versions).Nodup :=
  (List.mergeSort_perm _ _).nodup_iff.2 (nodup_eraseDups _)

/-- Grouping versions by their buckets loses none of them. -/
theorem byBucket_perm (versions : List ObjectVersion) :
    ((byBucket versions).map Prod.snd).flatten.Perm versions := by
  have hgroups : ((byBucket versions).map Prod.snd).flatten =
      (buckets versions).flatMap fun b => versions.filter fun v => v.bucket == b := by
    rw [byBucket, List.map_map, List.flatMap]
    rfl
  rw [hgroups]
  refine flatMap_filter_perm bucket (nodup_buckets versions) fun v hv => ?_
  rw [buckets, (List.mergeSort_perm _ _).mem_iff, List.mem_eraseDups]
  exact List.mem_map_of_mem hv

end ObjectVersion

namespace ObjectTable

variable {t t' t'' : ObjectTable} {versions versions' : List ObjectVersion} {v : ObjectVersion}
  {bucket key : String} {s : StoredVersion}

/-- Some versions are taken out of the objects, and nothing else is done to these. -/
def Erases (versions : List ObjectVersion) (t t' : ObjectTable) : Prop :=
  t'.objects = t.objects.map (StoredObject.withoutAll versions)

/-- Taking nothing out leaves the objects alone. -/
theorem erases_nil (t : ObjectTable) : Erases [] t t := by
  have hid : StoredObject.withoutAll [] = id := rfl
  rw [Erases, hid, List.map_id]

/-- Versions may be taken out one list after another. -/
theorem Erases.trans (h : Erases versions t t') (h' : Erases versions' t' t'') :
    Erases (versions ++ versions') t t'' := by
  unfold Erases at *
  rw [h', h, List.map_map]
  exact List.map_congr_left fun o _ => (StoredObject.withoutAll_append versions versions' o).symm

/-- It does not matter in which order versions are taken out. -/
theorem Erases.perm (h : Erases versions t t') (hperm : versions.Perm versions') :
    Erases versions' t t' := by
  unfold Erases at *
  rw [h, StoredObject.withoutAll_perm hperm]

/-- What lies under a key, if anything does, is an object from which versions are taken away. -/
theorem Erases.versions_eq (h : Erases versions t t') (bucket key : String) :
    (t.versions bucket key = [] ∧ t'.versions bucket key = []) ∨
      ∃ o, isAt bucket key o ∧ t.versions bucket key = o.versions ∧
        t'.versions bucket key = (StoredObject.withoutAll versions o).versions := by
  have hat : isAt bucket key ∘ StoredObject.withoutAll versions = isAt bucket key :=
    funext (StoredObject.isAt_withoutAll bucket key versions)
  have hfound : t'.objects.find? (isAt bucket key) =
      (t.objects.find? (isAt bucket key)).map (StoredObject.withoutAll versions) := by
    rw [h, List.find?_map, hat]
  rw [ObjectTable.versions, ObjectTable.versions, hfound]
  cases ho : t.objects.find? (isAt bucket key) with
  | none => exact .inl ⟨rfl, rfl⟩
  | some o => exact .inr ⟨o, List.find?_some ho, rfl, rfl⟩

/-- Under no key is there a version that was not there before. -/
theorem Erases.sublist (h : Erases versions t t') (bucket key : String) :
    (t'.versions bucket key).Sublist (t.versions bucket key) := by
  rcases h.versions_eq bucket key with ⟨hbefore, hafter⟩ | ⟨o, -, hbefore, hafter⟩
  · rw [hbefore, hafter]
  · rw [hbefore, hafter]
    exact StoredObject.sublist_withoutAll versions o

/-- A version that is gone was one of those to take out. -/
theorem Erases.mem_of_removed (h : Erases versions t t') (hs : s ∈ t.versions bucket key)
    (hgone : s ∉ t'.versions bucket key) :
    ∃ v ∈ versions, v.bucket = bucket ∧ v.key = key ∧ v.versionId = s.versionId := by
  rcases h.versions_eq bucket key with ⟨hbefore, -⟩ | ⟨o, hat, hbefore, hafter⟩
  · rw [hbefore] at hs
    cases hs
  · rw [hbefore] at hs
    rw [hafter] at hgone
    obtain ⟨v, hv, hvat, hid⟩ := StoredObject.mem_of_removed hs hgone
    simp only [isAt, Bool.and_eq_true, beq_iff_eq] at hat hvat
    exact ⟨v, hv, hvat.1.symm.trans hat.1, hvat.2.symm.trans hat.2, hid⟩

/-- With different version ids under its key, a version to take out is gone. -/
theorem Erases.gone (h : Erases versions t t')
    (hids : ((t.versions v.bucket v.key).map StoredVersion.versionId).Nodup) (hv : v ∈ versions)
    (hs : s ∈ t'.versions v.bucket v.key) : s.versionId ≠ v.versionId := by
  rcases h.versions_eq v.bucket v.key with ⟨-, hafter⟩ | ⟨o, hat, hbefore, hafter⟩
  · rw [hafter] at hs
    cases hs
  · rw [hbefore] at hids
    rw [hafter] at hs
    exact StoredObject.ne_of_mem_withoutAll hids hv hat hs

/-- With different version ids under a key, exactly the versions there that are not taken out are
left. -/
theorem Erases.versions_eq_filter (h : Erases versions t t')
    (hids : ((t.versions bucket key).map StoredVersion.versionId).Nodup) :
    t'.versions bucket key = (t.versions bucket key).filter fun s =>
      !versions.any fun v => (v.bucket == bucket && v.key == key) && s.versionId == v.versionId := by
  rcases h.versions_eq bucket key with ⟨hbefore, hafter⟩ | ⟨o, hat, hbefore, hafter⟩
  · rw [hbefore, hafter]
    rfl
  · rw [hbefore] at hids
    rw [hbefore, hafter, StoredObject.versions_withoutAll hids]
    simp only [isAt, Bool.and_eq_true, beq_iff_eq] at hat
    refine List.filter_congr fun s _ => congrArg (fun f => !versions.any f) (funext fun v => ?_)
    rw [isAt, hat.1, hat.2, BEq.comm (a := bucket), BEq.comm (a := key)]

/-- With different version ids under a key, what is left there depends on which versions are taken
out, not on how often. -/
theorem Erases.versions_congr (h : Erases versions t t') (h' : Erases versions' t t'')
    (hids : ((t.versions bucket key).map StoredVersion.versionId).Nodup)
    (hsame : ∀ v, v ∈ versions ↔ v ∈ versions') :
    t'.versions bucket key = t''.versions bucket key := by
  rw [h.versions_eq_filter hids, h'.versions_eq_filter hids]
  refine List.filter_congr fun s _ => ?_
  rw [Bool.not_inj_iff, Bool.eq_iff_iff, List.any_eq_true, List.any_eq_true]
  simp only [hsame]

/-- Version ids differ under each key if they do in each object. -/
theorem nodup_versions (h : ∀ o ∈ t.objects, (o.versions.map StoredVersion.versionId).Nodup)
    (bucket key : String) : ((t.versions bucket key).map StoredVersion.versionId).Nodup := by
  rw [versions]
  cases hfound : t.objects.find? (isAt bucket key) with
  | none => exact List.nodup_nil
  | some o => exact h o (List.mem_of_find?_eq_some hfound)

/-! ## Requests -/

/-- Erasing a version takes it out. -/
theorem erases_eraseVersion (t : ObjectTable) (v : ObjectVersion) :
    Erases [v] t (t.eraseVersion v.bucket v.key v.versionId) := by
  rw [Erases, eraseVersion]
  refine List.map_congr_left fun o _ => ?_
  change _ = o.without v
  rw [StoredObject.without]
  split <;> rfl

/-- Deleting versions one by one takes out those that are allowed and reports the others. -/
theorem foldl_deleteOne (versions : List ObjectVersion) (r : DeletionReport) (t : ObjectTable) :
    let (r', t') := versions.foldl (fun s v => deleteOne s.1 s.2 v) (r, t)
    Erases (versions.filter (ObjectVersion.allowed t.failingKeys)) t t' ∧
      t' = { t with objects := t'.objects } ∧
      r'.deleted.map DeletedVersion.nodeId = r.deleted.map DeletedVersion.nodeId ++
        (versions.filter (ObjectVersion.allowed t.failingKeys)).map ObjectVersion.nodeId ∧
      r'.errors = r.errors ++
        (versions.filter fun v => !ObjectVersion.allowed t.failingKeys v).map denied := by
  induction versions generalizing r t with
  | nil => simp [erases_nil]
  | cons v versions ih =>
    rw [List.foldl_cons]
    by_cases hfails : t.failingKeys.contains v.key
    · have hnot : ObjectVersion.allowed t.failingKeys v = false := by
        rw [ObjectVersion.allowed, hfails]
        rfl
      have hone : deleteOne r t v = ({ r with errors := r.errors ++ [denied v] }, t) := if_pos hfails
      rw [hone]
      simpa [hnot] using ih { r with errors := r.errors ++ [denied v] } t
    · have hok : ObjectVersion.allowed t.failingKeys v = true := by
        rw [ObjectVersion.allowed, Bool.eq_false_iff.2 hfails]
        rfl
      obtain ⟨deleted, hone, hnode⟩ : ∃ deleted, deleteOne r t v =
          ({ r with deleted := r.deleted ++ [deleted] },
            t.eraseVersion v.bucket v.key v.versionId) ∧ deleted.nodeId = v.nodeId :=
        ⟨_, if_neg hfails, rfl⟩
      rw [hone, List.filter_cons_of_pos hok, List.filter_cons_of_neg (by simp [hok])]
      obtain ⟨herases, hsame, hdeleted, herrors⟩ :=
        ih { r with deleted := r.deleted ++ [deleted] } (t.eraseVersion v.bucket v.key v.versionId)
      refine ⟨(erases_eraseVersion t v).trans herases, hsame, ?_, herrors⟩
      rw [hdeleted, List.map_append, List.append_assoc, List.map_cons, hnode]
      rfl

/-- The versions that a report is about: those that were deleted and those that could not be. -/
structure Reports (failingKeys : List String) (versions : List ObjectVersion)
    (r : DeletionReport) : Prop where
  deleted : r.deleted.map DeletedVersion.nodeId =
    (versions.filter (ObjectVersion.allowed failingKeys)).map ObjectVersion.nodeId
  errors : r.errors =
    (versions.filter fun v => !ObjectVersion.allowed failingKeys v).map denied

variable {keys : List String} {r : DeletionReport}

/-- Reports about versions one after another are a report about all of them. -/
theorem reports_concat {parts : List (List ObjectVersion)} {reports : List DeletionReport}
    (h : Forall₂ (Reports keys) parts reports) : Reports keys parts.flatten (.concat reports) := by
  induction h with
  | nil => exact ⟨rfl, rfl⟩
  | cons hfirst _ ih =>
    refine ⟨?_, ?_⟩
    · rw [List.flatten_cons, List.filter_append, List.map_append, ← hfirst.deleted, ← ih.deleted]
      simp [DeletionReport.concat]
    · rw [List.flatten_cons, List.filter_append, List.map_append, ← hfirst.errors, ← ih.errors]
      simp [DeletionReport.concat]

/-- The faults of the stored objects are these. -/
def HasFaults (keys : List String) (down : Bool) (t : ObjectTable) : Prop :=
  t.failingKeys = keys ∧ t.isDown = down

variable {down : Bool}

/-- A request that is answered leaves none of its versions, takes out those that are allowed and
reports the others. -/
theorem delete_eq_done {reply : Batch.Reply ObjectVersion DeletionReport}
    (h : (delete bucket).submit versions t = (.done reply, t')) :
    HasFaults t.failingKeys t.isDown t' ∧ reply.unprocessed = [] ∧
      Erases (versions.filter (ObjectVersion.allowed t.failingKeys)) t t' ∧
      Reports t.failingKeys versions reply.output := by
  rw [delete] at h
  simp only [Action.bind_eq_done, Action.get_eq_done] at h
  obtain ⟨_, t, ⟨rfl, rfl⟩, h⟩ := h
  split at h
  · simp at h
  · simp only [Action.bind_eq_done, Action.set_eq_done, Action.pure_eq_done] at h
    obtain ⟨_, _, rfl, rfl, rfl⟩ := h
    obtain ⟨herases, hsame, hdeleted, herrors⟩ := foldl_deleteOne versions .empty
      { t with requests := t.requests ++ [(bucket, versions.length)] }
    exact ⟨⟨by rw [hsame], by rw [hsame]⟩, rfl, herases, hdeleted, herrors⟩

/-- A request that is answered is answered whole. -/
theorem splits_delete (bucket : String) (keys : List String) (down : Bool) :
    Batch.Splits (delete bucket) (HasFaults keys down)
      (fun versions => Erases (versions.filter (ObjectVersion.allowed keys))) (Reports keys) := by
  refine ⟨erases_nil, ?_, ?_⟩
  · intro as bs t t' t'' h h'
    rw [List.filter_append]
    exact h.trans h'
  · intro versions t reply t' hfaults h
    obtain ⟨rfl, rfl⟩ := hfaults
    obtain ⟨hkept, hnone, herases, hreports⟩ := delete_eq_done h
    exact ⟨hkept, versions, by rw [hnone, List.append_nil], herases, hreports⟩

/-- Versions that are deleted bucket by bucket have been answered whole. -/
theorem each_bucket_done {b : Backoff} {random : Nat → Nat}
    {groups : List (String × List ObjectVersion)} {results : List (List DeletionReport)}
    {c c' : Batch.Clocked ObjectTable} {text : String → String}
    (hfaults : HasFaults keys down c.world)
    (h : Action.each (fun group => (Batch.run (delete group.1) b random group.2).context
      (text group.1)) groups c = (.done results, c')) :
    HasFaults keys down c'.world ∧ ∃ order, order.Perm (groups.map Prod.snd).flatten ∧
      Erases (order.filter (ObjectVersion.allowed keys)) c.world c'.world ∧
      Reports keys order (.concat results.flatten) := by
  induction groups generalizing c results with
  | nil =>
    obtain ⟨rfl, rfl⟩ := Action.each_nil_eq_done.1 h
    exact ⟨hfaults, [], .nil, erases_nil _, rfl, rfl⟩
  | cons group groups ih =>
    obtain ⟨first, others, c₁, rfl, hfirst, hrest⟩ := Action.each_cons_eq_done.1 h
    obtain ⟨hkept, parts, hperm, herases, hanswers⟩ :=
      Batch.run_done (splits_delete group.1 keys down) hfaults (Action.context_eq_done.1 hfirst)
    obtain ⟨hkept', order, hperm', herases', hreports⟩ := ih hkept hrest
    refine ⟨hkept', parts.flatten ++ order, ?_, ?_, ?_⟩
    · exact hperm.append hperm'
    · rw [List.filter_append]
      exact herases.trans herases'
    · have hboth := reports_concat (.cons (reports_concat hanswers) (.cons hreports .nil))
      simpa [DeletionReport.concat] using hboth

/-- A deletion that is done took out all versions that are allowed and reports the others. -/
theorem deleteAll_done (hfaults : HasFaults keys down t)
    (h : deleteAll versions t = (.done r, t')) :
    HasFaults keys down t' ∧ Erases (versions.filter (ObjectVersion.allowed keys)) t t' ∧
      ∃ order, order.Perm versions ∧ Reports keys order r := by
  rw [deleteAll, Batch.unclocked_eq_done] at h
  obtain ⟨c, h, rfl⟩ := h
  simp only [ObjectVersion.deleteByBucket, Action.bind_eq_done, Action.pure_eq_done] at h
  obtain ⟨results, _, hrun, rfl, rfl⟩ := h
  obtain ⟨hkept, order, hperm, herases, hreports⟩ := each_bucket_done hfaults hrun
  have hall := hperm.trans (ObjectVersion.byBucket_perm versions)
  exact ⟨hkept, herases.perm (hall.filter _), order, hall, hreports⟩

/-- While requests are answered, a deletion is done. -/
theorem deleteAll_succeeds (versions : List ObjectVersion) (hup : t.isDown = false) :
    ∃ r t', deleteAll versions t = (.done r, t') := by
  have hsubmit (bucket : String) : ∀ versions (t : ObjectTable), t.isDown = false →
      ∃ output t', (delete bucket).submit versions t = (.done ⟨output, []⟩, t') ∧
        t'.isDown = false := by
    intro versions t hup
    have hdone : ∃ output t', (delete bucket).submit versions t = (.done ⟨output, []⟩, t') := by
      simp only [delete, Action.get_bind_apply, hup, Bool.false_eq_true, if_false]
      exact ⟨_, _, rfl⟩
    obtain ⟨output, t', hdone⟩ := hdone
    exact ⟨output, t', hdone, (delete_eq_done hdone).1.2.trans hup⟩
  have heach (groups : List (String × List ObjectVersion)) (c : Batch.Clocked ObjectTable)
      (hup : c.world.isDown = false) : ∃ results c', Action.each
        (fun group => (Batch.run (delete group.1) .immediate (fun _ => 0) group.2).context
          s!"error deleting object versions in bucket {group.1}") groups c =
        (.done results, c') := by
    induction groups generalizing c with
    | nil => exact ⟨[], c, Action.each_nil_eq_done.2 ⟨rfl, rfl⟩⟩
    | cons group groups ih =>
      obtain ⟨first, c₁, hfirst, hup₁⟩ := Batch.run_succeeds (hsubmit group.1) hup group.2
      obtain ⟨others, c₂, hothers⟩ := ih c₁ hup₁
      exact ⟨first :: others, c₂, Action.each_cons_eq_done.2
        ⟨first, others, c₁, rfl, Action.context_eq_done.2 hfirst, hothers⟩⟩
  obtain ⟨results, c, hresults⟩ := heach (ObjectVersion.byBucket versions) ⟨t, 0⟩ hup
  refine ⟨.concat results.flatten, c.world, ?_⟩
  rw [deleteAll, Batch.unclocked_eq_done]
  refine ⟨c, ?_, rfl⟩
  simp only [ObjectVersion.deleteByBucket, Action.bind_eq_done, Action.pure_eq_done]
  exact ⟨results, c, hresults, rfl, rfl⟩

/-- When requests are answered or none is to be made, a deletion is done. -/
theorem deleteAll_answered (h : t.isDown = false ∨ versions = []) :
    ∃ r t', deleteAll versions t = (.done r, t') := by
  rcases h with hup | rfl
  · exact deleteAll_succeeds versions hup
  · have hnone : ObjectVersion.byBucket [] = [] := by
      simp [ObjectVersion.byBucket, ObjectVersion.buckets]
    refine ⟨.concat [], t, ?_⟩
    rw [deleteAll, ObjectVersion.deleteByBucket, hnone]
    rfl

/-- When requests fail, a deletion of anything fails with the first of them and does nothing. -/
theorem deleteAll_refused (hdown : t.isDown = true) (hsome : versions ≠ []) :
    ∃ e, deleteAll versions t = (.failed e, t) := by
  have hsubmit (bucket : String) (items : List ObjectVersion) : (delete bucket).submit items t =
      (.failed (.objectStore s!"connection reset deleting from {bucket}"), t) := by
    simp only [delete, Action.get_bind_apply, hdown, if_true]
    rfl
  have hgroups : ∀ group ∈ ObjectVersion.byBucket versions, group.2 ≠ [] := by
    intro group hgroup
    obtain ⟨bucket, hbucket, rfl⟩ := List.mem_map.1 hgroup
    rw [ObjectVersion.buckets, (List.mergeSort_perm _ _).mem_iff, List.mem_eraseDups] at hbucket
    obtain ⟨v, hv, rfl⟩ := List.mem_map.1 hbucket
    exact List.ne_nil_of_mem (List.mem_filter.2 ⟨hv, beq_self_eq_true _⟩)
  have hfirst : ∃ e, Action.each
      (fun group => (Batch.run (delete group.1) .immediate (fun _ => 0) group.2).context
        s!"error deleting object versions in bucket {group.1}")
      (ObjectVersion.byBucket versions) ⟨t, 0⟩ = (.failed e, ⟨t, 0⟩) := by
    cases hbuckets : ObjectVersion.byBucket versions with
    | nil =>
      have hperm := ObjectVersion.byBucket_perm versions
      rw [hbuckets] at hperm
      exact absurd hperm.nil_eq.symm hsome
    | cons group groups =>
      have hrun : Batch.run (delete group.1) .immediate (fun _ => 0) group.2 ⟨t, 0⟩ =
          (.failed (.objectStore s!"connection reset deleting from {group.1}"), ⟨t, 0⟩) :=
        Batch.run_of_failed (hsubmit group.1) (hgroups group (hbuckets ▸ List.mem_cons_self))
      exact ⟨_, Action.bind_of_failed (Action.context_of_failed _ hrun)⟩
  obtain ⟨e, hfailed⟩ := hfirst
  refine ⟨e, ?_⟩
  have hall : ObjectVersion.deleteByBucket delete .immediate (fun _ => 0) versions ⟨t, 0⟩ =
      (.failed e, ⟨t, 0⟩) := Action.bind_of_failed hfailed
  rw [deleteAll, Batch.unclocked, hall]

/-- Some versions that satisfy a condition may be taken out, and nothing else is done. -/
def Loses (which : ObjectVersion → Prop) (t t' : ObjectTable) : Prop :=
  ∃ versions, (∀ v ∈ versions, which v) ∧ Erases versions t t'

variable {which : ObjectVersion → Prop}

instance : IsPreorder ObjectTable (Loses which) where
  refl t := ⟨[], by simp, erases_nil t⟩
  trans _ _ _ h h' := by
    obtain ⟨versions, hwhich, herases⟩ := h
    obtain ⟨versions', hwhich', herases'⟩ := h'
    refine ⟨versions ++ versions', fun v hv => ?_, herases.trans herases'⟩
    exact (List.mem_append.1 hv).elim (hwhich v) (hwhich' v)

/-- A deletion takes out some of its versions at most, however it ends. -/
theorem within_deleteAll (h : ∀ v ∈ versions, which v) :
    Action.Within (Loses which) (deleteAll versions) := by
  have hsubmit (bucket : String) (items : List ObjectVersion) (hitems : ∀ v ∈ items, which v) :
      Action.Within (Loses which) ((delete bucket).submit items) := by
    refine Action.within_get_bind fun t => ?_
    split
    · exact Action.within_fail _ t
    · obtain ⟨herases, -⟩ := foldl_deleteOne items .empty
        { t with requests := t.requests ++ [(bucket, items.length)] }
      exact ⟨_, fun v hv => hitems v (List.mem_filter.1 hv).1, herases⟩
  have hleft (bucket : String) : ∀ items t reply t', (∀ v ∈ items, which v) →
      (delete bucket).submit items t = (.done reply, t') → ∀ v ∈ reply.unprocessed, which v := by
    intro items t reply t' _ hdone v hv
    rw [(delete_eq_done hdone).2.1] at hv
    cases hv
  have hgroups : ∀ group ∈ ObjectVersion.byBucket versions, ∀ v ∈ group.2, which v := by
    intro group hgroup v hv
    refine h v ((ObjectVersion.byBucket_perm versions).mem_iff.1 ?_)
    exact List.mem_flatten.2 ⟨group.2, List.mem_map_of_mem hgroup, hv⟩
  refine Batch.within_unclocked (Action.Within.bind ?_ fun _ => Action.within_pure _)
  refine Action.within_each fun group hgroup => ?_
  exact (Batch.within_run which (hsubmit group.1) (hleft group.1) (hgroups group hgroup)).context _

end ObjectTable

end Salvage
