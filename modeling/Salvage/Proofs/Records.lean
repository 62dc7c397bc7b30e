import Salvage.Proofs.Batch
import Salvage.Records

/-!
# What is read from delete records, and what is left of them

Reading finds the record of each node id that has one and changes none. Removing, complete or not,
takes away records of the node ids that it is given and adds or changes none: a record that is still
there afterwards is the one that was there before. A removal that is done has left none of them, and
without throttling every request is done.
-/

namespace Salvage

namespace RecordSet

variable {s s' : RecordSet} {r : DeleteRecord}

/-- A record that is found has the node id. -/
theorem nodeId_of_find? {nodeId : String} (h : s.find? nodeId = some r) : r.nodeId = nodeId := by
  simpa using List.find?_some h

/-- Erasing takes away the record of one node id. -/
theorem find?_erase (s : RecordSet) (nodeId other : String) :
    (s.erase nodeId).find? other = if other = nodeId then none else s.find? other := by
  rw [find?, find?, erase, List.find?_filter]
  split
  · rename_i heq
    rw [List.find?_eq_none]
    intro r _
    simp [heq]
  · rename_i hne
    congr 1
    funext r
    by_cases hr : r.nodeId = other
    · simp [hr, hne]
    · simp [hr]

/-- Adding a record sets that of its node id. -/
theorem find?_put (s : RecordSet) (r : DeleteRecord) (nodeId : String) :
    (s.put r).find? nodeId = if nodeId = r.nodeId then some r else s.find? nodeId := by
  have hrest := find?_erase s r.nodeId nodeId
  rw [find?] at hrest ⊢
  rw [put, List.find?_cons, hrest]
  by_cases hr : nodeId = r.nodeId
  · simp [hr]
  · rw [beq_eq_false_iff_ne.2 (Ne.symm hr), if_neg hr, if_neg hr]

/-- Adding a record leaves one record per node id. -/
theorem nodup_put (h : (s.rows.map DeleteRecord.nodeId).Nodup) (r : DeleteRecord) :
    ((s.put r).rows.map DeleteRecord.nodeId).Nodup := by
  rw [put, List.map_cons, List.nodup_cons]
  refine ⟨?_, h.sublist (List.filter_sublist.map DeleteRecord.nodeId)⟩
  simp [erase]

/-- The set of some records has one record per node id. -/
theorem nodup_ofList (records : List DeleteRecord) :
    ((ofList records).rows.map DeleteRecord.nodeId).Nodup := by
  have hfold (s : RecordSet) (h : (s.rows.map DeleteRecord.nodeId).Nodup) :
      ((records.foldl put s).rows.map DeleteRecord.nodeId).Nodup := by
    induction records generalizing s with
    | nil => exact h
    | cons r records ih => exact ih (s.put r) (nodup_put h r)
  exact hfold empty List.nodup_nil

/-- Of some records with one node id the last is found. -/
theorem find?_ofList (records : List DeleteRecord) (nodeId : String) :
    (ofList records).find? nodeId = records.reverse.find? fun r => r.nodeId == nodeId := by
  have hfold (s : RecordSet) : (records.foldl put s).find? nodeId =
      (records.reverse.find? fun r => r.nodeId == nodeId).or (s.find? nodeId) := by
    induction records generalizing s with
    | nil => rfl
    | cons r records ih =>
      rw [List.foldl_cons, ih, find?_put, List.reverse_cons, List.find?_append, Option.or_assoc]
      congr 1
      by_cases hr : r.nodeId = nodeId
      · simp [hr]
      · simp [hr, Ne.symm hr]
  rw [ofList, hfold]
  exact Option.or_none

/-- Records added from a set are found as they are there, and others as they were. -/
theorem find?_foldl_put {records : List DeleteRecord}
    (h : ∀ r ∈ records, s.find? r.nodeId = some r) (nodeId : String) :
    (records.foldl put s').find? nodeId =
      if nodeId ∈ records.map DeleteRecord.nodeId then s.find? nodeId else s'.find? nodeId := by
  induction records generalizing s' with
  | nil => rfl
  | cons r records ih =>
    rw [List.foldl_cons, ih fun r hr => h r (List.mem_cons_of_mem _ hr), find?_put, List.map_cons]
    by_cases hlater : nodeId ∈ records.map DeleteRecord.nodeId
    · rw [if_pos hlater, if_pos (List.mem_cons_of_mem _ hlater)]
    · rw [if_neg hlater]
      by_cases hr : nodeId = r.nodeId
      · rw [if_pos hr, if_pos (hr ▸ List.mem_cons_self), hr, h r List.mem_cons_self]
      · rw [if_neg hr, if_neg (fun hmem => (List.mem_cons.1 hmem).elim hr hlater)]

/-- The records of some node ids make a set in which these are found as in the one they are from. -/
theorem find?_ofList_filterMap (s : RecordSet) (nodeIds : List String) (nodeId : String) :
    (ofList (nodeIds.filterMap s.find?)).find? nodeId =
      if nodeId ∈ nodeIds then s.find? nodeId else none := by
  have hfrom : ∀ r ∈ nodeIds.filterMap s.find?, s.find? r.nodeId = some r := by
    intro r hr
    obtain ⟨n, _, hfound⟩ := List.mem_filterMap.1 hr
    rwa [nodeId_of_find? hfound]
  rw [ofList, find?_foldl_put hfrom]
  by_cases hmem : nodeId ∈ nodeIds
  · rw [if_pos hmem]
    split
    · rfl
    · rename_i hnone
      cases hfound : s.find? nodeId with
      | none => rfl
      | some r =>
        refine absurd (List.mem_map.2 ⟨r, ?_, nodeId_of_find? hfound⟩) hnone
        exact List.mem_filterMap.2 ⟨nodeId, hmem, hfound⟩
  · rw [if_neg hmem, if_neg]
    · rfl
    · intro hsome
      obtain ⟨r, hr, rfl⟩ := List.mem_map.1 hsome
      obtain ⟨n, hn, hfound⟩ := List.mem_filterMap.1 hr
      exact hmem (nodeId_of_find? hfound ▸ hn)

/-- Records of some node ids may be taken away, and none is added or changed. -/
def Drops (which : String → Prop) (s s' : RecordSet) : Prop :=
  ∀ nodeId, s'.find? nodeId = s.find? nodeId ∨ which nodeId ∧ s'.find? nodeId = none

variable {which which' : String → Prop} {s'' : RecordSet}

/-- Records may be taken away for another reason as well. -/
theorem Drops.mono (h : Drops which s s') (hsub : ∀ n, which n → which' n) : Drops which' s s' :=
  fun n => (h n).imp_right (And.imp_left (hsub n))

/-- A record that is gone after two steps was taken away by the first, or kept by it and taken away by
the second. -/
theorem Drops.comp (h : Drops which s s') (h' : Drops which' s' s'') :
    Drops (fun n => which n ∨ s'.find? n = s.find? n ∧ which' n) s s'' := by
  intro n
  rcases h n with hkept | ⟨hwhy, hgone⟩
  · rcases h' n with hkept' | ⟨hwhy', hgone'⟩
    · exact .inl (hkept'.trans hkept)
    · exact .inr ⟨.inr ⟨hkept, hwhy'⟩, hgone'⟩
  · refine .inr ⟨.inl hwhy, ?_⟩
    rcases h' n with hkept' | ⟨-, hgone'⟩
    · exact hkept'.trans hgone
    · exact hgone'

instance : IsPreorder RecordSet (Drops which) where
  refl _ _ := .inl rfl
  trans _ _ _ h h' := (h.comp h').mono fun _ hgiven => hgiven.elim id And.right

/-- Erasing some node ids only takes away their records. -/
theorem drops_foldl_erase {nodeIds : List String} (h : ∀ n ∈ nodeIds, which n) (s : RecordSet) :
    Drops which s (nodeIds.foldl erase s) := by
  induction nodeIds generalizing s with
  | nil => exact Std.Refl.refl (r := Drops which) s
  | cons n nodeIds ih =>
    have hfirst : Drops which s (s.erase n) := by
      intro other
      rw [find?_erase]
      split
      · rename_i heq
        exact .inr ⟨heq ▸ h n List.mem_cons_self, rfl⟩
      · exact .inl rfl
    have hrest := ih (fun m hm => h m (List.mem_cons_of_mem _ hm)) (s.erase n)
    exact IsTrans.trans (r := Drops which) _ _ _ hfirst hrest

/-- The records that are left when some node ids are erased are those of all others. -/
theorem rows_foldl_erase (nodeIds : List String) (s : RecordSet) :
    (nodeIds.foldl erase s).rows = s.rows.filter fun r => !nodeIds.contains r.nodeId := by
  induction nodeIds generalizing s with
  | nil => simp
  | cons n nodeIds ih =>
    rw [List.foldl_cons, ih, erase, List.filter_filter]
    refine List.filter_congr fun r _ => ?_
    rw [List.contains_cons, Bool.not_or, bne, Bool.and_comm]

/-- Of a node id whose records are filtered out nothing is found, and others are found as before. -/
theorem find?_filter_rows (s : RecordSet) (gone : String → Bool) (nodeId : String) :
    RecordSet.find? ⟨s.rows.filter fun r => !gone r.nodeId⟩ nodeId =
      if gone nodeId then none else s.find? nodeId := by
  rw [find?, find?, List.find?_filter]
  split
  · rename_i hgone
    rw [List.find?_eq_none]
    intro r _
    by_cases hr : r.nodeId = nodeId
    · simp [hr, hgone]
    · simp [hr]
  · rename_i hkept
    congr 1
    funext r
    by_cases hr : r.nodeId = nodeId
    · simp [hr, hkept]
    · simp [hr]

end RecordSet

namespace RecordTable

variable {table table' : RecordTable} {nodeIds : List String}

/-- Throttling sets some of the items of a request aside, and leaves the records alone. -/
theorem throttle_eq_done {split : List String × List String}
    (h : throttle nodeIds table = (.done split, table')) :
    table'.records = table.records ∧ split.1 ++ split.2 = nodeIds := by
  simp only [throttle, Action.bind_eq_done, Action.get_eq_done] at h
  obtain ⟨_, _, ⟨rfl, rfl⟩, h⟩ := h
  split at h
  · obtain ⟨rfl, rfl⟩ := Action.pure_eq_done.1 h
    exact ⟨rfl, List.append_nil _⟩
  · simp only [Action.bind_eq_done, Action.set_eq_done, Action.pure_eq_done] at h
    obtain ⟨_, _, rfl, rfl, rfl⟩ := h
    refine ⟨rfl, ?_⟩
    cases hlast : nodeIds.getLast? with
    | none => rw [List.getLast?_eq_none_iff.1 hlast]; rfl
    | some a => exact List.dropLast_append_getLast? a hlast

/-- What is set aside by throttling was asked for. -/
theorem left_of_throttle {split : List String × List String}
    (h : throttle nodeIds table = (.done split, table')) : split.2 ⊆ nodeIds := by
  obtain ⟨-, hitems⟩ := throttle_eq_done h
  exact hitems ▸ List.subset_append_right split.1 split.2

/-- Without throttling all items of a request are processed. -/
theorem throttle_of_not_throttled (nodeIds : List String) (h : table.throttled = 0) :
    throttle nodeIds table = (.done (nodeIds, []), table) := by
  rw [throttle, Action.get_bind_apply]
  simp only [h, true_or, if_true]
  rfl

/-- A read answers what throttling does not set aside. -/
theorem submit_read_of {split : List String × List String} {t t' : RecordTable}
    (h : throttle nodeIds { t with getSizes := t.getSizes ++ [nodeIds.length] } = (.done split, t')) :
    read.submit nodeIds t = (.done ⟨split.1.filterMap t'.records.find?, split.2⟩, t') :=
  Action.bind_of_done h

/-- A removal removes what throttling does not set aside. -/
theorem submit_remove_of {split : List String × List String} {t t' : RecordTable}
    (h : throttle nodeIds { t with removeSizes := t.removeSizes ++ [nodeIds.length] } =
      (.done split, t')) :
    remove.submit nodeIds t = (.done ⟨(), split.2⟩,
      { t' with records := split.1.foldl RecordSet.erase t'.records }) :=
  Action.bind_of_done h

/-- A read answers some of its node ids with their records and leaves the others. -/
theorem splits_read (s : RecordSet) :
    Batch.Splits read (fun table => table.records = s) (fun _ _ _ => True)
      (fun nodeIds records => records = nodeIds.filterMap s.find?) := by
  refine ⟨fun _ => trivial, fun _ _ _ _ _ _ _ => trivial, ?_⟩
  intro nodeIds table reply table' hs h
  simp only [read, Action.bind_eq_done, Action.modify_eq_done, Action.get_eq_done,
    Action.pure_eq_done] at h
  obtain ⟨_, _, rfl, split, _, hsplit, _, _, ⟨rfl, rfl⟩, rfl, rfl⟩ := h
  obtain ⟨hsame, hitems⟩ := throttle_eq_done hsplit
  refine ⟨hsame.trans hs, split.1, ?_, trivial, ?_⟩
  · exact hitems ▸ .rfl
  · rw [hsame, hs]

/-- Reading some node ids is exact: it finds the record of each that has one, and no other. -/
theorem readAll_done {found : RecordSet} (h : readAll nodeIds table = (.done found, table')) :
    table'.records = table.records ∧ ∀ nodeId, found.find? nodeId =
      if nodeId ∈ nodeIds then table.records.find? nodeId else none := by
  simp only [readAll, run, Action.bind_eq_done, Batch.unclocked_eq_done, Action.pure_eq_done] at h
  obtain ⟨outputs, _, ⟨c, hrun, rfl⟩, rfl, rfl⟩ := h
  obtain ⟨hsame, parts, hperm, -, hanswers⟩ :=
    Batch.run_done (splits_read table.records) rfl hrun
  refine ⟨hsame, fun nodeId => ?_⟩
  have houtputs : outputs.flatten = parts.flatten.filterMap table.records.find? := by
    clear hperm hrun
    induction hanswers with
    | nil => rfl
    | cons hanswer _ ih =>
      rw [List.flatten_cons, List.flatten_cons, List.filterMap_append, ih, hanswer]
  rw [houtputs, RecordSet.find?_ofList_filterMap]
  simp only [hperm.mem_iff]

/-- A removal takes away the records of some of its node ids and leaves the others. -/
theorem splits_remove :
    Batch.Splits remove (fun _ => True)
      (fun nodeIds table table' => table'.records = nodeIds.foldl RecordSet.erase table.records)
      (fun _ _ => True) := by
  refine ⟨fun _ => rfl, ?_, ?_⟩
  · intro as bs s t u hst htu
    rw [htu, hst, List.foldl_append]
  · intro nodeIds table reply table' _ h
    simp only [remove, Action.bind_eq_done, Action.modify_eq_done, Action.pure_eq_done] at h
    obtain ⟨_, _, rfl, split, t, hsplit, _, _, rfl, rfl, rfl⟩ := h
    obtain ⟨hsame, hitems⟩ := throttle_eq_done hsplit
    have hperm : (split.1 ++ split.2).Perm nodeIds := hitems ▸ .rfl
    have heffect := congrArg (fun records => split.1.foldl RecordSet.erase records) hsame
    exact ⟨trivial, split.1, hperm, heffect, trivial⟩

/-- Removing the records of some node ids leaves those of all others. -/
theorem removeAll_done {u : Unit} (h : removeAll nodeIds table = (.done u, table')) :
    table'.records.rows = table.records.rows.filter fun r => !nodeIds.contains r.nodeId := by
  simp only [removeAll, run, Action.bind_eq_done, Batch.unclocked_eq_done, Action.pure_eq_done] at h
  obtain ⟨outputs, _, ⟨c, hrun, rfl⟩, -, rfl⟩ := h
  obtain ⟨-, parts, hperm, heffect, -⟩ := Batch.run_done splits_remove trivial hrun
  rw [heffect, RecordSet.rows_foldl_erase]
  refine List.filter_congr fun r _ => ?_
  have hsame : parts.flatten.contains r.nodeId = nodeIds.contains r.nodeId := by
    rw [Bool.eq_iff_iff, List.contains_iff_mem, List.contains_iff_mem, hperm.mem_iff]
  rw [hsame]

/-! ## Without throttling -/

/-- A request is counted, then throttled, and leaves what throttling sets aside. -/
def Throttled {ο : Type} (op : Batch.Operation RecordTable String ο) : Prop :=
  ∀ nodeIds table, ∃ counted : RecordTable, counted.throttled = table.throttled ∧
    ∀ split t, throttle nodeIds counted = (.done split, t) →
      ∃ output t', op.submit nodeIds table = (.done ⟨output, split.2⟩, t') ∧
        t'.throttled = t.throttled

/-- Reads are throttled. -/
theorem throttled_read : Throttled read := by
  intro nodeIds table
  exact ⟨{ table with getSizes := table.getSizes ++ [nodeIds.length] }, rfl,
    fun _ _ h => ⟨_, _, submit_read_of h, rfl⟩⟩

/-- Removals are throttled. -/
theorem throttled_remove : Throttled remove := by
  intro nodeIds table
  exact ⟨{ table with removeSizes := table.removeSizes ++ [nodeIds.length] }, rfl,
    fun _ _ h => ⟨_, _, submit_remove_of h, rfl⟩⟩

section Throttled

variable {ο : Type} {op : Batch.Operation RecordTable String ο}

/-- Where nothing is throttled, a request leaves nothing. -/
theorem Throttled.submit_free (hop : Throttled op) (nodeIds : List String)
    (h : table.throttled = 0) :
    ∃ output table', op.submit nodeIds table = (.done ⟨output, []⟩, table') ∧
      table'.throttled = 0 := by
  obtain ⟨counted, hcounted, hsubmit⟩ := hop nodeIds table
  have hfree : counted.throttled = 0 := hcounted.trans h
  obtain ⟨output, table', hdone, hkept⟩ := hsubmit _ _ (throttle_of_not_throttled nodeIds hfree)
  exact ⟨output, table', hdone, hkept.trans hfree⟩

/-- Without throttling a run is done, and the next one is not throttled either. -/
theorem Throttled.run_succeeds (hop : Throttled op) (nodeIds : List String)
    (h : table.throttled = 0) :
    ∃ outputs table', run op nodeIds table = (.done outputs, table') ∧ table'.throttled = 0 := by
  obtain ⟨outputs, c, hrun, hkept⟩ : ∃ outputs c, Batch.run op .immediate (fun _ => 0) nodeIds
      ⟨table, 0⟩ = (.done outputs, c) ∧ c.world.throttled = 0 :=
    Batch.run_succeeds (fun nodeIds _ ht => hop.submit_free nodeIds ht) h nodeIds
  exact ⟨outputs, c.world, Batch.unclocked_eq_done.2 ⟨c, hrun, rfl⟩, hkept⟩

end Throttled

/-- Without throttling a read is done, and the next one is not throttled either. -/
theorem readAll_succeeds (nodeIds : List String) (h : table.throttled = 0) :
    ∃ found table', readAll nodeIds table = (.done found, table') ∧ table'.throttled = 0 := by
  obtain ⟨outputs, table', hrun, hkept⟩ := throttled_read.run_succeeds nodeIds h
  exact ⟨_, table', Action.bind_of_done hrun, hkept⟩

/-- Without throttling a removal is done, and the next one is not throttled either. -/
theorem removeAll_succeeds (nodeIds : List String) (h : table.throttled = 0) :
    ∃ table', removeAll nodeIds table = (.done (), table') ∧ table'.throttled = 0 := by
  obtain ⟨outputs, table', hrun, hkept⟩ := throttled_remove.run_succeeds nodeIds h
  exact ⟨table', Action.bind_of_done hrun, hkept⟩

/-! ## However a request ends -/

variable {which : String → Prop}

/-- Throttling leaves the records alone. -/
theorem within_throttle (nodeIds : List String) :
    Action.Within (Order.Preimage records (RecordSet.Drops which)) (throttle nodeIds) := by
  refine Action.within_get_bind fun table => ?_
  split
  · exact Action.within_pure _ table
  · exact Std.Refl.refl (r := RecordSet.Drops which) table.records

/-- Reading all of some node ids leaves the records alone, however it ends. -/
theorem within_readAll (nodeIds : List String) :
    Action.Within (Order.Preimage records (RecordSet.Drops which)) (readAll nodeIds) := by
  have hcount (items : List String) : Action.Within (Order.Preimage records (RecordSet.Drops which))
      (Action.modify fun t : RecordTable => { t with getSizes := t.getSizes ++ [items.length] }) :=
    fun table => Std.Refl.refl (r := RecordSet.Drops which) table.records
  have hrun : Action.Within (Order.Preimage records (RecordSet.Drops which)) (run read nodeIds) := by
    refine Batch.within_unclocked (Batch.within_run (fun _ => True) ?_ ?_ fun _ _ => trivial)
    · intro items _
      exact (hcount items).bind fun _ => (within_throttle items).bind fun _ =>
        Action.within_get.bind fun _ => Action.within_pure _
    · exact fun _ _ _ _ _ _ _ _ => trivial
  exact hrun.bind fun _ => Action.within_pure _

/-- Removing the records of some node ids only takes away records of these, however it ends. -/
theorem within_removeAll (h : ∀ n ∈ nodeIds, which n) :
    Action.Within (Order.Preimage records (RecordSet.Drops which)) (removeAll nodeIds) := by
  have hcount (items : List String) : Action.Within (Order.Preimage records (RecordSet.Drops which))
      (Action.modify fun t : RecordTable =>
        { t with removeSizes := t.removeSizes ++ [items.length] }) :=
    fun table => Std.Refl.refl (r := RecordSet.Drops which) table.records
  have herase {items : List String} (hitems : ∀ n ∈ items, which n) :
      Action.Within (Order.Preimage records (RecordSet.Drops which))
        (Action.modify fun t : RecordTable =>
          { t with records := items.foldl RecordSet.erase t.records }) :=
    fun table => RecordSet.drops_foldl_erase hitems table.records
  have hrun : Action.Within (Order.Preimage records (RecordSet.Drops which))
      (run remove nodeIds) := by
    refine Batch.within_unclocked (Batch.within_run which ?_ ?_ h)
    · intro items hitems
      refine (hcount items).bind fun _ s => ?_
      refine Action.snd_bind_of (within_throttle items s) fun split t hsplit => ?_
      obtain ⟨hsame, hparts⟩ := throttle_eq_done hsplit
      have hfirst : ∀ n ∈ split.1, which n := by
        intro n hn
        exact hitems n (hparts ▸ List.mem_append_left split.2 hn)
      have hgone := ((herase hfirst).bind fun _ => Action.within_pure
        (⟨(), split.2⟩ : Batch.Reply String Unit)) t
      rw [Order.Preimage, ← hsame]
      exact hgone
    · intro items s reply s' hitems hdone
      simp only [remove, Action.bind_eq_done, Action.modify_eq_done, Action.pure_eq_done] at hdone
      obtain ⟨_, _, rfl, split, t, hsplit, _, _, rfl, rfl, rfl⟩ := hdone
      exact fun n hn => hitems n (left_of_throttle hsplit hn)
  exact hrun.bind fun _ => Action.within_pure _

end RecordTable

end Salvage
