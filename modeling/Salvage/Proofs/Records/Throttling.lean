import Salvage.Proofs.Batch.Requests
import Salvage.Proofs.Records

/-!
# Records under throttling

A throttled table leaves the last item of a request, so a chunk is sent again with that item alone until
the throttling is over or the retries are used up. All chunks count on the same throttling, but the first
one takes all of it: either its retries outlast the throttling, and the other chunks see none, or it is
given up, and there are no others. So it is decided by the first chunk whether batched access is done,
and when it is done nothing tells it from plain access.
-/

namespace Salvage

namespace Batch

variable {σ ι ο : Type} {op : Operation σ ι ο} {b : Backoff} {random : Nat → Nat}

/-- While a counter of the state is not zero, a request for items takes one from it and leaves one item.
Otherwise it leaves nothing. -/
structure Stalls (op : Operation σ ι ο) (stalls : σ → Nat) : Prop where
  free : ∀ items s, stalls s = 0 →
    ∃ output s', op.submit items s = (.done ⟨output, []⟩, s') ∧ stalls s' = 0
  stalled : ∀ items s, items ≠ [] → stalls s ≠ 0 →
    ∃ output item s', op.submit items s = (.done ⟨output, [item]⟩, s') ∧ stalls s' = stalls s - 1

variable {stalls : σ → Nat} {items : List ι} {c : Clocked σ} {n : Nat}

/-- After a request that leaves one item, that one is sent again as long as there are retries. -/
theorem drain_succ_of_left {output : ο} {item : ι} {w : σ} (hb : b.InRange random)
    (hn : n + 1 ≤ b.maxAttempts) (h : op.submit items c.world = (.done ⟨output, [item]⟩, w)) :
    ∃ slept, drain op b random (n + 1) items c =
      ((drain op b random n [item] ⟨w, slept⟩).1.map (output :: ·),
        (drain op b random n [item] ⟨w, slept⟩).2) := by
  obtain ⟨delay, hdelay⟩ := Option.isSome_iff_exists.1
    (hb.delays (b.maxAttempts - n) (by omega) (Nat.sub_le _ _))
  refine ⟨c.slept + delay, ?_⟩
  rw [(drain_of_left_ne_nil h (List.cons_ne_nil item [])).2 n,
    Action.bind_of_done (wait_of_some hdelay _), Action.bind_pure_apply]

/-- Without stalls a chunk is drained by its first request. -/
theorem drain_of_free (hop : Stalls op stalls) (items : List ι) (h : stalls c.world = 0) (n : Nat) :
    ∃ outputs c', drain op b random n items c = (.done outputs, c') ∧ stalls c'.world = 0 := by
  obtain ⟨output, w, hsubmit, hfree⟩ := hop.free items c.world h
  exact ⟨[output], { c with world := w }, drain_of_left_nil hsubmit rfl n, hfree⟩

/-- A chunk is drained when its retries outlast the stalls, which are over then. -/
theorem drain_of_stalls_le (hop : Stalls op stalls) (hb : b.InRange random) (hn : n ≤ b.maxAttempts)
    (hitems : items ≠ []) (h : stalls c.world ≤ n) :
    ∃ outputs c', drain op b random n items c = (.done outputs, c') ∧ stalls c'.world = 0 := by
  induction n generalizing items c with
  | zero => exact drain_of_free hop items (Nat.le_zero.1 h) 0
  | succ n ih =>
    by_cases hnone : stalls c.world = 0
    · exact drain_of_free hop items hnone (n + 1)
    · obtain ⟨output, item, w, hsubmit, hfewer⟩ := hop.stalled items c.world hitems hnone
      obtain ⟨slept, hagain⟩ := drain_succ_of_left hb hn hsubmit
      have hle : stalls w ≤ n := by omega
      obtain ⟨outputs, c', hrest, hfree⟩ := ih (c := ⟨w, slept⟩) (by omega)
        (List.cons_ne_nil item []) hle
      rw [hagain, hrest]
      exact ⟨output :: outputs, c', rfl, hfree⟩

/-- A chunk is given up with one item left when the stalls outlast its retries. -/
theorem drain_of_lt_stalls (hop : Stalls op stalls) (hb : b.InRange random) (hn : n ≤ b.maxAttempts)
    (hitems : items ≠ []) (h : n < stalls c.world) :
    ∃ c', drain op b random n items c =
      (.failed (.retriesExhausted op.name 1 b.maxAttempts), c') := by
  induction n generalizing items c with
  | zero =>
    obtain ⟨output, item, w, hsubmit, -⟩ := hop.stalled items c.world hitems (by omega)
    refine ⟨{ c with world := w }, ?_⟩
    rw [(drain_of_left_ne_nil hsubmit (List.cons_ne_nil item [])).1, giveUp, if_pos hb.count]
    rfl
  | succ n ih =>
    obtain ⟨output, item, w, hsubmit, hfewer⟩ := hop.stalled items c.world hitems (by omega)
    obtain ⟨slept, hagain⟩ := drain_succ_of_left hb hn hsubmit
    have hlt : n < stalls w := by omega
    obtain ⟨c', hrest⟩ := ih (c := ⟨w, slept⟩) (by omega) (List.cons_ne_nil item []) hlt
    rw [hagain, hrest]
    exact ⟨c', rfl⟩

/-- Chunks are drained one after another when the retries of the first outlast the stalls. -/
theorem each_drain_of_stalls_le (hop : Stalls op stalls) (hb : b.InRange random)
    {parts : List (List ι)} (hparts : ∀ part ∈ parts, part ≠ [])
    (h : stalls c.world ≤ b.maxAttempts) :
    ∃ results c', Action.each (drain op b random b.maxAttempts) parts c = (.done results, c') := by
  induction parts generalizing c with
  | nil => exact ⟨[], c, rfl⟩
  | cons part parts ih =>
    obtain ⟨hpart, hothers⟩ := List.forall_mem_cons.1 hparts
    obtain ⟨outputs, c₁, hfirst, hfree⟩ := drain_of_stalls_le hop hb (Nat.le_refl _) hpart h
    obtain ⟨results, c₂, hrest⟩ := ih (c := c₁) hothers (by omega)
    exact ⟨outputs :: results, c₂,
      Action.each_cons_eq_done.2 ⟨outputs, results, c₁, rfl, hfirst, hrest⟩⟩

/-- A run with stalls is done exactly when it has no items or its retries outlast the stalls. Otherwise it
is given up with one item left. -/
theorem run_of_stalls (hop : Stalls op stalls) (hb : b.InRange random) (items : List ι)
    (c : Clocked σ) :
    ((run op b random items c).1.isDone ↔ items = [] ∨ stalls c.world ≤ b.maxAttempts) ∧
      ((run op b random items c).1.isDone = false →
        (run op b random items c).1 = .failed (.retriesExhausted op.name 1 b.maxAttempts)) := by
  have hrun : run op b random items c = _ := Action.bind_pure_apply _ List.flatten _
  have hparts : ∀ part ∈ chunks op.limit items, part ≠ [] := fun part hpart => (of_mem_chunks hpart).1
  by_cases hdone : items = [] ∨ stalls c.world ≤ b.maxAttempts
  · have hall : (run op b random items c).1.isDone = true := by
      rw [hrun, Outcome.isDone_map]
      rcases hdone with rfl | hle
      · rfl
      · obtain ⟨results, c', heach⟩ := each_drain_of_stalls_le hop hb hparts hle
        rw [heach]
        rfl
    rw [hall]
    exact ⟨iff_of_true rfl hdone, nofun⟩
  · obtain ⟨hitems, hlt⟩ := not_or.1 hdone
    obtain ⟨part, parts, hchunks⟩ : ∃ part parts, chunks op.limit items = part :: parts := by
      refine List.exists_cons_of_ne_nil fun hnone => hitems ?_
      rw [← flatten_chunks op.limit items, hnone, List.flatten_nil]
    have hpart : part ≠ [] := hparts part (hchunks ▸ List.mem_cons_self)
    obtain ⟨c', hfirst⟩ := drain_of_lt_stalls hop hb (Nat.le_refl _) hpart (Nat.not_le.1 hlt)
    have heach : Action.each (drain op b random b.maxAttempts) (part :: parts) c =
        (.failed (.retriesExhausted op.name 1 b.maxAttempts), c') := Action.bind_of_failed hfirst
    have hfailed : (run op b random items c).1 =
        .failed (.retriesExhausted op.name 1 b.maxAttempts) := by
      rw [hrun, hchunks, heach]
      rfl
    rw [hfailed]
    exact ⟨iff_of_false nofun hdone, fun _ => rfl⟩

end Batch

namespace RecordTable

variable {table : RecordTable} {nodeIds : List String}

/-- No retry of the backoff without waiting is out of range. -/
theorem immediate_inRange (random : Nat → Nat) : Backoff.immediate.InRange random := by
  refine ⟨by decide, fun retry _ _ => ?_⟩
  simp [Backoff.delay?, Backoff.inRange, Backoff.jitter, Backoff.immediate]

/-- A throttled table sets aside the last item of a request, and counts that. -/
theorem throttle_of_throttled (hsome : nodeIds ≠ []) (h : table.throttled ≠ 0) :
    ∃ nodeId, throttle nodeIds table = (.done (nodeIds.dropLast, [nodeId]),
      { table with throttled := table.throttled - 1 }) := by
  refine ⟨nodeIds.getLast hsome, ?_⟩
  rw [throttle, Action.get_bind_apply, if_neg (not_or.2 ⟨h, hsome⟩), List.getLast?_eq_some_getLast hsome]
  rfl

/-- Throttled requests stall while the table is throttled. -/
theorem Throttled.stalls {ο : Type} {op : Batch.Operation RecordTable String ο}
    (hop : Throttled op) : Batch.Stalls op throttled := by
  refine ⟨fun nodeIds _ h => hop.submit_free nodeIds h, fun nodeIds t hsome h => ?_⟩
  obtain ⟨counted, hcounted, hsubmit⟩ := hop nodeIds t
  have hthrottled : counted.throttled ≠ 0 := hcounted ▸ h
  obtain ⟨nodeId, hthrottle⟩ := throttle_of_throttled hsome hthrottled
  obtain ⟨output, t', hdone, hfewer⟩ := hsubmit _ _ hthrottle
  exact ⟨output, nodeId, t', hdone, hfewer.trans (congrArg (· - 1) hcounted)⟩

/-- Access to the records of some node ids of a throttled table ended as it should: it is done when there
is nothing to do or ten retries outlast the throttling, and is given up otherwise. -/
structure Settled {α ο : Type} (op : Batch.Operation RecordTable String ο) (nodeIds : List String)
    (table : RecordTable) (outcome : Outcome α) : Prop where
  done_iff : outcome.isDone ↔ nodeIds = [] ∨ table.throttled ≤ 10
  given_up : outcome.isDone = false → outcome = .failed (.retriesExhausted op.name 1 10)

/-- What a run of stalling requests returns is settled by the throttling. -/
theorem settled_run {α ο : Type} {op : Batch.Operation RecordTable String ο}
    (hop : Batch.Stalls op throttled) (f : List ο → α) (nodeIds : List String)
    (table : RecordTable) : Settled op nodeIds table ((run op nodeIds table).1.map f) := by
  obtain ⟨hdone, hfailed⟩ := Batch.run_of_stalls hop (immediate_inRange fun _ => 0) nodeIds ⟨table, 0⟩
  refine ⟨?_, fun hnot => ?_⟩
  · rw [Outcome.isDone_map]
    exact hdone
  · rw [Outcome.isDone_map] at hnot
    exact Outcome.map_eq_failed.2 (hfailed hnot)

/-- Batched access equals plain access. It is done exactly when there is nothing to do or at most ten
requests are still throttled. A read that is done has looked up each of its node ids, and a removal that
is done has filtered out all of them; one that is given up has removed no others. -/
theorem batched_as_plain (nodeIds : List String) (table : RecordTable) :
    Settled read nodeIds table (readAll nodeIds table).1 ∧
      Settled remove nodeIds table (removeAll nodeIds table).1 ∧
      (∀ found table', readAll nodeIds table = (.done found, table') →
        (∀ nodeId, found.find? nodeId =
          if nodeId ∈ nodeIds then table.records.find? nodeId else none) ∧
        (found.rows.map DeleteRecord.nodeId).Nodup ∧ table'.records = table.records) ∧
      (∀ table', removeAll nodeIds table = (.done (), table') →
        table'.records.rows = table.records.rows.filter fun r => !nodeIds.contains r.nodeId) ∧
      ∀ error table', removeAll nodeIds table = (.failed error, table') →
        RecordSet.Drops (· ∈ nodeIds) table.records table'.records := by
  have hread : readAll nodeIds table = _ := Action.bind_pure_apply _ _ table
  have hremove : removeAll nodeIds table = _ := Action.bind_pure_apply _ _ table
  refine ⟨?_, ?_, fun found table' h => ?_, fun table' h => removeAll_done h, fun e table' h => ?_⟩
  · rw [hread]
    exact settled_run throttled_read.stalls _ nodeIds table
  · rw [hremove]
    exact settled_run throttled_remove.stalls _ nodeIds table
  · obtain ⟨hsame, hfound⟩ := readAll_done h
    rw [hread] at h
    obtain ⟨outputs, -, hvalue⟩ := Outcome.map_eq_done.1 (Prod.ext_iff.1 h).1
    exact ⟨hfound, hvalue ▸ RecordSet.nodup_ofList outputs.flatten, hsame⟩
  · have hown : ∀ n ∈ nodeIds, (· ∈ nodeIds) n := fun _ hn => hn
    have hdrops := within_removeAll hown table
    rwa [h] at hdrops

end RecordTable

end Salvage
