import Salvage.Provider.Records
import Salvage.Proofs.Batch.Conservation
import Salvage.Proofs.Batch.Halting
import Salvage.Proofs.Provider.Transcript
import Salvage.Proofs.Records

/-!
# No node id is left over

A read and a removal ask a record service in the same way: each request is a call for the keys of some
node ids, and what the reply leaves of them is asked for again. All that is assumed of the service is that
a reply leaves keys that it was asked for, and none more often than it was. Then no call is too large, and
an access that is done has been answered for every node id. Everything else stops it with the last call:
a call that fails, an item that is no record, and a chunk that has used up its retries.
-/

namespace Salvage

open List (Forall₂)
open Batch (Exchange Heard IsRound Operation Reply Runs UsedUp chunks)
open Provider (transcript)

/-- The key of a node id has that node id. -/
theorem Item.nodeId?_keyOf (nodeId : String) : nodeId? (keyOf nodeId) = some nodeId := by
  simp [nodeId?, keyOf]

/-- An item that is read as a record has its node id. -/
theorem DeleteRecord.nodeId?_of_ofItem {item : Item} {r : DeleteRecord}
    (h : DeleteRecord.ofItem item = .ok r) : item.nodeId? = some r.nodeId := by
  obtain ⟨nodeId, hnode, h⟩ := bind_eq_ok.1 h
  obtain ⟨_, -, h⟩ := bind_eq_ok.1 h
  obtain ⟨_, -, h⟩ := bind_eq_ok.1 h
  obtain ⟨_, -, h⟩ := bind_eq_ok.1 h
  obtain ⟨_, -, h⟩ := bind_eq_ok.1 h
  cases h
  rw [Item.text] at hnode
  split at hnode
  · rename_i hlookup
    cases hnode
    rw [Item.nodeId?, hlookup]
  · cases hnode
  · cases hnode

/-- The keys that a call is for. -/
def RecordCall.keys : RecordCall → List Item
  | .get _ keys _ => keys
  | .remove _ keys => keys

namespace RecordService

/-- Calls to a record service, each with the answer to it. -/
abbrev Talk := List (RecordCall × Except String RecordReply)

/-- The keys of a table that a reply leaves unprocessed. -/
def leftKeys (table : String) (reply : RecordReply) : List Item :=
  (reply.unprocessed.lookup table).getD []

/-- The items of a table in a reply. -/
def itemsOf (table : String) (reply : RecordReply) : List Item :=
  (reply.items.lookup table).getD []

/-- The items of a table in all replies, in order. -/
def allItems (table : String) (talk : Talk) : List Item :=
  talk.flatMap fun h => match h.2 with
    | .ok reply => itemsOf table reply
    | .error _ => []

/-- Every reply leaves keys that it was asked for, and none more often than it was. -/
def LeavesAsked (table : String) (talk : Talk) : Prop :=
  ∀ call reply, (call, .ok reply) ∈ talk → (leftKeys table reply).Subperm call.keys

/-- What a read makes of an answer. -/
def hearRead (table : String) : Except String RecordReply → Outcome (Reply String (List DeleteRecord)) :=
  Provider.hear .recordStore fun reply =>
    (Outcome.ofExcept (found table reply)).map fun records => ⟨records, leftOver table reply⟩

/-- What a removal makes of an answer. -/
def hearRemove (table : String) : Except String RecordReply → Outcome (Reply String Unit) :=
  Provider.hear .recordStore fun reply => .done ⟨(), leftOver table reply⟩

/-- A request of a read is one call. -/
theorem asks_read (table : String) :
    (read table).Asks (fun nodeIds => .get table (nodeIds.map Item.keyOf) projection)
      (hearRead table) :=
  Operation.asks_of_call (fun _ => rfl) fun _ _ => Action.bind_pure_apply _ _ _

/-- A request of a removal is one call. -/
theorem asks_remove (table : String) :
    (remove table).Asks (fun nodeIds => .remove table (nodeIds.map Item.keyOf))
      (hearRemove table) :=
  Operation.asks_of_call (fun _ => rfl) fun _ _ => rfl

/-- An access to a table of a record service: how it asks for node ids, what it makes of an answer, and
the text that its errors are wrapped into. -/
structure Access (table : String) (ο : Type) where
  op : Operation RecordService String ο
  text : String
  ask : List String → RecordCall
  hear : Except String RecordReply → Outcome (Reply String ο)
  asks : op.Asks ask hear
  keys_ask : ∀ nodeIds, (ask nodeIds).keys = nodeIds.map Item.keyOf
  hear_error : ∀ text, hear (.error text) = .failed (.recordStore text)
  hear_unprocessed : ∀ reply r, hear (.ok reply) = .done r → r.unprocessed = leftOver table reply

/-- Reading delete records from a table. -/
def reading (table : String) : Access table (List DeleteRecord) where
  op := read table
  text := s!"error reading delete records from {table}"
  ask nodeIds := .get table (nodeIds.map Item.keyOf) projection
  hear := hearRead table
  asks := asks_read table
  keys_ask _ := rfl
  hear_error _ := rfl
  hear_unprocessed reply r h := by
    obtain ⟨_, _, rfl⟩ := Outcome.map_eq_done.1 h
    rfl

/-- Removing delete records from a table. -/
def removing (table : String) : Access table Unit where
  op := remove table
  text := s!"error removing delete records from {table}"
  ask nodeIds := .remove table (nodeIds.map Item.keyOf)
  hear := hearRemove table
  asks := asks_remove table
  keys_ask _ := rfl
  hear_error _ := rfl
  hear_unprocessed reply r h := by
    cases h
    rfl

/-- Some of the node ids that are asked for in one call: not none, and no more than a call may be
for. -/
structure Asked (limit : Nat) (nodeIds ids : List String) : Prop where
  nonempty : ids ≠ []
  few : ids.length ≤ limit
  given : ids ⊆ nodeIds

/-- An access to a table that came to an outcome after some calls, made in rounds for the chunks of its
node ids. -/
structure Serves {table : String} {ο α : Type} (a : Access table ο) (limit : Nat) (b : Backoff)
    (random : Nat → Nat) (nodeIds : List String) (talk : Talk)
    (rounds : List (List (Exchange String ο))) (outcome : Outcome α) : Prop where
  /-- The requests are the calls, and come to what is made of the answers. -/
  heard : Forall₂ (Heard a.ask a.hear) rounds.flatten talk
  /-- There is a round for each of the first chunks. -/
  sent : Forall₂ IsRound ((chunks a.op.limit nodeIds).take rounds.length) rounds
  /-- No call is for too many node ids, or for one that is not to be looked up. -/
  sizes : ∀ h ∈ talk, ∃ ids, h.1 = a.ask ids ∧ Asked limit nodeIds ids
  /-- When the access is done, each node id was in a call whose reply does not leave it. -/
  whole : outcome.isDone → ∀ nodeId ∈ nodeIds, ∃ call reply, (call, .ok reply) ∈ talk ∧
    Item.keyOf nodeId ∈ call.keys ∧ ∀ key ∈ leftKeys table reply, key.nodeId? ≠ some nodeId
  /-- A call that fails is the last one, and the access fails as it does. -/
  failed : ∀ call text, (call, .error text) ∈ talk →
    outcome.FailsBehind a.text (.recordStore text) ∧ talk.getLast? = some (call, .error text)
  /-- A chunk that has used up its retries is given up, and its last call is the last of all. -/
  exhausted : b.maxAttempts + 1 < Nat.pow 2 32 → ∀ round ∈ rounds, UsedUp b.maxAttempts round →
    ∃ last ∈ round, rounds.flatten.getLast? = some last ∧
      outcome.FailsBehind a.text (.retriesExhausted a.op.name last.left.length b.maxAttempts)
  /-- Nothing else than an answer of no use stops an access whose counts and delays are in range. -/
  done : b.InRange random → (∀ h ∈ talk, ∃ r, a.hear h.2 = .done r) →
    (∀ round ∈ rounds, ¬ UsedUp b.maxAttempts round) → outcome.isDone

/-- What a read of delete records makes of the items in its replies. -/
structure Finds (table : String) (talk : Talk) (outcome : Outcome RecordSet) : Prop where
  /-- A read that is done has one record for each node id that items have, which is read from the last
  of these, and no other. -/
  found : ∀ found, outcome = .done found → (found.rows.map DeleteRecord.nodeId).Nodup ∧
    ∀ nodeId r, found.find? nodeId = some r ↔
      ∃ item, (allItems table talk).reverse.find? (fun i => i.nodeId? == some nodeId) = some item ∧
        DeleteRecord.ofItem item = .ok r
  /-- A reply with an item that is no record is the last one, and the read fails for the first such
  item: those before it are records. -/
  unread : ∀ call reply, (call, .ok reply) ∈ talk → ∀ item ∈ itemsOf table reply,
    ∀ error, DeleteRecord.ofItem item = .error error →
      talk.getLast? = some (call, .ok reply) ∧
        ∃ before first after error, itemsOf table reply = before ++ first :: after ∧
          (∀ i ∈ before, ∃ r, DeleteRecord.ofItem i = .ok r) ∧
          DeleteRecord.ofItem first = .error error ∧ outcome.FailsBehind (reading table).text error

variable {table : String} {ο α β : Type} {a : Access table ο} {b : Backoff} {random : Nat → Nat}
  {nodeIds : List String} {c : Batch.Clocked RecordService} {talk : Talk} {slept limit : Nat}
  {e : Exchange String ο} {h : RecordCall × Except String RecordReply}
  {round : List (Exchange String ο)} {rounds : List (List (Exchange String ο))}
  {outcome : Outcome (List ο)} {reply : RecordReply}

/-! ## What is asked again -/

/-- What a reply leaves of some keys are some of their node ids, none more often than they. -/
theorem leftOver_subperm (h : (leftKeys table reply).Subperm (nodeIds.map Item.keyOf)) :
    (leftOver table reply).Subperm nodeIds := by
  obtain ⟨keys, hperm, hsub⟩ := h
  have hkeyOf : Item.nodeId? ∘ Item.keyOf = some := funext Item.nodeId?_keyOf
  have hids : (nodeIds.map Item.keyOf).filterMap Item.nodeId? = nodeIds := by
    rw [List.filterMap_map, hkeyOf, List.filterMap_some]
  rw [← hids]
  exact ⟨_, hperm.filterMap _, hsub.filterMap _⟩

/-- A request with a reply leaves what the answer to its call leaves. -/
theorem Access.left_eq (hheard : Heard a.ask a.hear e h) (hreply : ∃ r, e.outcome = .done r) :
    ∃ reply, h.2 = .ok reply ∧ e.left = leftOver table reply := by
  obtain ⟨r, hdone⟩ := hreply
  have hhear := hheard.answer.symm.trans hdone
  cases hanswer : h.2 with
  | error text =>
    rw [hanswer, a.hear_error] at hhear
    cases hhear
  | ok reply =>
    rw [hanswer] at hhear
    refine ⟨reply, rfl, ?_⟩
    rw [Exchange.left, hdone]
    exact a.hear_unprocessed reply r hhear

/-- What a request leaves are some of its node ids, none more often than it has them. -/
theorem Access.left_subperm (hleaves : LeavesAsked table talk) (hh : h ∈ talk)
    (hheard : Heard a.ask a.hear e h) (hleft : e.left ≠ []) : e.left.Subperm e.items := by
  obtain ⟨reply, hanswer, hunprocessed⟩ := left_eq hheard (Exchange.replied_of_left hleft)
  have hcall : h = (a.ask e.items, .ok reply) := Prod.ext hheard.call hanswer
  rw [hcall] at hh
  have hkeys := hleaves _ _ hh
  rw [a.keys_ask] at hkeys
  rw [hunprocessed]
  exact leftOver_subperm hkeys

/-- The requests of an access are the calls of its transcript. -/
theorem Access.runs (a : Access table ο) (b : Backoff) (random : Nat → Nat) (nodeIds : List String)
    (c : Batch.Clocked RecordService) :
    ∃ rounds slept, Runs a.op b random (chunks a.op.limit nodeIds) rounds
        (Batch.run a.op b random nodeIds c).1 slept ∧
      Forall₂ (Heard a.ask a.hear) rounds.flatten
        (transcript c.world (Batch.run a.op b random nodeIds c).2.world) := by
  obtain ⟨rounds, slept, hruns, hrequests, -⟩ := Batch.runs_requests a.op b random nodeIds c
  have hheard := a.asks.heard_requests b random nodeIds c
  rw [hrequests] at hheard
  exact ⟨rounds, slept, hruns, hheard⟩

section Runs

variable (hruns : Runs a.op b random (chunks a.op.limit nodeIds) rounds outcome slept)
  (hheard : Forall₂ (Heard a.ask a.hear) rounds.flatten talk)
include hruns hheard

/-- Every request is for some of the node ids, not for none and not for too many. -/
theorem Access.asked (hleaves : LeavesAsked table talk) :
    ∀ e ∈ rounds.flatten, Asked (max a.op.limit 1) nodeIds e.items := by
  intro e he
  obtain ⟨part, hpart, round, hround, _, _, hmem, hdrains⟩ := hruns.exists_drains e he
  obtain ⟨hne, hle⟩ := Batch.of_mem_chunks hpart
  refine hdrains.forall_items ⟨hne, hle, Batch.subset_of_mem_chunks hpart⟩ ?_ e hmem
  intro e' he' _ hleft hitems
  obtain ⟨h, hh, hcall⟩ :=
    exists_of_mem_left hheard (List.mem_flatten.2 ⟨round, hround, he'⟩)
  have hsub := left_subperm hleaves hh hcall hleft
  exact ⟨hleft, hsub.length_le.trans hitems.few, List.Subset.trans hsub.subset hitems.given⟩

/-- A call whose answer is of no use is the last one, and the access fails for it. -/
theorem Access.stops (hh : h ∈ talk) {error : Error} (herror : a.hear h.2 = .failed error) :
    outcome = .failed error ∧ talk.getLast? = some h := by
  have hhalts := hruns.halts
  obtain ⟨e, he, hcall⟩ := exists_of_mem_right hheard hh
  refine ⟨hhalts.failed e he error (hcall.answer.trans herror), ?_⟩
  refine (mem_dropLast_or_last hh).resolve_left fun hfront => ?_
  obtain ⟨e', he', hcall'⟩ := exists_of_mem_right (forall₂_dropLast hheard) hfront
  obtain ⟨reply, hreply⟩ := hhalts.replied e' he'
  rw [hcall'.answer, herror] at hreply
  cases hreply

/-- When an access is done, each node id was in a call whose reply does not leave it. -/
theorem Access.exists_served (hdone : outcome.isDone) {nodeId : String} (hnode : nodeId ∈ nodeIds) :
    ∃ call reply, (call, .ok reply) ∈ talk ∧ Item.keyOf nodeId ∈ call.keys ∧
      ∀ key ∈ leftKeys table reply, key.nodeId? ≠ some nodeId := by
  rw [← Batch.flatten_chunks a.op.limit nodeIds] at hnode
  obtain ⟨e, he, hitem, hserved⟩ := hruns.exists_processed hdone nodeId hnode
  obtain ⟨-, hanswered, -⟩ := hruns.answered hdone
  obtain ⟨h, hh, hcall⟩ := exists_of_mem_left hheard he
  obtain ⟨reply, hanswer, hleft⟩ := left_eq hcall (Batch.replies_flatten hanswered e he)
  refine ⟨h.1, reply, ?_, ?_, fun key hkey hid => hserved ?_⟩
  · rw [← hanswer]
    exact hh
  · rw [hcall.call, a.keys_ask]
    exact List.mem_map_of_mem hitem
  · rw [hleft]
    exact List.mem_filterMap.2 ⟨key, hkey, hid⟩

/-- However an access goes, it serves its node ids or stops with the last call. -/
theorem Access.serves (hlimit : max a.op.limit 1 = limit) (hleaves : LeavesAsked table talk) :
    Serves a limit b random nodeIds talk rounds (outcome.context a.text) := by
  refine ⟨hheard, ?_, ?_, ?_, ?_, ?_, ?_⟩
  · refine hruns.drains.imp ?_
    rintro _ _ ⟨_, _, hdrains⟩
    exact hdrains.isRound
  · intro h hh
    obtain ⟨e, he, hcall⟩ := exists_of_mem_right hheard hh
    have hasked := asked hruns hheard hleaves e he
    rw [hlimit] at hasked
    exact ⟨e.items, hcall.call, hasked⟩
  · intro hdone nodeId hnode
    rw [Outcome.isDone_context] at hdone
    exact exists_served hruns hheard hdone hnode
  · intro call text hh
    obtain ⟨hfailed, hlast⟩ := stops hruns hheard hh (a.hear_error text)
    exact ⟨Outcome.failsBehind_context hfailed, hlast⟩
  · intro hcount round hround hused
    obtain ⟨last, hlast, hend, hfailed⟩ := hruns.halts.exhausted hcount round hround hused
    exact ⟨last, hlast, hend, Outcome.failsBehind_context hfailed⟩
  · intro hb hanswers hnot
    rw [Outcome.isDone_context]
    refine hruns.halts.done hb (fun e he => ?_) hnot
    obtain ⟨h, hh, hcall⟩ := exists_of_mem_left hheard he
    rw [hcall.answer]
    exact hanswers h hh

end Runs

/-- The value that an access ends with does not matter for what it serves. -/
theorem Serves.map {outcome : Outcome α} (h : Serves a limit b random nodeIds talk rounds outcome)
    (f : α → β) : Serves a limit b random nodeIds talk rounds (outcome.map f) := by
  refine ⟨h.heard, h.sent, h.sizes, ?_, ?_, ?_, ?_⟩
  · rw [Outcome.isDone_map]
    exact h.whole
  · intro call text hh
    obtain ⟨hfails, hlast⟩ := h.failed call text hh
    exact ⟨hfails.map f, hlast⟩
  · intro hcount round hround hused
    obtain ⟨last, hlast, hend, hfails⟩ := h.exhausted hcount round hround hused
    exact ⟨last, hlast, hend, hfails.map f⟩
  · intro hb hanswers hnot
    rw [Outcome.isDone_map]
    exact h.done hb hanswers hnot

/-! ## What is read -/

/-- A reply with records has an item for each of them, in order. -/
theorem items_of_found {records : List DeleteRecord} (h : found table reply = .ok records) :
    Forall₂ (fun item r => DeleteRecord.ofItem item = .ok r) (itemsOf table reply) records := by
  rw [found] at h
  rw [itemsOf]
  split at h
  · rename_i items hitems
    rw [hitems]
    exact mapM_eq_ok_iff.1 h
  · cases h

/-- A reply with an item that is no record is of no use, for the first such item. -/
theorem hear_of_unread {item : Item} {error : Error} (hitem : item ∈ itemsOf table reply)
    (h : DeleteRecord.ofItem item = .error error) :
    ∃ before first after error, itemsOf table reply = before ++ first :: after ∧
      (∀ i ∈ before, ∃ r, DeleteRecord.ofItem i = .ok r) ∧
      DeleteRecord.ofItem first = .error error ∧ hearRead table (.ok reply) = .failed error := by
  cases hlookup : reply.items.lookup table with
  | none =>
    rw [itemsOf, hlookup] at hitem
    cases hitem
  | some items =>
    have hitems : itemsOf table reply = items := by rw [itemsOf, hlookup]; rfl
    have hfound : found table reply = items.mapM DeleteRecord.ofItem := by rw [found, hlookup]
    rw [hitems] at hitem ⊢
    cases hread : items.mapM DeleteRecord.ofItem with
    | ok records =>
      obtain ⟨r, -, hrecord⟩ := exists_of_mem_left (mapM_eq_ok_iff.1 hread) hitem
      rw [h] at hrecord
      cases hrecord
    | error first =>
      obtain ⟨before, item, after, hsplit, hbefore, herror⟩ := mapM_eq_error_iff.1 hread
      refine ⟨before, item, after, first, hsplit, hbefore, herror, ?_⟩
      rw [hearRead, Provider.hear, hfound, hread]
      rfl

/-- The outputs of answered requests are read from the items of their replies, in order. -/
theorem items_of_heard {ask : List String → RecordCall}
    {requests : List (Exchange String (List DeleteRecord))}
    (h : Forall₂ (Heard ask (hearRead table)) requests talk)
    (hreplied : ∀ e ∈ requests, ∃ r, e.outcome = .done r) :
    Forall₂ (fun item r => DeleteRecord.ofItem item = .ok r) (allItems table talk)
      (requests.flatMap Exchange.outputs).flatten := by
  induction h with
  | nil => exact .nil
  | @cons e call requests talk hcall _ ih =>
    obtain ⟨⟨r, hdone⟩, hothers⟩ := List.forall_mem_cons.1 hreplied
    have hhear := hcall.answer.symm.trans hdone
    have houtputs : e.outputs = [r.output] := by rw [Exchange.outputs, hdone]
    cases hanswer : call.2 with
    | error text =>
      rw [hanswer] at hhear
      cases hhear
    | ok reply =>
      rw [hanswer] at hhear
      obtain ⟨records, hrecords, rfl⟩ := Outcome.map_eq_done.1 hhear
      rw [allItems, List.flatMap_cons, List.flatMap_cons, hanswer, houtputs, List.flatten_append,
        List.flatten_singleton]
      exact List.rel_append (items_of_found (Outcome.ofExcept_eq_done.1 hrecords)) (ih hothers)

/-- Of records that are read from items, that of a node id is read from the last item with it. -/
theorem find?_of_items {items : List Item} {records : List DeleteRecord}
    (h : Forall₂ (fun item r => DeleteRecord.ofItem item = .ok r) items records) (nodeId : String)
    (r : DeleteRecord) :
    (RecordSet.ofList records).find? nodeId = some r ↔
      ∃ item, items.reverse.find? (fun i => i.nodeId? == some nodeId) = some item ∧
        DeleteRecord.ofItem item = .ok r := by
  have hback := List.forall₂_reverse_iff.2 h
  have hsame (item : Item) (r : DeleteRecord) (hread : DeleteRecord.ofItem item = .ok r) :
      (r.nodeId == nodeId) = (item.nodeId? == some nodeId) := by
    rw [DeleteRecord.nodeId?_of_ofItem hread]
    rfl
  rw [RecordSet.find?_ofList]
  constructor
  · exact find?_of_forall₂ hback.flip fun r item hread => (hsame item r hread).symm
  · rintro ⟨item, hitem, hread⟩
    obtain ⟨r', hfound, hread'⟩ := find?_of_forall₂ hback hsame hitem
    rw [hread] at hread'
    cases hread'
    exact hfound

/-- However a read goes, it finds the records of the items in its replies or stops with the last call. -/
theorem finds {rounds : List (List (Exchange String (List DeleteRecord)))}
    {outcome : Outcome (List (List DeleteRecord))}
    (hruns : Runs (read table) b random (chunks (read table).limit nodeIds) rounds outcome slept)
    (hheard : Forall₂ (Heard (reading table).ask (reading table).hear) rounds.flatten talk) :
    Finds table talk ((outcome.context (reading table).text).map fun outputs =>
      RecordSet.ofList outputs.flatten) := by
  refine ⟨fun found hfound => ?_, fun call reply hh item hitem error herror => ?_⟩
  · obtain ⟨outputs, hdone, rfl⟩ := Outcome.map_eq_done.1 hfound
    rw [Outcome.context_eq_done.1 hdone] at hruns
    obtain ⟨-, hanswered, hvalue⟩ := hruns.answered rfl
    cases hvalue
    have hitems := items_of_heard hheard (Batch.replies_flatten hanswered)
    exact ⟨RecordSet.nodup_ofList _, find?_of_items hitems⟩
  · obtain ⟨before, first, after, error', hsplit, hbefore, herror', hhear⟩ :=
      hear_of_unread hitem herror
    obtain ⟨hfailed, hlast⟩ := Access.stops hruns hheard hh hhear
    refine ⟨hlast, before, first, after, error', hsplit, hbefore, herror', ?_⟩
    exact (Outcome.failsBehind_context hfailed).map _

/-- A read ends as the run of its requests does. -/
theorem readAll_apply (table : String) (b : Backoff) (random : Nat → Nat) (nodeIds : List String)
    (c : Batch.Clocked RecordService) :
    readAll table b random nodeIds c =
      (((Batch.run (read table) b random nodeIds c).1.context (reading table).text).map
        fun outputs => RecordSet.ofList outputs.flatten,
      (Batch.run (read table) b random nodeIds c).2) :=
  Action.bind_pure_apply _ (fun outputs : List (List DeleteRecord) =>
    RecordSet.ofList outputs.flatten) c

/-- A removal ends as the run of its requests does. -/
theorem removeAll_apply (table : String) (b : Backoff) (random : Nat → Nat) (nodeIds : List String)
    (c : Batch.Clocked RecordService) :
    removeAll table b random nodeIds c =
      (((Batch.run (remove table) b random nodeIds c).1.context (removing table).text).map
        fun _ => (),
      (Batch.run (remove table) b random nodeIds c).2) :=
  Action.bind_pure_apply _ (fun _ : List Unit => ()) c

/-- A read serves its node ids and finds their records, or stops with the last call. -/
theorem readAll_serves
    (hleaves : LeavesAsked table
      (transcript c.world (readAll table b random nodeIds c).2.world)) :
    ∃ rounds,
      Serves (reading table) 100 b random nodeIds
        (transcript c.world (readAll table b random nodeIds c).2.world) rounds
        (readAll table b random nodeIds c).1 ∧
      Finds table (transcript c.world (readAll table b random nodeIds c).2.world)
        (readAll table b random nodeIds c).1 := by
  rw [readAll_apply] at hleaves ⊢
  obtain ⟨rounds, slept, hruns, hheard⟩ := (reading table).runs b random nodeIds c
  exact ⟨rounds, (Access.serves hruns hheard rfl hleaves).map _, finds hruns hheard⟩

/-- A removal serves its node ids, or stops with the last call. -/
theorem removeAll_serves
    (hleaves : LeavesAsked table
      (transcript c.world (removeAll table b random nodeIds c).2.world)) :
    ∃ rounds,
      Serves (removing table) 25 b random nodeIds
        (transcript c.world (removeAll table b random nodeIds c).2.world) rounds
        (removeAll table b random nodeIds c).1 := by
  rw [removeAll_apply] at hleaves ⊢
  obtain ⟨rounds, slept, hruns, hheard⟩ := (removing table).runs b random nodeIds c
  exact ⟨rounds, (Access.serves hruns hheard rfl hleaves).map _⟩

/-- A read and a removal never end well with a node id left over. As long as replies leave only what they
were asked for, no call is too large, every node id is served before an access is done, and a read has
found what its replies say. A call that fails, an item that is no record and the end of the retries stop
an access with an error in its context, and no call follows. -/
theorem accesses_serve (table : String) (b : Backoff) (random : Nat → Nat) (nodeIds : List String)
    (c : Batch.Clocked RecordService) :
    (let reads := readAll table b random nodeIds c
      let talk := transcript c.world reads.2.world
      LeavesAsked table talk → ∃ rounds,
        Serves (reading table) 100 b random nodeIds talk rounds reads.1 ∧ Finds table talk reads.1) ∧
    (let removes := removeAll table b random nodeIds c
      let talk := transcript c.world removes.2.world
      LeavesAsked table talk → ∃ rounds,
        Serves (removing table) 25 b random nodeIds talk rounds removes.1) :=
  ⟨readAll_serves, removeAll_serves⟩

/-- A delete record of a node id as an item. -/
def sampleItem (nodeId key : String) : Item :=
  [("S3Key", .text key), ("NodeId", .text nodeId), ("S3Bucket", .text "store"),
    ("S3ObjectVersion", .text "v1")]

/-- A reply that leaves the second of two keys. -/
def hesitation : RecordReply :=
  ⟨[("trash", [sampleItem "a" "k"])], [("trash", [Item.keyOf "b"])]⟩

/-- A reply with two items for that key. -/
def remainder : RecordReply :=
  ⟨[("trash", [sampleItem "b" "l", sampleItem "b" "m"])], []⟩

/-- What a service leaves at first is served by a second call, and the last item for it is read. -/
theorem accesses_serve_hesitant :
    let service : RecordService := ⟨[.ok hesitation, .ok remainder], "closed", []⟩
    let reads := readAll "trash" .immediate (fun _ => 0) ["a", "b"] ⟨service, 0⟩
    let removes := removeAll "trash" .immediate (fun _ => 0) ["a", "b"] ⟨service, 0⟩
    (LeavesAsked "trash" (transcript service reads.2.world) ∧ ∃ rounds,
      Serves (reading "trash") 100 .immediate (fun _ => 0) ["a", "b"]
        (transcript service reads.2.world) rounds
        (.done (⟨[⟨"b", "store", "m", "v1", none⟩, ⟨"a", "store", "k", "v1", none⟩]⟩ : RecordSet)) ∧
      Finds "trash" (transcript service reads.2.world)
        (.done ⟨[⟨"b", "store", "m", "v1", none⟩, ⟨"a", "store", "k", "v1", none⟩]⟩)) ∧
    (LeavesAsked "trash" (transcript service removes.2.world) ∧ ∃ rounds,
      Serves (removing "trash") 25 .immediate (fun _ => 0) ["a", "b"]
        (transcript service removes.2.world) rounds (.done ())) := by
  have hleaves (call call' : RecordCall) (hkeys : call.keys = [Item.keyOf "a", Item.keyOf "b"]) :
      LeavesAsked "trash" [(call, .ok hesitation), (call', .ok remainder)] := by
    intro asked reply h
    rcases List.mem_pair.1 h with hfirst | hsecond
    · cases hfirst
      rw [hkeys]
      exact (List.sublist_cons_self (Item.keyOf "a") [Item.keyOf "b"]).subperm
    · cases hsecond
      exact List.nil_subperm
  obtain ⟨hread, hremove⟩ :=
    accesses_serve "trash" .immediate (fun _ => 0) ["a", "b"] ⟨⟨_, "closed", []⟩, 0⟩
  exact ⟨⟨hleaves _ _ rfl, hread (hleaves _ _ rfl)⟩, hleaves _ _ rfl, hremove (hleaves _ _ rfl)⟩

end RecordService

end Salvage
