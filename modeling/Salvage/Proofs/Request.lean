import Salvage.Proofs.Transaction
import Salvage.Request

/-!
# What a request marks and sends

A node is marked at its first occurrence in a request, if it is a trashed package of the dataset, and
at no other. `accept_apply` says what a request does without going from node to node: which packages
it marks, which messages it sends, and what it answers when all of these are taken.
-/

namespace Salvage.RestoreRequest

variable {t : Tables} {tx : Transaction} {datasetId : Int} {nodeId : String}
  {nodeIds before : List String} {p : Package}

/-! ## Marking -/

/-- The trashed package of a dataset with a node id. -/
def trashed? (t : Tables) (datasetId : Int) (nodeId : String) : Option Package :=
  t.packages.find? fun p => p.datasetId == datasetId && p.nodeId == nodeId && p.state == .deleted

/-- The tables after the trashed packages of a dataset with some node ids are marked. -/
def marked (t : Tables) (datasetId : Int) (nodeIds : List String) : Tables :=
  t.change (fun p => p.datasetId == datasetId && p.state == .deleted && nodeIds.contains p.nodeId)
    (·.moveTo .restoring)

/-- What is marked at an occurrence of a node id, which is given with its place. -/
def markAt (t : Tables) (datasetId : Int) (nodeIds : List String) (occurrence : String × Nat) :
    String × Option Package :=
  (occurrence.1, (if (nodeIds.take occurrence.2).contains occurrence.1 then none
    else trashed? t datasetId occurrence.1).map (·.moveTo .restoring))

/-- Marking a node moves its trashed package, if there is one, and is always done. -/
theorem markOne_apply (datasetId : Int) (nodeId : String) (tx : Transaction) :
    markOne datasetId nodeId tx =
      match trashed? tx.working datasetId nodeId with
      | some p => (.done (nodeId, some (p.moveTo .restoring)),
          { tx with working := tx.working.changeId p.id (·.moveTo .restoring) })
      | none => (.done (nodeId, none), tx) := by
  rw [markOne, Action.attempt_bind_apply]
  cases hfound : trashed? tx.working datasetId nodeId with
  | none =>
    rw [Transaction.move_of_none hfound]
    rfl
  | some p =>
    rw [Transaction.move_eq_done.2 ⟨p, hfound, rfl, rfl⟩]
    rfl

/-- A trashed package that is found is one, and has the node id. -/
theorem of_trashed? (h : trashed? t datasetId nodeId = some p) :
    p ∈ t.packages ∧ p.datasetId = datasetId ∧ p.nodeId = nodeId ∧ p.state = .deleted := by
  refine ⟨List.mem_of_find?_eq_some h, ?_⟩
  simpa [and_assoc] using List.find?_some h

/-- A row after some node ids are marked. -/
theorem marked_row_eq (datasetId : Int) (before : List String) (p : Package) :
    (if p.datasetId == datasetId && p.state == .deleted && before.contains p.nodeId then
        p.moveTo .restoring else p) =
      if p.datasetId = datasetId ∧ p.state = .deleted ∧ p.nodeId ∈ before then
        p.moveTo .restoring else p := by
  simp only [Bool.and_eq_true, beq_iff_eq, List.contains_iff_mem, and_assoc]

/-- Where node ids have been marked, each of them is not in the trash any more, and others are as they
were. -/
theorem trashed?_marked (t : Tables) (datasetId : Int) (before : List String) (nodeId : String) :
    trashed? (marked t datasetId before) datasetId nodeId =
      if before.contains nodeId then none else trashed? t datasetId nodeId := by
  rw [trashed?, marked, Tables.change, List.find?_map]
  simp only [marked_row_eq, List.contains_iff_mem]
  split
  · rename_i hseen
    rw [Option.map_eq_none_iff, List.find?_eq_none]
    intro q _
    dsimp only [Function.comp]
    split
    · simp [Package.moveTo]
    · rename_i hnot
      simp only [Bool.and_eq_true, beq_iff_eq]
      intro hgiven
      obtain ⟨⟨hdataset, rfl⟩, hstate⟩ := hgiven
      exact hnot ⟨hdataset, hstate, hseen⟩
  · rename_i hnew
    have hsame : ∀ q : Package, q.nodeId = nodeId →
        ¬ (q.datasetId = datasetId ∧ q.state = .deleted ∧ q.nodeId ∈ before) :=
      fun q hq hmarked => hnew (hq ▸ hmarked.2.2)
    have hfits : ((fun p : Package => p.datasetId == datasetId && p.nodeId == nodeId &&
        p.state == .deleted) ∘ fun p => if p.datasetId = datasetId ∧ p.state = .deleted ∧
          p.nodeId ∈ before then p.moveTo .restoring else p) =
        fun p => p.datasetId == datasetId && p.nodeId == nodeId && p.state == .deleted := by
      funext q
      dsimp only [Function.comp]
      by_cases hq : q.nodeId = nodeId
      · rw [if_neg (hsame q hq)]
      · split <;> simp [Package.moveTo, beq_eq_false_iff_ne.2 hq]
    rw [hfits]
    cases hfound : t.packages.find? fun p =>
      p.datasetId == datasetId && p.nodeId == nodeId && p.state == .deleted with
    | none => rw [trashed?, hfound]; rfl
    | some q =>
      rw [trashed?, hfound, Option.map_some, if_neg (hsame q (of_trashed? hfound).2.2.1)]

/-- Marking one more node id marks its trashed package, if there is one. -/
theorem marked_append (hd : t.Distinct) (datasetId : Int) (before : List String) (nodeId : String) :
    marked t datasetId (before ++ [nodeId]) =
      match trashed? (marked t datasetId before) datasetId nodeId with
      | some p => (marked t datasetId before).changeId p.id (·.moveTo .restoring)
      | none => marked t datasetId before := by
  have hadd (p : Package) : (before ++ [nodeId]).contains p.nodeId =
      (before.contains p.nodeId || p.nodeId == nodeId) := by
    simp [List.contains_eq_mem, Bool.decide_or, beq_eq_decide]
  rw [trashed?_marked]
  simp only [marked, hadd]
  by_cases hseen : before.contains nodeId
  · rw [if_pos hseen]
    refine Tables.change_congr fun p _ => ?_
    by_cases hnode : p.nodeId = nodeId
    · rw [hnode, hseen, Bool.true_or]
    · rw [beq_eq_false_iff_ne.2 hnode, Bool.or_false]
  · rw [if_neg hseen]
    cases hfound : trashed? t datasetId nodeId with
    | none =>
      refine Tables.change_congr fun p hp => ?_
      by_cases hnode : p.nodeId = nodeId
      · have hnot : (p.datasetId == datasetId && p.state == .deleted) = false := by
          have hother := List.find?_eq_none.1 hfound p hp
          rw [beq_iff_eq.2 hnode, Bool.and_true] at hother
          exact Bool.eq_false_iff.2 hother
        rw [hnot, Bool.false_and, Bool.false_and]
      · rw [beq_eq_false_iff_ne.2 hnode, Bool.or_false]
    | some q =>
      obtain ⟨hq, hdataset, hnode, hstate⟩ := of_trashed? hfound
      dsimp only
      rw [Tables.changeId_change_moveTo]
      refine Tables.change_congr fun p hp => ?_
      by_cases hid : p.id = q.id
      · obtain rfl := hd.keyed.eq_of_id hp hq hid
        simp [hdataset, hnode, hstate]
      · have hne : p.nodeId ≠ nodeId := fun heq =>
          hid ((hd.id_eq_iff hp hq).2 (heq.trans hnode.symm))
        rw [beq_eq_false_iff_ne.2 hid, beq_eq_false_iff_ne.2 hne, Bool.or_false, Bool.or_false]

/-- Marking nodes one after another, of which some have been seen before, marks each at its first
occurrence. -/
theorem each_markOne (hd : t.Distinct) (before nodeIds : List String) :
    Action.each (markOne datasetId) nodeIds { tx with working := marked t datasetId before } =
      (.done ((nodeIds.zipIdx before.length).map (markAt t datasetId (before ++ nodeIds))),
        { tx with working := marked t datasetId (before ++ nodeIds) }) := by
  induction nodeIds generalizing before with
  | nil =>
    rw [Action.each_nil_eq_done, List.append_nil]
    exact ⟨rfl, rfl⟩
  | cons n nodeIds ih =>
    have hnext : before ++ n :: nodeIds = (before ++ [n]) ++ nodeIds := by simp
    have hplace : ((before ++ [n]) ++ nodeIds).take before.length = before := by simp
    have hmark : markOne datasetId n { tx with working := marked t datasetId before } =
        (.done (markAt t datasetId ((before ++ [n]) ++ nodeIds) (n, before.length)),
          { tx with working := marked t datasetId (before ++ [n]) }) := by
      rw [markOne_apply, marked_append hd, markAt, hplace, ← trashed?_marked]
      cases trashed? (marked t datasetId before) datasetId n <;> rfl
    have hrest := ih (before ++ [n])
    rw [List.length_append, List.length_singleton] at hrest
    rw [hnext, Action.each_cons_eq_done]
    exact ⟨_, _, _, rfl, hmark, hrest⟩

/-! ## What is answered -/

/-- An occurrence of a node id, which is given with its place, is the first one of a trashed package
of the dataset. -/
def grants (t : Tables) (datasetId : Int) (nodeIds : List String) (occurrence : String × Nat) :
    Bool :=
  !(nodeIds.take occurrence.2).contains occurrence.1 &&
    (trashed? t datasetId occurrence.1).isSome

/-- The answer to a request: the occurrences that are granted, and a failure for each other one. -/
def responseTo (t : Tables) (datasetId : Int) (datasetNode : String) (nodeIds : List String) :
    RestoreResponse :=
  ⟨(nodeIds.zipIdx.filter (grants t datasetId nodeIds)).map Prod.fst,
    (nodeIds.zipIdx.filter fun o => !grants t datasetId nodeIds o).map
      fun o => failureFor datasetNode o.1⟩

/-- The messages of a request: one for each occurrence that is granted. -/
def messagesTo (t : Tables) (org datasetId : Int) (userId : String) (nodeIds : List String) :
    List RestoreMessage :=
  (nodeIds.zipIdx.filter (grants t datasetId nodeIds)).filterMap
    fun o => (trashed? t datasetId o.1).map (messageFor org datasetId userId)

/-- Something is marked at the occurrences that are granted. -/
theorem isSome_markAt (t : Tables) (datasetId : Int) (nodeIds : List String)
    (occurrence : String × Nat) :
    (markAt t datasetId nodeIds occurrence).2.isSome = grants t datasetId nodeIds occurrence := by
  rw [markAt, grants, Option.isSome_map]
  split
  · rename_i hseen
    rw [hseen]
    rfl
  · rename_i hnew
    rw [Bool.eq_false_iff.2 hnew]
    rfl

/-- The messages for what is marked are those of the request. -/
theorem filterMap_markAt (t : Tables) (org datasetId : Int) (userId : String)
    (nodeIds : List String) :
    ((nodeIds.zipIdx.map (markAt t datasetId nodeIds)).filterMap fun m =>
        m.2.map (messageFor org datasetId userId)) =
      messagesTo t org datasetId userId nodeIds := by
  rw [messagesTo, List.filterMap_map, List.filterMap_filter]
  refine List.filterMap_congr fun o _ => ?_
  dsimp only [Function.comp]
  rw [markAt, grants]
  rcases Bool.eq_false_or_eq_true ((nodeIds.take o.2).contains o.1) with hseen | hnew
  · rw [hseen]
    rfl
  · rw [hnew]
    cases trashed? t datasetId o.1 <;> rfl

/-- The answer for what is marked is that to the request. -/
theorem partition_markAt (t : Tables) (datasetId : Int) (datasetNode : String)
    (nodeIds : List String) :
    let marks := nodeIds.zipIdx.map (markAt t datasetId nodeIds)
    (⟨(marks.partition fun m => m.2.isSome).1.map Prod.fst, (marks.partition fun m =>
        m.2.isSome).2.map fun m => failureFor datasetNode m.1⟩ : RestoreResponse) =
      responseTo t datasetId datasetNode nodeIds := by
  have hgranted : (fun m => m.2.isSome) ∘ markAt t datasetId nodeIds =
      grants t datasetId nodeIds := funext (isSome_markAt t datasetId nodeIds)
  have hother : (not ∘ fun m => m.2.isSome) ∘ markAt t datasetId nodeIds =
      fun o => !grants t datasetId nodeIds o :=
    funext fun o => congrArg not (isSome_markAt t datasetId nodeIds o)
  dsimp only
  rw [responseTo, List.partition_eq_filter_filter, List.filter_map, List.filter_map, List.map_map,
    List.map_map, hgranted, hother]
  rfl

/-- A node id is answered with success when it was asked for and is that of a trashed package. -/
theorem mem_success_iff {datasetNode : String} :
    nodeId ∈ (responseTo t datasetId datasetNode nodeIds).success ↔
      nodeId ∈ nodeIds ∧ (trashed? t datasetId nodeId).isSome := by
  rw [responseTo, List.mem_map]
  constructor
  · intro hgiven
    obtain ⟨o, ho, rfl⟩ := hgiven
    obtain ⟨hmem, hgrants⟩ := List.mem_filter.1 ho
    rw [grants, Bool.and_eq_true] at hgrants
    exact ⟨List.fst_mem_of_mem_zipIdx hmem, hgrants.2⟩
  · intro hgiven
    obtain ⟨hmem, htrashed⟩ := hgiven
    obtain ⟨earlier, later, rfl, hfirst⟩ := List.eq_append_cons_of_mem hmem
    refine ⟨(nodeId, earlier.length), List.mem_filter.2 ⟨?_, ?_⟩, rfl⟩
    · rw [List.mem_zipIdx_iff_getElem?]
      simp
    · rw [grants, List.take_left, htrashed, Bool.and_true]
      simpa using hfirst

/-- With different node ids, the trashed package of a node id is the row that has it, is of the
dataset and is trashed. -/
theorem trashed?_eq_some_iff (hd : t.Distinct) :
    trashed? t datasetId nodeId = some p ↔
      p ∈ t.packages ∧ p.datasetId = datasetId ∧ p.nodeId = nodeId ∧ p.state = .deleted := by
  constructor
  · exact of_trashed?
  · intro hgiven
    obtain ⟨hp, hdataset, hnode, hstate⟩ := hgiven
    have hsome : (trashed? t datasetId nodeId).isSome :=
      List.find?_isSome.2 ⟨p, hp, by simp [hdataset, hnode, hstate]⟩
    obtain ⟨q, hq⟩ := Option.isSome_iff_exists.1 hsome
    obtain ⟨hqmem, -, hqnode, -⟩ := of_trashed? hq
    rw [hq, hd.eq_of_nodeId hqmem hp (hqnode.trans hnode.symm)]

/-- There is one message for each success, in their order: that of the trashed package. -/
theorem forall₂_messagesTo (t : Tables) (org datasetId : Int) (datasetNode userId : String)
    (nodeIds : List String) :
    List.Forall₂ (fun n m => ∃ p ∈ t.packages, p.datasetId = datasetId ∧ p.nodeId = n ∧
        p.state = .deleted ∧ m = messageFor org datasetId userId p)
      (responseTo t datasetId datasetNode nodeIds).success
      (messagesTo t org datasetId userId nodeIds) := by
  rw [responseTo, messagesTo, List.forall₂_map_left_iff]
  have hall : ∀ o ∈ nodeIds.zipIdx.filter (grants t datasetId nodeIds),
      (trashed? t datasetId o.1).isSome := by
    intro o ho
    have hgrants := (List.mem_filter.1 ho).2
    rw [grants, Bool.and_eq_true] at hgrants
    exact hgrants.2
  generalize nodeIds.zipIdx.filter (grants t datasetId nodeIds) = occurrences at hall
  induction occurrences with
  | nil => exact .nil
  | cons o occurrences ih =>
    obtain ⟨p, hfound⟩ := Option.isSome_iff_exists.1 (hall o List.mem_cons_self)
    obtain ⟨hp, hdataset, hnode, hstate⟩ := of_trashed? hfound
    rw [List.filterMap_cons, hfound]
    exact .cons ⟨p, hp, hdataset, hnode, hstate, rfl⟩
      (ih fun o' ho' => hall o' (List.mem_cons_of_mem _ ho'))

/-- A row before and after a request: one that is answered with success was trashed and is marked. -/
structure Marked (datasetId : Int) (success : List String) (p q : Package) : Prop where
  granted : p.nodeId ∈ success →
    p.datasetId = datasetId ∧ p.state = .deleted ∧ q = p.moveTo .restoring
  other : p.nodeId ∉ success → q = p

/-- Of the rows exactly those that are answered with success are marked. -/
theorem evolves_marked (hd : t.Distinct) (datasetId : Int) (datasetNode : String)
    (nodeIds : List String) :
    t.Evolves (Marked datasetId (responseTo t datasetId datasetNode nodeIds).success)
      (marked t datasetId nodeIds) := by
  refine (Tables.evolves_change _ _ _).imp fun p hp q hq => ?_
  rw [marked_row_eq] at hq
  have hgranted : p.nodeId ∈ (responseTo t datasetId datasetNode nodeIds).success ↔
      p.datasetId = datasetId ∧ p.state = .deleted ∧ p.nodeId ∈ nodeIds := by
    rw [mem_success_iff, Option.isSome_iff_exists]
    simp only [trashed?_eq_some_iff hd]
    constructor
    · intro hgiven
      obtain ⟨hmem, r, hr, hdataset, hnode, hstate⟩ := hgiven
      obtain rfl := hd.eq_of_nodeId hr hp hnode
      exact ⟨hdataset, hstate, hmem⟩
    · intro hgiven
      obtain ⟨hdataset, hstate, hmem⟩ := hgiven
      exact ⟨hmem, p, hp, hdataset, rfl, hstate⟩
  refine ⟨fun hin => ?_, fun hout => ?_⟩
  · have hfits := hgranted.1 hin
    rw [if_pos hfits] at hq
    exact ⟨hfits.1, hfits.2.1, hq⟩
  · rwa [if_neg fun hfits => hout (hgranted.2 hfits)] at hq

/-- A request to a dataset that there is marks packages and sends their messages; only a send can
make it fail. -/
theorem accept_apply {σ : Type} (hd : tx.working.Distinct)
    (send : RestoreMessage → Action σ Unit) (q : σ) (r : RestoreRequest)
    (datasetNode userId : String) :
    r.accept send datasetNode userId (tx, q) =
      match tx.working.datasetByNode? datasetNode with
      | none => (.failed (.datasetNotFound tx.org (.nodeId datasetNode)), (tx, q))
      | some d =>
        let sent := Action.each send (messagesTo tx.working tx.org d.id userId r.nodeIds) q
        (sent.1.map fun _ => responseTo tx.working d.id datasetNode r.nodeIds,
          ({ tx with working := marked tx.working d.id r.nodeIds }, sent.2)) := by
  rw [accept]
  cases hdataset : tx.working.datasetByNode? datasetNode with
  | none =>
    have hmissing : Transaction.dataset datasetNode tx =
        (.failed (.datasetNotFound tx.org (.nodeId datasetNode)), tx) := by
      rw [Transaction.dataset, Action.get_bind_apply]
      simp only [hdataset]
      rfl
    exact Action.bind_of_failed (Action.on_apply_of hmissing)
  | some d =>
    have hfound : Transaction.dataset datasetNode tx = (.done d, tx) := by
      rw [Transaction.dataset, Action.get_bind_apply]
      simp only [hdataset]
      rfl
    have hmarks : Action.each (markOne d.id) r.nodeIds tx =
        (.done (r.nodeIds.zipIdx.map (markAt tx.working d.id r.nodeIds)),
          { tx with working := marked tx.working d.id r.nodeIds }) := by
      have hnone : marked tx.working d.id [] = tx.working := by simp [marked, Tables.change]
      have hall : Action.each (markOne d.id) r.nodeIds
          { tx with working := marked tx.working d.id [] } = _ := each_markOne hd [] r.nodeIds
      rwa [hnone] at hall
    rw [Action.bind_of_done (Action.on_apply_of hfound), Action.get_bind_apply]
    dsimp only
    rw [Action.bind_of_done (Action.on_apply_of hmarks), filterMap_markAt]
    dsimp only
    rcases hsent : Action.each send (messagesTo tx.working tx.org d.id userId r.nodeIds) q
      with ⟨_ | e | _, q'⟩
    · rw [Action.bind_of_done (Action.on_apply_of hsent)]
      exact congrArg (fun answer => (Outcome.done answer, _))
        (partition_markAt tx.working d.id datasetNode r.nodeIds)
    · exact Action.bind_of_failed (Action.on_apply_of hsent)
    · exact Action.bind_of_aborted (Action.on_apply_of hsent)

end Salvage.RestoreRequest
