import Mathlib.Data.String.Basic
import Salvage.Rehearsal
import Salvage.Proofs.Batch.Conservation
import Salvage.Proofs.Batch.Halting
import Salvage.Proofs.Objects

/-!
# Every version once, bucket by bucket

A deletion goes through the buckets in ascending order and makes the requests of one bucket before it
comes to the next. What a provider does with a bucket is left open: each reply answers some of its
versions, each with an entry among the deleted ones or among the errors, and leaves the others. Which
entries may stand for a version is left open as well. An entry among the errors is an answer like any
other, so the deletion does not stop for it. It stops for a request that fails and for a chunk whose
retries are used up, and both are known from the last request that was made.
-/

namespace Salvage

open List (Forall₂)

namespace Batch

variable {σ ι ο κ : Type} {b : Backoff} {random : Nat → Nat}

/-- The operation that writes its requests down under a tag. -/
def Operation.recordedAs (tag : κ) (op : Operation σ ι ο) :
    Operation (σ × List (κ × Exchange ι ο)) ι ο where
  name := op.name
  limit := op.limit
  submit items := fun s =>
    ((op.submit items s.1).1,
      ((op.submit items s.1).2, s.2 ++ [(tag, ⟨items, (op.submit items s.1).1⟩)]))

/-- Writing requests down under a tag changes nothing about a run. -/
theorem shows_run_recordedAs (tag : κ) (op : Operation σ ι ο) (b : Backoff) (random : Nat → Nat)
    (items : List ι) :
    Action.Shows (viewed Prod.fst) (run (op.recordedAs tag) b random items)
      (run op b random items) := by
  have hsubmit (items : List ι) :
      Action.Shows Prod.fst ((op.recordedAs tag).submit items) (op.submit items) := fun _ => rfl
  have hname : op.name = (op.recordedAs tag).name := rfl
  exact shows_run hname hsubmit rfl b random items

/-- The requests that a run writes down under a tag are one of the ways in which it goes. -/
theorem runs_recordedAs (tag : κ) (op : Operation σ ι ο) (b : Backoff) (random : Nat → Nat)
    (items : List ι) (c : Clocked (σ × List (κ × Exchange ι ο))) :
    ∃ rounds slept, Runs op b random (chunks op.limit items) rounds
        (run (op.recordedAs tag) b random items c).1 slept ∧
      (run (op.recordedAs tag) b random items c).2.world.2 =
        c.world.2 ++ rounds.flatten.map fun e => (tag, e) := by
  let view : σ × List (Exchange ι ο) → σ × List (κ × Exchange ι ο) :=
    fun s => (s.1, c.world.2 ++ s.2.map fun e => (tag, e))
  have hsubmit (items : List ι) :
      Action.Shows view (op.recorded.submit items) ((op.recordedAs tag).submit items) := by
    intro s
    simp [view, Operation.recorded, Operation.recordedAs]
  have hname : (op.recordedAs tag).name = op.recorded.name := rfl
  have hboth := shows_run hname hsubmit rfl b random items ⟨(c.world.1, []), c.slept⟩
  have hstart : viewed view ⟨(c.world.1, []), c.slept⟩ = c := by
    simp [viewed, view]
  rw [hstart] at hboth
  obtain ⟨rounds, slept, hruns, hrequests, -⟩ :=
    runs_requests op b random items ⟨c.world.1, c.slept⟩
  refine ⟨rounds, slept, ?_, ?_⟩
  · have hsame : run op b random items ⟨c.world.1, c.slept⟩ = _ :=
      shows_run_recordedAs tag op b random items c
    rw [hsame] at hruns
    exact hruns
  · rw [← hrequests, hboth]
    rfl

end Batch

namespace ObjectVersion

open Batch (Operation Clocked Exchange Runs chunks)

variable {σ : Type} {op : String → Operation σ ObjectVersion DeletionReport} {b : Backoff}
  {random : Nat → Nat} {deletedFor : ObjectVersion → DeletedVersion → Prop}
  {errorFor : ObjectVersion → VersionError → Prop}

/-- The requests that a deletion makes, in order, each with its bucket. -/
def deletionRequests (op : String → Operation σ ObjectVersion DeletionReport) (b : Backoff)
    (random : Nat → Nat) (versions : List ObjectVersion) (c : Clocked σ) :
    List (String × Exchange ObjectVersion DeletionReport) :=
  (deleteByBucket (fun bucket => (op bucket).recordedAs bucket) b random versions
    ⟨(c.world, []), c.slept⟩).2.world.2

/-- A bucket, its versions and the requests for them, one round for each chunk. -/
structure Visit where
  bucket : String
  versions : List ObjectVersion
  rounds : List (List (Exchange ObjectVersion DeletionReport))
  deriving Repr

/-- The requests of a visit, in order, each with the bucket. -/
def Visit.requests (visit : Visit) : List (String × Exchange ObjectVersion DeletionReport) :=
  visit.rounds.flatten.map fun e => (visit.bucket, e)

/-! ## What is asked of an operation -/

/-- A report has one entry for each of some versions, among the deleted ones or among the errors. -/
def Reported (deletedFor : ObjectVersion → DeletedVersion → Prop)
    (errorFor : ObjectVersion → VersionError → Prop) (versions : List ObjectVersion)
    (report : DeletionReport) : Prop :=
  ∃ good bad, (good ++ bad).Perm versions ∧ Forall₂ deletedFor good report.deleted ∧
    Forall₂ errorFor bad report.errors

/-- Every reply for versions of a bucket reports some of them and leaves the others. -/
def AnswersEach (op : String → Operation σ ObjectVersion DeletionReport)
    (deletedFor : ObjectVersion → DeletedVersion → Prop)
    (errorFor : ObjectVersion → VersionError → Prop) : Prop :=
  ∀ bucket versions s reply s', (∀ v ∈ versions, v.bucket = bucket) →
    (op bucket).submit versions s = (.done reply, s') →
      ∃ answered, (answered ++ reply.unprocessed).Perm versions ∧
        Reported deletedFor errorFor answered reply.output

/-- The versions of a request are those of one bucket, and neither none nor too many. -/
structure FitsIn (bucket : String) (limit : Nat) (versions : List ObjectVersion) : Prop where
  unmixed : ∀ v ∈ versions, v.bucket = bucket
  nonempty : versions ≠ []
  few : versions.length ≤ max limit 1

variable {versions versions' : List ObjectVersion} {report : DeletionReport} {bucket : String}
  {e : Exchange ObjectVersion DeletionReport}

/-- The order of versions does not matter for whether they are reported. -/
theorem Reported.perm (h : Reported deletedFor errorFor versions report)
    (hperm : versions.Perm versions') : Reported deletedFor errorFor versions' report := by
  obtain ⟨good, bad, hboth, hgood, hbad⟩ := h
  exact ⟨good, bad, hboth.trans hperm, hgood, hbad⟩

/-- Versions that are reported one after another are reported together. -/
theorem reported_concat {parts : List (List ObjectVersion)} {reports : List DeletionReport}
    (h : Forall₂ (Reported deletedFor errorFor) parts reports) :
    Reported deletedFor errorFor parts.flatten (.concat reports) := by
  induction h with
  | nil => exact ⟨[], [], .nil, .nil, .nil⟩
  | @cons part report parts reports hfirst _ ih =>
    obtain ⟨good, bad, hperm, hgood, hbad⟩ := hfirst
    obtain ⟨good', bad', hperm', hgood', hbad'⟩ := ih
    refine ⟨good ++ good', bad ++ bad', ?_, List.rel_append hgood hgood',
      List.rel_append hbad hbad'⟩
    have hswap : (good ++ good' ++ (bad ++ bad')).Perm (good ++ bad ++ (good' ++ bad')) := by
      rw [List.append_assoc, List.append_assoc]
      exact List.Perm.append_left good (List.perm_append_comm_assoc good' bad bad')
    exact hswap.trans (hperm.append hperm')

/-- A request for versions of a bucket processes those that its reply reports. -/
theorem AnswersEach.exists_processes (hop : AnswersEach op deletedFor errorFor)
    (hmade : (op bucket).Makes e) (hitems : ∀ v ∈ e.items, v.bucket = bucket)
    {reply : Batch.Reply ObjectVersion DeletionReport} (hreply : e.outcome = .done reply) :
    ∃ part, e.Processes part ∧ Reported deletedFor errorFor part reply.output := by
  obtain ⟨s, s', hsubmit⟩ := hmade
  rw [hreply] at hsubmit
  obtain ⟨part, hperm, hreported⟩ := hop bucket e.items s reply s' hitems hsubmit
  refine ⟨part, ?_, hreported⟩
  rw [Exchange.Processes, Exchange.left, hreply]
  exact hperm

/-- What a request leaves of versions that fit into a request fits into one. -/
theorem AnswersEach.left_fits (hop : AnswersEach op deletedFor errorFor) {limit : Nat}
    (hmade : (op bucket).Makes e) (hleft : e.left ≠ []) (hfits : FitsIn bucket limit e.items) :
    FitsIn bucket limit e.left := by
  obtain ⟨reply, hreply, -⟩ := Exchange.exists_reply_of_left hleft
  obtain ⟨part, hwhole, -⟩ := hop.exists_processes hmade hfits.unmixed hreply
  have hsub : e.left.Subperm e.items :=
    (List.sublist_append_right part e.left).subperm.trans hwhole.subperm
  exact ⟨fun v hv => hfits.unmixed v (hsub.subset hv), hleft, hsub.length_le.trans hfits.few⟩

/-- Every request for the versions of a bucket fits. -/
theorem AnswersEach.runs_fit (hop : AnswersEach op deletedFor errorFor)
    {rounds : List (List (Exchange ObjectVersion DeletionReport))}
    {outcome : Outcome (List DeletionReport)} {slept : Nat}
    (h : Runs (op bucket) b random (chunks (op bucket).limit versions) rounds outcome slept)
    (hbucket : ∀ v ∈ versions, v.bucket = bucket) :
    ∀ e ∈ rounds.flatten, (op bucket).Makes e ∧ FitsIn bucket (op bucket).limit e.items := by
  intro e he
  obtain ⟨part, hpart, round, -, _, _, hround, hdrains⟩ := h.exists_drains e he
  obtain ⟨hne, hle⟩ := Batch.of_mem_chunks hpart
  have hunmixed : ∀ v ∈ part, v.bucket = bucket :=
    fun v hv => hbucket v (Batch.subset_of_mem_chunks hpart hv)
  refine ⟨hdrains.makes e hround, ?_⟩
  exact hdrains.forall_items ⟨hunmixed, hne, hle⟩ (fun _ _ => hop.left_fits) e hround

/-- A run for the versions of a bucket that is done has reported them all. -/
theorem AnswersEach.runs_reported (hop : AnswersEach op deletedFor errorFor)
    {rounds : List (List (Exchange ObjectVersion DeletionReport))}
    {reports : List DeletionReport} {slept : Nat}
    (h : Runs (op bucket) b random (chunks (op bucket).limit versions) rounds (.done reports) slept)
    (hbucket : ∀ v ∈ versions, v.bucket = bucket) :
    Reported deletedFor errorFor versions (.concat reports) := by
  obtain ⟨-, hanswered, hvalue⟩ := h.answered rfl
  cases hvalue
  have hreplies := Batch.replies_flatten hanswered
  have hexists : ∀ e ∈ rounds.flatten, ∃ part, e.Processes part ∧
      ∀ reply, e.outcome = .done reply → Reported deletedFor errorFor part reply.output := by
    intro e he
    obtain ⟨hmade, hfits⟩ := hop.runs_fit h hbucket e he
    obtain ⟨reply, hreply⟩ := hreplies e he
    obtain ⟨part, hwhole, hreported⟩ := hop.exists_processes hmade hfits.unmixed hreply
    refine ⟨part, hwhole, fun reply' hreply' => ?_⟩
    cases hreply.symm.trans hreply'
    exact hreported
  choose! part hpart using hexists
  have hperm := h.perm_processed rfl fun e he => (hpart e he).1
  rw [Batch.flatten_chunks] at hperm
  have hparts : Forall₂ (Reported deletedFor errorFor) (rounds.flatten.map part)
      (rounds.flatten.flatMap Exchange.outputs) := by
    rw [List.forall₂_map_left_iff]
    refine ((List.forall₂_and_left _ _).2 ⟨hpart, Batch.forall₂_outputs hreplies⟩).imp ?_
    rintro e output ⟨⟨-, hreported⟩, left, hreply⟩
    exact hreported ⟨output, left⟩ hreply
  exact (reported_concat hparts).perm hperm

/-! ## How a deletion goes -/

/-- The text that an error of a bucket is wrapped into. -/
def bucketContext (bucket : String) : String :=
  s!"error deleting object versions in bucket {bucket}"

/-- The visits of some buckets with their versions, one after another, with the outcome that they come
to. -/
inductive Deletes (op : String → Operation σ ObjectVersion DeletionReport) (b : Backoff)
    (random : Nat → Nat) : List (String × List ObjectVersion) → List Visit →
      Outcome (List DeletionReport) → Prop where
  /-- No bucket is left to visit. -/
  | nil : Deletes op b random [] [] (.done [])
  /-- A bucket whose run is not done is the last one. -/
  | stopped {bucket : String} {versions : List ObjectVersion}
    {groups : List (String × List ObjectVersion)}
    {rounds : List (List (Exchange ObjectVersion DeletionReport))}
    {outcome : Outcome (List DeletionReport)} {slept : Nat}
    (hruns : Runs (op bucket) b random (chunks (op bucket).limit versions) rounds outcome slept)
    (hstop : outcome.isDone = false) :
    Deletes op b random ((bucket, versions) :: groups) [⟨bucket, versions, rounds⟩]
      (outcome.context (bucketContext bucket))
  /-- After a bucket whose run is done come the others. -/
  | cons {bucket : String} {versions : List ObjectVersion}
    {groups : List (String × List ObjectVersion)} {visits : List Visit}
    {rounds : List (List (Exchange ObjectVersion DeletionReport))}
    {reports : List DeletionReport} {outcome : Outcome (List DeletionReport)} {slept : Nat}
    (hruns : Runs (op bucket) b random (chunks (op bucket).limit versions) rounds (.done reports)
      slept)
    (hrest : Deletes op b random groups visits outcome) :
    Deletes op b random ((bucket, versions) :: groups) (⟨bucket, versions, rounds⟩ :: visits)
      (outcome.map fun others => reports ++ others)

/-- The requests that buckets visited one after another write down are one of the ways in which a
deletion goes. -/
theorem deletes_each_recorded (op : String → Operation σ ObjectVersion DeletionReport)
    (b : Backoff) (random : Nat → Nat) (groups : List (String × List ObjectVersion))
    (c : Clocked (σ × List (String × Exchange ObjectVersion DeletionReport))) :
    let all := Action.each (fun group =>
      (Batch.run ((op group.1).recordedAs group.1) b random group.2).context
        (bucketContext group.1)) groups c
    ∃ visits, Deletes op b random groups visits (all.1.map List.flatten) ∧
      all.2.world.2 = c.world.2 ++ visits.flatMap Visit.requests := by
  induction groups generalizing c with
  | nil => exact ⟨[], .nil, (List.append_nil _).symm⟩
  | cons group groups ih =>
    obtain ⟨bucket, versions⟩ := group
    obtain ⟨rounds, slept, hruns, hlog⟩ :=
      Batch.runs_recordedAs bucket (op bucket) b random versions c
    rcases hrun : Batch.run ((op bucket).recordedAs bucket) b random versions c with ⟨outcome, c'⟩
    rw [hrun] at hruns hlog
    cases hdone : outcome.isDone with
    | true =>
      obtain ⟨reports, rfl⟩ := Outcome.exists_of_isDone hdone
      obtain ⟨visits, hrest, hlog'⟩ := ih c'
      dsimp only
      rw [Action.each_cons_of_done groups (Action.context_eq_done.2 hrun), Outcome.map_map]
      have hdeletes := Deletes.cons hruns hrest
      rw [Outcome.map_map] at hdeletes
      refine ⟨⟨bucket, versions, rounds⟩ :: visits, hdeletes, ?_⟩
      rw [hlog', hlog, List.flatMap_cons, List.append_assoc]
      rfl
    | false =>
      have hwrapped : (Batch.run ((op bucket).recordedAs bucket) b random versions).context
          (bucketContext bucket) c = (outcome.context (bucketContext bucket), c') := by
        rw [Action.context, hrun]
      have hstop : (outcome.context (bucketContext bucket)).isDone = false := by
        rwa [Outcome.isDone_context]
      dsimp only
      rw [Action.each_cons_of_not_done groups hwrapped hstop, Outcome.map_map,
        Outcome.map_eq_self hstop]
      refine ⟨[⟨bucket, versions, rounds⟩], .stopped hruns hdone, ?_⟩
      rw [List.flatMap_singleton]
      exact hlog

/-! ## Where a deletion stops -/

/-- A deletion that came to an outcome after some visits stopped where it had to. -/
structure Halts {α : Type} (op : String → Operation σ ObjectVersion DeletionReport) (b : Backoff)
    (random : Nat → Nat) (outcome : Outcome α) (visits : List Visit) : Prop where
  /-- The error of a request is the error of the deletion. -/
  failed : ∀ visit ∈ visits, ∀ e ∈ visit.rounds.flatten, ∀ error, e.outcome = .failed error →
    outcome.FailsBehind (bucketContext visit.bucket) error
  /-- Nothing follows a request without a reply. -/
  replied : ∀ request ∈ (visits.flatMap Visit.requests).dropLast,
    ∃ reply, request.2.outcome = .done reply
  /-- A chunk that has used up its retries is given up, and its last request is the last of all. -/
  exhausted : b.maxAttempts + 1 < Nat.pow 2 32 → ∀ visit ∈ visits, ∀ round ∈ visit.rounds,
    Batch.UsedUp b.maxAttempts round →
      ∃ last ∈ round, (visits.flatMap Visit.requests).getLast? = some (visit.bucket, last) ∧
        outcome.FailsBehind (bucketContext visit.bucket)
          (.retriesExhausted (op visit.bucket).name last.left.length b.maxAttempts)
  /-- Nothing else stops a deletion whose counts and delays are in range. -/
  done : b.InRange random →
    (∀ request ∈ visits.flatMap Visit.requests, ∃ reply, request.2.outcome = .done reply) →
    (∀ visit ∈ visits, ∀ round ∈ visit.rounds, ¬ Batch.UsedUp b.maxAttempts round) →
      outcome.isDone

section Halts

variable {α β : Type} {visit : Visit} {visits : List Visit} {outcome : Outcome α} {error : Error}

/-- The value that a deletion ends with does not matter for where it stops. -/
theorem Halts.map (h : Halts op b random outcome visits) (f : α → β) :
    Halts op b random (outcome.map f) visits := by
  refine ⟨?_, h.replied, ?_, ?_⟩
  · exact fun visit hvisit e he error herror => (h.failed visit hvisit e he error herror).map f
  · intro hcount visit hvisit round hround hused
    obtain ⟨last, hlast, hend, hfails⟩ := h.exhausted hcount visit hvisit round hround hused
    exact ⟨last, hlast, hend, hfails.map f⟩
  · intro hb hreplied hnot
    rw [Outcome.isDone_map]
    exact h.done hb hreplied hnot

/-- A visit in which nothing stopped may come first. -/
theorem Halts.cons (hreplied : ∀ e ∈ visit.rounds.flatten, ∃ reply, e.outcome = .done reply)
    (hnot : ∀ round ∈ visit.rounds, ¬ Batch.UsedUp b.maxAttempts round)
    (h : Halts op b random outcome visits) : Halts op b random outcome (visit :: visits) := by
  have hfirst : ∀ request ∈ visit.requests, ∃ reply, request.2.outcome = .done reply :=
    List.forall_mem_map.2 hreplied
  refine ⟨List.forall_mem_cons.2 ⟨?_, h.failed⟩, ?_, fun hcount => List.forall_mem_cons.2 ⟨?_, ?_⟩, ?_⟩
  · exact fun e he error herror => absurd herror (Exchange.not_failed (hreplied e he) error)
  · intro request hrequest
    rw [List.flatMap_cons] at hrequest
    exact (mem_dropLast_append hrequest).elim (hfirst request) (h.replied request)
  · exact fun round hround hused => absurd hused (hnot round hround)
  · intro other hother round hround hused
    obtain ⟨last, hlast, hend, hfails⟩ := h.exhausted hcount other hother round hround hused
    refine ⟨last, hlast, ?_, hfails⟩
    rw [List.flatMap_cons, List.getLast?_append, hend]
    rfl
  · intro hb hall hused
    rw [List.flatMap_cons, List.forall_mem_append] at hall
    exact h.done hb hall.2 (List.forall_mem_cons.1 hused).2

/-- A visit that stops is the last one. -/
theorem halts_singleton {outcome : Outcome (List DeletionReport)}
    {rounds : List (List (Exchange ObjectVersion DeletionReport))}
    (h : Batch.Halts (op bucket) b random outcome rounds) :
    Halts op b random (outcome.context (bucketContext bucket)) [⟨bucket, versions, rounds⟩] := by
  have hrequests : ([⟨bucket, versions, rounds⟩] : List Visit).flatMap Visit.requests =
      rounds.flatten.map fun e => (bucket, e) := List.flatMap_singleton _ _
  refine ⟨?_, ?_, fun hcount => ?_, ?_⟩
  · rw [List.forall_mem_singleton]
    exact fun e he error herror => Outcome.failsBehind_context (h.failed e he error herror)
  · rw [hrequests, ← List.map_dropLast]
    exact List.forall_mem_map.2 h.replied
  · rw [List.forall_mem_singleton]
    intro round hround hused
    obtain ⟨last, hlast, hend, hfailed⟩ := h.exhausted hcount round hround hused
    refine ⟨last, hlast, ?_, Outcome.failsBehind_context hfailed⟩
    rw [hrequests, List.getLast?_map, hend]
    rfl
  · rw [hrequests, List.forall_mem_map, List.forall_mem_singleton, Outcome.isDone_context]
    exact h.done

/-- However a deletion goes, it stops where it has to. -/
theorem Deletes.halts {groups : List (String × List ObjectVersion)}
    {outcome : Outcome (List DeletionReport)} (h : Deletes op b random groups visits outcome) :
    Halts op b random outcome visits := by
  induction h with
  | nil => exact ⟨by simp, by simp, by simp, fun _ _ _ => rfl⟩
  | stopped hruns _ => exact halts_singleton hruns.halts
  | cons hruns _ ih =>
    obtain ⟨-, hanswered, -⟩ := hruns.answered rfl
    refine (ih.map _).cons (Batch.replies_flatten hanswered) ?_
    exact fun round hround => (hanswered round hround).not_usedUp

end Halts

/-! ## What a deletion covers -/

/-- Writing requests down changes nothing about a deletion. -/
theorem shows_deleteByBucket (op : String → Operation σ ObjectVersion DeletionReport) (b : Backoff)
    (random : Nat → Nat) (versions : List ObjectVersion) :
    Action.Shows (Batch.viewed Prod.fst)
      (deleteByBucket (fun bucket => (op bucket).recordedAs bucket) b random versions)
      (deleteByBucket op b random versions) := by
  have hrun (group : String × List ObjectVersion) :=
    (Batch.shows_run_recordedAs group.1 (op group.1) b random group.2).context
      (bucketContext group.1)
  exact (Action.shows_each hrun (byBucket versions)).bind fun _ => Action.shows_pure _ _

/-- The bucket of a visit and its versions. -/
def Visit.group (visit : Visit) : String × List ObjectVersion :=
  (visit.bucket, visit.versions)

/-- A visit has a round for each chunk of its versions. -/
def Visit.Complete (op : String → Operation σ ObjectVersion DeletionReport) (visit : Visit) : Prop :=
  visit.rounds.length = (chunks (op visit.bucket).limit visit.versions).length

/-- A deletion of some versions that came to an outcome has visited the buckets in order, and if it is
done it has reported each version once. -/
structure Covers (op : String → Operation σ ObjectVersion DeletionReport) (b : Backoff)
    (random : Nat → Nat) (deletedFor : ObjectVersion → DeletedVersion → Prop)
    (errorFor : ObjectVersion → VersionError → Prop) (versions : List ObjectVersion)
    (outcome : Outcome DeletionReport) (visits : List Visit) : Prop
    extends Halts op b random outcome visits where
  /-- Buckets are visited in ascending order, none of them twice. -/
  ascending : (visits.map Visit.bucket).Pairwise (· < ·)
  /-- The buckets that are visited are the first ones, each with its versions in their order. -/
  visited : visits.map Visit.group <+: byBucket versions
  /-- There is a round for each of the first chunks of a bucket. -/
  sent : ∀ visit ∈ visits, Forall₂ Batch.IsRound
    ((chunks (op visit.bucket).limit visit.versions).take visit.rounds.length) visit.rounds
  /-- No request mixes buckets, is empty or is too large. -/
  fits : ∀ visit ∈ visits, ∀ e ∈ visit.rounds.flatten,
    FitsIn visit.bucket (op visit.bucket).limit e.items
  /-- A bucket is left for the next one when all its chunks are sent. -/
  complete : ∀ visit ∈ visits.dropLast, visit.Complete op
  /-- A deletion that is done has visited all buckets and left none early. Its report is that of its
  requests in order, and has one entry for each version. -/
  reported : ∀ report, outcome = .done report →
    visits.map Visit.group = byBucket versions ∧ (∀ visit ∈ visits, visit.Complete op) ∧
      report = .concat ((visits.flatMap Visit.requests).flatMap fun request => request.2.outputs) ∧
      Reported deletedFor errorFor versions report

section Covers

variable {groups : List (String × List ObjectVersion)} {visits : List Visit}
  {outcome : Outcome (List DeletionReport)}

/-- Buckets are listed in ascending order, none of them twice. -/
theorem ascending_buckets (versions : List ObjectVersion) :
    (buckets versions).Pairwise (· < ·) := by
  have hsorted : (buckets versions).Pairwise fun a b => decide (a ≤ b) = true := by
    refine List.pairwise_mergeSort (fun a b c hab hbc => ?_) (fun a b => ?_) _
    · exact decide_eq_true (le_trans (of_decide_eq_true hab) (of_decide_eq_true hbc))
    · simpa using le_total a b
  refine (hsorted.and (nodup_buckets versions)).imp ?_
  rintro a b ⟨hle, hne⟩
  exact lt_of_le_of_ne (of_decide_eq_true hle) hne

/-- The buckets that are visited are the first ones. -/
theorem Deletes.visited (h : Deletes op b random groups visits outcome) :
    visits.map Visit.group <+: groups := by
  induction h with
  | nil => exact List.prefix_rfl
  | stopped => exact List.prefix_append [_] _
  | cons _ _ ih => exact (List.prefix_cons_inj _).2 ih

/-- Each visit is a run for the versions of its bucket. -/
theorem Deletes.runs (h : Deletes op b random groups visits outcome) :
    ∀ visit ∈ visits, ∃ outcome slept, Runs (op visit.bucket) b random
      (chunks (op visit.bucket).limit visit.versions) visit.rounds outcome slept := by
  induction h with
  | nil => simp
  | stopped hruns => exact List.forall_mem_singleton.2 ⟨_, _, hruns⟩
  | cons hruns _ ih => exact List.forall_mem_cons.2 ⟨⟨_, _, hruns⟩, ih⟩

/-- A bucket is left for the next one when all its chunks are sent. -/
theorem Deletes.complete (h : Deletes op b random groups visits outcome) :
    ∀ visit ∈ visits.dropLast, visit.Complete op := by
  induction h with
  | nil | stopped => simp
  | @cons bucket versions groups visits rounds reports outcome slept hruns _ ih =>
    intro visit hvisit
    rw [← List.singleton_append] at hvisit
    rcases mem_dropLast_append hvisit with hfirst | hother
    · rw [List.mem_singleton.1 hfirst]
      exact (hruns.answered rfl).1
    · exact ih visit hother

/-- A deletion that is done has visited all buckets and left none early, and its reports are those of
its requests in order. -/
theorem Deletes.whole (h : Deletes op b random groups visits outcome) (hdone : outcome.isDone) :
    visits.map Visit.group = groups ∧ (∀ visit ∈ visits, visit.Complete op) ∧
      outcome = .done
        ((visits.flatMap Visit.requests).flatMap fun request => request.2.outputs) := by
  induction h with
  | nil => exact ⟨rfl, by simp, rfl⟩
  | stopped _ hstop =>
    rw [Outcome.isDone_context, hstop] at hdone
    cases hdone
  | cons hruns _ ih =>
    rw [Outcome.isDone_map] at hdone
    obtain ⟨hgroups, hcomplete, hvalue⟩ := ih hdone
    obtain ⟨hlength, -, hreports⟩ := hruns.answered rfl
    cases hreports
    refine ⟨congrArg _ hgroups, List.forall_mem_cons.2 ⟨hlength, hcomplete⟩, ?_⟩
    rw [hvalue, List.flatMap_cons, List.flatMap_append, Visit.requests, List.flatMap_map]
    rfl

/-- A deletion that is done has reported the versions of all buckets. -/
theorem Deletes.reported (hop : AnswersEach op deletedFor errorFor)
    (h : Deletes op b random groups visits outcome)
    (hgroups : ∀ group ∈ groups, ∀ v ∈ group.2, v.bucket = group.1) {reports : List DeletionReport}
    (hdone : outcome = .done reports) :
    Reported deletedFor errorFor (groups.map Prod.snd).flatten (.concat reports) := by
  induction h generalizing reports with
  | nil =>
    cases hdone
    exact reported_concat .nil
  | stopped _ hstop =>
    rw [← Outcome.isDone_context, hdone] at hstop
    cases hstop
  | @cons bucket versions groups visits rounds first outcome slept hruns _ ih =>
    obtain ⟨others, hvalue, rfl⟩ := Outcome.map_eq_done.1 hdone
    obtain ⟨hfirst, hrest⟩ := List.forall_mem_cons.1 hgroups
    have hboth := reported_concat (.cons (hop.runs_reported hruns hfirst) (.cons (ih hrest hvalue) .nil))
    simpa [DeletionReport.concat] using hboth

/-- However the visits of the buckets of some versions go, they cover the versions. -/
theorem Deletes.covers (hop : AnswersEach op deletedFor errorFor)
    (h : Deletes op b random (byBucket versions) visits outcome) :
    Covers op b random deletedFor errorFor versions (outcome.map DeletionReport.concat) visits := by
  have hbucket : ∀ group ∈ byBucket versions, ∀ v ∈ group.2, v.bucket = group.1 := by
    intro group hgroup v hv
    obtain ⟨bucket, -, rfl⟩ := List.mem_map.1 hgroup
    exact eq_of_beq (List.mem_filter.1 hv).2
  refine ⟨h.halts.map _, ?_, h.visited, ?_, ?_, h.complete, ?_⟩
  · have hbuckets : visits.map Visit.bucket <+: buckets versions := by
      have hnames := h.visited.map Prod.fst
      rw [byBucket, List.map_map, List.map_map] at hnames
      rwa [← List.map_id (buckets versions)]
    exact (ascending_buckets versions).sublist hbuckets.sublist
  · intro visit hvisit
    obtain ⟨_, _, hruns⟩ := h.runs visit hvisit
    refine hruns.drains.imp ?_
    rintro _ _ ⟨_, _, hdrains⟩
    exact hdrains.isRound
  · intro visit hvisit e he
    obtain ⟨_, _, hruns⟩ := h.runs visit hvisit
    have hgroup : visit.group ∈ byBucket versions :=
      h.visited.subset (List.mem_map_of_mem hvisit)
    exact (hop.runs_fit hruns (hbucket visit.group hgroup) e he).2
  · intro report hreport
    obtain ⟨reports, hdone, rfl⟩ := Outcome.map_eq_done.1 hreport
    obtain ⟨hvisited, hcomplete, hvalue⟩ := h.whole (by rw [hdone]; rfl)
    refine ⟨hvisited, hcomplete, ?_, (h.reported hop hbucket hdone).perm (byBucket_perm versions)⟩
    rw [hdone] at hvalue
    exact congrArg DeletionReport.concat (Outcome.done.inj hvalue)

/-- The requests of a deletion and its outcome are one of the ways in which it goes. -/
theorem deletes_requests (op : String → Operation σ ObjectVersion DeletionReport) (b : Backoff)
    (random : Nat → Nat) (versions : List ObjectVersion) (c : Clocked σ) :
    ∃ visits outcome, Deletes op b random (byBucket versions) visits outcome ∧
      (deleteByBucket op b random versions c).1 = outcome.map DeletionReport.concat ∧
      deletionRequests op b random versions c = visits.flatMap Visit.requests := by
  obtain ⟨visits, hdeletes, hlog⟩ :=
    deletes_each_recorded op b random (byBucket versions) ⟨(c.world, []), c.slept⟩
  have hrecorded : deleteByBucket (fun bucket => (op bucket).recordedAs bucket) b random versions
      ⟨(c.world, []), c.slept⟩ = _ :=
    Action.bind_pure_apply _ (fun reports : List (List _) => DeletionReport.concat reports.flatten) _
  have hsame := shows_deleteByBucket op b random versions ⟨(c.world, []), c.slept⟩
  rw [hrecorded] at hsame
  have hdelete : deleteByBucket op b random versions c = _ := hsame
  refine ⟨visits, _, hdeletes, ?_, ?_⟩
  · rw [hdelete, Outcome.map_map]
    rfl
  · rw [deletionRequests, hrecorded]
    exact hlog

/-- However a deletion ends, it went through the buckets in ascending order and through the versions of
each in their order, mixed none of them and stopped at the first failure. When it is done, it has
reported every version once. -/
theorem deleteByBucket_covers (hop : AnswersEach op deletedFor errorFor) (b : Backoff)
    (random : Nat → Nat) (versions : List ObjectVersion) (c : Clocked σ) :
    ∃ visits, deletionRequests op b random versions c = visits.flatMap Visit.requests ∧
      Covers op b random deletedFor errorFor versions (deleteByBucket op b random versions c).1
        visits := by
  obtain ⟨visits, outcome, hdeletes, houtcome, hrequests⟩ :=
    deletes_requests op b random versions c
  refine ⟨visits, hrequests, ?_⟩
  rw [houtcome]
  exact hdeletes.covers hop

/-- Whatever a plan says, a reply reports the first of its versions and leaves the others. -/
theorem answersEach_plan (limit : Nat) :
    AnswersEach (BucketPlan.delete limit)
      (fun v deleted => deleted = ⟨v.nodeId, v.bucket, v.key, true⟩)
      (fun v error => error = ObjectTable.denied v) := by
  intro bucket versions p reply p' _ h
  simp only [BucketPlan.delete, Action.get_bind_apply] at h
  split at h
  · simp at h
  · simp only [Action.bind_eq_done, Action.set_eq_done, Action.pure_eq_done] at h
    obtain ⟨_, _, rfl, rfl, -⟩ := h
    generalize (if p.throttled = 0 then versions.length else versions.length - 1) = count
    have hentries {β : Type} (f : ObjectVersion → β) (vs : List ObjectVersion) :
        Forall₂ (fun v entry => entry = f v) vs (vs.map f) :=
      List.forall₂_map_right_iff.2 (List.forall₂_same.2 fun _ _ => rfl)
    refine ⟨versions.take count, ?_, _, _, ?_, hentries _ _, hentries _ _⟩
    · rw [List.take_append_drop]
    · rw [List.partition_eq_filter_filter]
      exact List.perm_append_comm.trans (List.filter_append_perm _ _)

/-- Versions in two buckets, the second bucket first. -/
def scattered : List ObjectVersion :=
  [⟨"n1", "b", "x", "1"⟩, ⟨"n2", "a", "y", "2"⟩, ⟨"n3", "b", "z", "3"⟩, ⟨"n4", "b", "w", "4"⟩]

/-- The first requests for the two buckets leave a version each, and one version is denied. -/
theorem deleteByBucket_covers_throttled :
    ∃ visits, deletionRequests (BucketPlan.delete 2) .immediate (fun _ => 0) scattered
        ⟨⟨["z"], [], 2, []⟩, 0⟩ = visits.flatMap Visit.requests ∧
      Covers (BucketPlan.delete 2) .immediate (fun _ => 0)
        (fun v deleted => deleted = ⟨v.nodeId, v.bucket, v.key, true⟩)
        (fun v error => error = ObjectTable.denied v) scattered
        (.done ⟨[⟨"n2", "a", "y", true⟩, ⟨"n1", "b", "x", true⟩, ⟨"n4", "b", "w", true⟩],
          [ObjectTable.denied ⟨"n3", "b", "z", "3"⟩]⟩) visits := by
  have hbuckets : buckets scattered = ["a", "b"] := by
    simp [buckets, scattered, List.mergeSort, List.eraseDups_cons]
  have hdone : (deleteByBucket (BucketPlan.delete 2) .immediate (fun _ => 0) scattered
      ⟨⟨["z"], [], 2, []⟩, 0⟩).1 = .done ⟨[⟨"n2", "a", "y", true⟩, ⟨"n1", "b", "x", true⟩,
        ⟨"n4", "b", "w", true⟩], [ObjectTable.denied ⟨"n3", "b", "z", "3"⟩]⟩ := by
    rw [deleteByBucket, byBucket, hbuckets]
    decide +kernel
  rw [← hdone]
  exact deleteByBucket_covers (answersEach_plan 2) .immediate (fun _ => 0) scattered
    ⟨⟨["z"], [], 2, []⟩, 0⟩

end Covers

end ObjectVersion

end Salvage
