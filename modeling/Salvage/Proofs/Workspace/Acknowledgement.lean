import Mathlib.Data.Finset.Basic
import Mathlib.Data.Finset.Dedup
import Mathlib.Logic.Relation
import Salvage.Proofs.Workspace.Delivery

/-!
# Which messages are acknowledged

Each message of a batch has a task of its own. Only so many tasks run at once, but which of them starts
next, which goes on, and when the end of one is noticed is open; so is what happens to the workspace
between two steps of a task, and a task may stop at any time before it commits. The ids of all messages
are pending at first, and the end of a task that is done takes its id away. What is pending when all
ends are noticed has to come again, and only the rest is acknowledged. To run the tasks in turn is one of
the ways to handle a batch, and then each of them ends as its message does in the workspace that the
others left.
-/

namespace Salvage.Workspace

open Relation (ReflTransGen)

/-- How far a task has come. -/
inductive Stage where
  | waiting
  | running
  | ended (o : Outcome Unit)
  /-- The batch knows how the task ended. -/
  | noticed (o : Outcome Unit)

/-- The task of a message. -/
structure Task where
  message : QueueMessage
  number : Nat
  stage : Stage
  /-- The workspace that the restore found and the one that it left, if it is committed. -/
  committed : Option (Workspace × Workspace)

/-- A batch whose messages are being handled. -/
structure Handling where
  tasks : List Task
  pending : Finset String

namespace Task

/-- The task of a message before it starts. -/
def ofMessage (m : QueueMessage × Nat) : Task := ⟨m.1, m.2, .waiting, none⟩

/-- The task has a permit. -/
def isRunning (t : Task) : Bool :=
  match t.stage with
  | .running => true
  | _ => false

/-- The task ended with success. -/
def isDone (t : Task) : Bool :=
  match t.stage with
  | .ended o | .noticed o => o.isDone
  | _ => false

/-- It is known how the task ended. -/
def isNoticed (t : Task) : Bool :=
  match t.stage with
  | .noticed _ => true
  | _ => false

/-- What a task runs: it handles its message. -/
def run (token : Nat → Int → String) (t : Task) : Action Workspace Unit :=
  handle (token t.number) t.message

/-- The run of a task is done, and leads from one workspace to another. -/
def Restores (token : Nat → Int → String) (t : Task) (w w' : Workspace) : Prop :=
  t.run token w = (.done (), w')

/-- What a task does while it runs: it commits the restore of its message, in whatever workspace it
finds, and is done then, since nothing can fail after that; or it ends in another way and has
committed nothing. -/
inductive Works (token : Nat → Int → String) (t : Task) : Task → Prop
  | commit {w w' : Workspace} : t.stage = .running → t.committed = none →
      t.Restores token w w' → Works token t { t with committed := some (w, w') }
  | succeed : t.stage = .running → t.committed.isSome →
      Works token t { t with stage := .ended (.done ()) }
  | stop {o : Outcome Unit} : t.stage = .running → t.committed = none → o.isDone = false →
      Works token t { t with stage := .ended o }

/-- The number of steps that a task has before it at most. -/
def work (t : Task) : Nat :=
  match t.stage with
  | .waiting => 4
  | .running => if t.committed.isSome then 2 else 3
  | .ended _ => 1
  | .noticed _ => 0

/-- A task has run alone in a workspace: it is known to have ended as its run ends there, and what that
leaves is committed if it was done. -/
structure RanIn (token : Nat → Int → String) (t : Task) (w : Workspace) : Prop where
  stage : t.stage = .noticed (t.run token w).1
  committed : t.committed = if (t.run token w).1.isDone then some (w, (t.run token w).2) else none

/-- What is committed was restored, and just that is done in the end. -/
structure Sound (token : Nat → Int → String) (t : Task) : Prop where
  restores : ∀ w w', t.committed = some (w, w') → t.Restores token w w'
  ended : ∀ o, t.stage = .ended o ∨ t.stage = .noticed o → o.isDone = t.committed.isSome

end Task

/-- Tasks have run one after another, each in the workspace that the one before it left. -/
inductive InTurn (token : Nat → Int → String) : Workspace → List Task → Workspace → Prop
  | nil {w : Workspace} : InTurn token w [] w
  | cons {w w' : Workspace} {t : Task} {ts : List Task} : t.RanIn token w →
      InTurn token (t.run token w).2 ts w' → InTurn token w (t :: ts) w'

/-- The receipts of the messages of a batch that need not come again, in its order. -/
def receiptsBut (failed : List String) (messages : List QueueMessage) : List String :=
  (messages.filter fun m => m.id ∉ failed).map QueueMessage.receipt

/-- A queue after the deletion of some receipts was tried, one after another and however each ended. -/
def deleteEach {σ : Type} (delete : String → Action σ Unit) (receipts : List String) (s : σ) : σ :=
  receipts.foldl (fun s receipt => (delete receipt s).2) s

namespace Handling

/-- No task has started. -/
def start (messages : List QueueMessage) : Handling :=
  ⟨messages.zipIdx.map Task.ofMessage, (messages.map QueueMessage.id).toFinset⟩

/-- The ends of all tasks are noticed. -/
def IsOver (b : Handling) : Prop := ∀ t ∈ b.tasks, t.isNoticed

/-- The ids that have to come again. -/
def failed (messages : List QueueMessage) (b : Handling) : List String :=
  (messages.map QueueMessage.id).filter (· ∈ b.pending)

/-- The number of steps that the tasks have before them at most. -/
def work (b : Handling) : Nat := (b.tasks.map Task.work).sum

/-- One step of one task. There is at least one permit. -/
inductive Step (token : Nat → Int → String) (permits : Nat) : Handling → Handling → Prop
  | start {before after : List Task} {t : Task} {pending : Finset String} : t.stage = .waiting →
      (before ++ t :: after).countP Task.isRunning < max permits 1 →
      Step token permits ⟨before ++ t :: after, pending⟩
        ⟨before ++ { t with stage := .running } :: after, pending⟩
  | work {before after : List Task} {t t' : Task} {pending : Finset String} : t.Works token t' →
      Step token permits ⟨before ++ t :: after, pending⟩ ⟨before ++ t' :: after, pending⟩
  | notice {before after : List Task} {t : Task} {o : Outcome Unit} {pending : Finset String} :
      t.stage = .ended o →
      Step token permits ⟨before ++ t :: after, pending⟩
        ⟨before ++ { t with stage := .noticed o } :: after,
          if o.isDone then pending.erase t.message.id else pending⟩

/-- What every step keeps. -/
structure Sound (token : Nat → Int → String) (permits : Nat) (messages : List QueueMessage)
    (b : Handling) : Prop where
  order : b.tasks.map (fun t => (t.message, t.number)) = messages.zipIdx
  tasks : ∀ t ∈ b.tasks, t.Sound token
  running : b.tasks.countP Task.isRunning ≤ max permits 1
  pending : ∀ id, id ∈ b.pending ↔ id ∈ messages.map QueueMessage.id ∧
    ∀ t ∈ b.tasks, t.message.id = id → t.stage ≠ .noticed (.done ())

end Handling

variable {token : Nat → Int → String} {permits : Nat} {messages : List QueueMessage}
  {b b' : Handling} {before after tasks : List Task} {t t' : Task} {w w' : Workspace}

/-! ## One task -/

/-- A message is handled if it can be read and the restore that it asks for is done. -/
theorem handle_eq_done {token : Int → String} {m : QueueMessage} {w w' : Workspace} :
    handle token m w = (.done (), w') ↔ ∃ r events,
      RestoreMessage.reader.readAll m.body = .ok r ∧ restore token r w = (.done events, w') := by
  rw [handle]
  cases RestoreMessage.reader.readAll m.body with
  | error fault => simp
  | ok r => simp [Action.bind_eq_done, Action.pure_eq_done]

namespace Task

/-- A task runs at one stage. -/
theorem isRunning_iff : t.isRunning ↔ t.stage = .running := by
  rw [isRunning]
  cases t.stage <;> simp

/-- It is known how a task ended at the last stage. -/
theorem isNoticed_iff : t.isNoticed ↔ ∃ o, t.stage = .noticed o := by
  rw [isNoticed]
  cases t.stage <;> simp

/-- A task that is known to have ended does not run. -/
theorem not_isRunning (h : t.isNoticed) : ¬ t.isRunning := by
  obtain ⟨o, hstage⟩ := isNoticed_iff.1 h
  rw [isRunning_iff, hstage]
  exact nofun

/-- A running task stays sound. -/
theorem Sound.works (h : t.Sound token) (hworks : t.Works token t') : t'.Sound token := by
  cases hworks with
  | commit hrunning _ hrestores =>
    refine ⟨fun w w' hcommitted => ?_, fun o hended => ?_⟩
    · cases hcommitted
      exact hrestores
    · simp [hrunning] at hended
  | succeed _ hcommitted =>
    refine ⟨h.restores, fun o hended => ?_⟩
    obtain ⟨⟨⟩⟩ | ⟨⟨⟩⟩ := hended
    exact hcommitted.symm
  | stop _ hnone hnot =>
    refine ⟨h.restores, fun o hended => ?_⟩
    obtain ⟨⟨⟩⟩ | ⟨⟨⟩⟩ := hended
    rw [hnot, hnone]
    rfl

/-- A running task keeps its message, and nobody knows yet how it ends. -/
theorem Works.same (h : t.Works token t') :
    t'.message = t.message ∧ t'.number = t.number ∧ t.isRunning ∧ ∀ o, t'.stage ≠ .noticed o := by
  rw [isRunning_iff]
  cases h with
  | commit hrunning => simp [hrunning]
  | succeed hrunning => simp [hrunning]
  | stop hrunning => simp [hrunning]

/-- A running task comes closer to its end. -/
theorem Works.work_lt (h : t.Works token t') : t'.work < t.work := by
  cases h with
  | commit hrunning hnone => simp [work, hrunning, hnone]
  | succeed hrunning hsome => simp [work, hrunning, hsome]
  | stop hrunning hnone => simp [work, hrunning, hnone]

/-- A running task can go on. -/
theorem exists_works (token : Nat → Int → String) (h : t.isRunning) : ∃ t', t.Works token t' := by
  have hrunning := isRunning_iff.1 h
  cases hcommitted : t.committed with
  | none => exact ⟨_, .stop (o := .aborted) hrunning hcommitted rfl⟩
  | some c => exact ⟨_, .succeed hrunning (hcommitted ▸ rfl)⟩

end Task

namespace Handling

/-! ## One step -/

/-- A step replaces one task by what becomes of it. -/
structure Replaces (token : Nat → Int → String) (permits : Nat) (b b' : Handling)
    (before after : List Task) (t t' : Task) : Prop where
  tasks : b.tasks = before ++ t :: after
  tasks' : b'.tasks = before ++ t' :: after
  message : t'.message = t.message
  number : t'.number = t.number
  sound : t.Sound token → t'.Sound token
  work : t'.work < t.work
  permit : t'.isRunning → t.isRunning ∨ b.tasks.countP Task.isRunning < max permits 1
  unknown : t.stage ≠ .noticed (.done ())
  pending : t'.stage ≠ .noticed (.done ()) ∧ b'.pending = b.pending ∨
    t'.stage = .noticed (.done ()) ∧ b'.pending = b.pending.erase t.message.id

/-- What a step does. -/
theorem Step.replaces (h : Step token permits b b') :
    ∃ before after t t', Replaces token permits b b' before after t t' := by
  cases h with
  | @start before after t pending hwaiting hfree =>
    refine ⟨before, after, t, _, rfl, rfl, rfl, rfl, fun ht => ⟨ht.restores, ?_⟩, ?_,
      fun _ => .inr hfree, ?_, .inl ⟨?_, rfl⟩⟩
    · simp
    · simp only [Task.work, hwaiting]
      split <;> decide
    · simp [hwaiting]
    · simp
  | @work before after t t' pending hworks =>
    obtain ⟨hmessage, hnumber, hrunning, hopen⟩ := hworks.same
    refine ⟨before, after, t, t', rfl, rfl, hmessage, hnumber, fun ht => ht.works hworks,
      hworks.work_lt, fun _ => .inl hrunning, ?_, .inl ⟨hopen _, rfl⟩⟩
    simp [Task.isRunning_iff.1 hrunning]
  | @notice before after t o pending hended =>
    refine ⟨before, after, t, _, rfl, rfl, rfl, rfl, fun ht => ⟨ht.restores, fun o' ho' => ?_⟩, ?_,
      fun hrunning => ?_, ?_, ?_⟩
    · obtain ⟨⟨⟩⟩ | ⟨⟨⟩⟩ := ho'
      exact ht.ended o (.inl hended)
    · simp [Task.work, hended]
    · cases Task.isRunning_iff.1 hrunning
    · simp [hended]
    · cases o with
      | done u => exact .inr ⟨rfl, rfl⟩
      | failed e => exact .inl ⟨by simp, rfl⟩
      | aborted => exact .inl ⟨by simp, rfl⟩

/-- What holds of all tasks holds after one of them is replaced if it holds of the new one. -/
theorem forall_replace {P : Task → Prop} (hP : P t → P t')
    (h : ∀ s ∈ before ++ t :: after, P s) : ∀ s ∈ before ++ t' :: after, P s := by
  rw [List.forall_mem_append, List.forall_mem_cons] at h ⊢
  exact ⟨h.1, hP h.2.1, h.2.2⟩

/-- Every step keeps what it relies on. -/
theorem Sound.step (h : b.Sound token permits messages) (hstep : Step token permits b b') :
    b'.Sound token permits messages := by
  obtain ⟨before, after, t, t', hreplaces⟩ := hstep.replaces
  obtain ⟨htasks, htasks', hmessage, hnumber, hsound, -, hpermit, hunknown, hpending⟩ := hreplaces
  obtain ⟨horder, hall, hrunning, hids⟩ := h
  rw [htasks] at horder hall hrunning hids hpermit
  refine ⟨?_, ?_, ?_, fun id => ?_⟩
  · rw [htasks', ← horder]
    simp only [List.map_append, List.map_cons, hmessage, hnumber]
  · rw [htasks']
    exact forall_replace hsound hall
  · rw [htasks']
    simp only [List.countP_append, List.countP_cons] at hrunning hpermit ⊢
    cases hrun : t'.isRunning with
    | false =>
      simp only [Bool.false_eq_true, if_false]
      omega
    | true =>
      rcases hpermit hrun with hhad | hfree
      · rwa [if_pos hhad] at hrunning
      · simp only [if_true]
        split at hfree <;> omega
  · rw [htasks']
    rcases hpending with ⟨hopen, hsame⟩ | ⟨hdone, herased⟩
    · rw [hsame, hids id]
      exact and_congr_right fun _ =>
        ⟨forall_replace fun _ _ => hopen, forall_replace fun _ _ => hunknown⟩
    · rw [herased, Finset.mem_erase, hids id]
      simp only [List.forall_mem_append, List.forall_mem_cons, hmessage, hdone, hunknown, ne_eq,
        not_true_eq_false, not_false_eq_true, imp_false, implies_true, true_and]
      tauto

/-- Every step brings the batch closer to its end. -/
theorem work_lt_of_step (h : Step token permits b b') : b'.work < b.work := by
  obtain ⟨before, after, t, t', hreplaces⟩ := h.replaces
  rw [work, work, hreplaces.tasks, hreplaces.tasks']
  simp only [List.map_append, List.map_cons, List.sum_append, List.sum_cons]
  have hless := hreplaces.work
  omega

/-- A batch that is not over can go on. -/
theorem exists_step (token : Nat → Int → String) (permits : Nat) (h : ¬ b.IsOver) :
    ∃ b', Step token permits b b' := by
  obtain ⟨tasks, pending⟩ := b
  by_cases hrunning : ∃ t ∈ tasks, t.isRunning
  · obtain ⟨t, hmem, hrun⟩ := hrunning
    obtain ⟨before, after, rfl⟩ := List.append_of_mem hmem
    obtain ⟨t', hworks⟩ := Task.exists_works token hrun
    exact ⟨_, .work hworks⟩
  · -- all permits are free, so a task that waits may start
    have hfree : tasks.countP Task.isRunning = 0 :=
      List.countP_eq_zero.2 fun t hmem hrun => hrunning ⟨t, hmem, hrun⟩
    simp only [IsOver, not_forall] at h
    obtain ⟨t, hmem, hopen⟩ := h
    obtain ⟨before, after, rfl⟩ := List.append_of_mem hmem
    cases hstage : t.stage with
    | waiting =>
      refine ⟨_, .start hstage ?_⟩
      rw [hfree]
      exact Nat.lt_of_lt_of_le Nat.zero_lt_one (Nat.le_max_right permits 1)
    | running => exact absurd ⟨t, hmem, Task.isRunning_iff.2 hstage⟩ hrunning
    | ended o => exact ⟨_, .notice hstage⟩
    | noticed o => exact absurd (Task.isNoticed_iff.2 ⟨o, hstage⟩) hopen

/-! ## A whole batch -/

/-- At first nothing has happened. -/
theorem sound_start (token : Nat → Int → String) (permits : Nat) (messages : List QueueMessage) :
    (start messages).Sound token permits messages := by
  have hfirst : ∀ t ∈ (start messages).tasks, t.stage = .waiting ∧ t.committed = none := by
    intro t ht
    obtain ⟨m, -, rfl⟩ := List.mem_map.1 ht
    exact ⟨rfl, rfl⟩
  refine ⟨?_, fun t ht => ⟨?_, ?_⟩, ?_, fun id => ?_⟩
  · rw [start, List.map_map]
    exact List.map_id' _
  · rw [(hfirst t ht).2]
    simp
  · rw [(hfirst t ht).1]
    simp
  · rw [List.countP_eq_zero.2 fun t ht => by simp [Task.isRunning_iff, (hfirst t ht).1]]
    exact Nat.zero_le _
  · rw [start, List.mem_toFinset]
    refine (and_iff_left fun t ht _ => ?_).symm
    rw [(hfirst t ht).1]
    simp

/-- What every step keeps holds all the time. -/
theorem Sound.steps (h : ReflTransGen (Step token permits) (start messages) b) :
    b.Sound token permits messages := by
  induction h with
  | refl => exact sound_start token permits messages
  | tail _ hstep ih => exact ih.step hstep

/-- Where all ends are noticed, what was done is what is known to be done. -/
theorem stage_eq_iff (hover : b.IsOver) (ht : t ∈ b.tasks) :
    t.stage = .noticed (.done ()) ↔ t.isDone := by
  obtain ⟨o, hstage⟩ := Task.isNoticed_iff.1 (hover t ht)
  rw [Task.isDone, hstage]
  cases o <;> simp [Outcome.isDone]

/-- Once a batch is over, an id has to come again if no task with it was done. -/
theorem failed_eq (h : b.Sound token permits messages) (hover : b.IsOver) :
    b.failed messages = (messages.map QueueMessage.id).filter fun id =>
      ∀ t ∈ b.tasks, t.message.id = id → ¬ t.isDone := by
  refine List.filter_congr fun id hid => decide_eq_decide.2 ?_
  rw [h.pending, and_iff_right hid]
  exact forall₂_congr fun t ht => imp_congr_right fun _ => not_congr (stage_eq_iff hover ht)

/-- In whatever order the tasks ended, their ends tell which ids have to come again. -/
theorem unfinished_eq (h : b.Sound token permits messages) (hover : b.IsOver)
    {finished : List (String × Bool)}
    (hfinished : finished.Perm (b.tasks.map fun t => (t.message.id, t.isDone))) :
    unfinished (messages.map QueueMessage.id) finished = b.failed messages := by
  rw [unfinished, failed_eq h hover]
  refine List.filter_congr fun id _ => ?_
  rw [hfinished.any_eq, Bool.eq_iff_iff]
  simp only [List.any_map, Bool.not_eq_true', List.any_eq_false, Function.comp_apply,
    Bool.and_eq_true, beq_iff_eq, not_and, decide_eq_true_eq]

end Handling

/-! ## One message after another -/

/-- The end of a task that has run is noticed. -/
theorem Task.RanIn.isNoticed (h : t.RanIn token w) : t.isNoticed :=
  Task.isNoticed_iff.2 ⟨_, h.stage⟩

/-- A task that has run is done when its run is. -/
theorem Task.RanIn.isDone_eq (h : t.RanIn token w) : t.isDone = (t.run token w).1.isDone := by
  rw [Task.isDone, h.stage]

/-- The ends of tasks that have run are noticed. -/
theorem InTurn.isNoticed (h : InTurn token w tasks w') : ∀ t ∈ tasks, t.isNoticed := by
  induction h with
  | nil => exact List.forall_mem_nil _
  | cons hran _ ih => exact List.forall_mem_cons.2 ⟨hran.isNoticed, ih⟩

/-- To handle messages one after another ends as tasks that have run in turn did. -/
theorem InTurn.each (h : InTurn token w tasks w') :
    Action.each (fun p : QueueMessage × Nat => (handle (token p.2) p.1).attempt >>= fun outcome =>
      pure (p.1.id, outcome.isDone)) (tasks.map fun t => (t.message, t.number)) w =
        (.done (tasks.map fun t => (t.message.id, t.isDone)), w') := by
  induction h with
  | nil => rfl
  | @cons w w' t ts hran _ ih =>
    rw [List.map_cons, Action.each_cons_of_done (ts.map fun t => (t.message, t.number)) rfl,
      List.map_cons, hran.isDone_eq]
    exact congrArg (fun r => (Outcome.map _ r.1, r.2)) ih

namespace Handling

/-- A batch whose tasks have run in turn ends as the handling of its messages. -/
theorem Sound.handleBatch_eq (h : b.Sound token permits messages)
    (hturn : InTurn token w b.tasks w') :
    handleBatch token messages w = (.done (b.failed messages), w') := by
  have heach := hturn.each
  rw [h.order] at heach
  rw [← unfinished_eq h hturn.isNoticed (List.Perm.refl _)]
  exact Action.bind_of_done heach

/-- While no other task runs, the task of a message can run alone. -/
theorem steps_ranIn (token : Nat → Int → String) (permits : Nat) (m : QueueMessage × Nat)
    (pending : Finset String) (w : Workspace)
    (hidle : ∀ t ∈ before ++ Task.ofMessage m :: after, ¬ t.isRunning) :
    ∃ t pending', t.RanIn token w ∧
      ReflTransGen (Step token permits) ⟨before ++ Task.ofMessage m :: after, pending⟩
        ⟨before ++ t :: after, pending'⟩ := by
  have hstart : Step token permits ⟨before ++ Task.ofMessage m :: after, pending⟩
      ⟨before ++ { Task.ofMessage m with stage := .running } :: after, pending⟩ := by
    refine .start rfl ?_
    rw [List.countP_eq_zero.2 hidle]
    exact Nat.lt_of_lt_of_le Nat.zero_lt_one (Nat.le_max_right permits 1)
  rcases hrun : handle (token m.2) m.1 w with ⟨o, w'⟩
  cases hdone : o.isDone with
  | true =>
    obtain ⟨⟨⟩, rfl⟩ := Outcome.exists_of_isDone hdone
    refine ⟨⟨m.1, m.2, .noticed (.done ()), some (w, w')⟩, _, ⟨?_, ?_⟩,
      (((ReflTransGen.single hstart).tail (.work (.commit rfl rfl hrun))).tail
        (.work (.succeed rfl rfl))).tail (.notice rfl)⟩
    · rw [Task.run, hrun]
    · rw [Task.run, hrun]
      rfl
  | false =>
    refine ⟨⟨m.1, m.2, .noticed o, none⟩, _, ⟨?_, ?_⟩,
      ((ReflTransGen.single hstart).tail (.work (.stop rfl rfl hdone))).tail (.notice rfl)⟩
    · rw [Task.run, hrun]
    · rw [Task.run, hrun, hdone]
      rfl

/-- The tasks of some messages can run in turn. -/
theorem steps_inTurn (token : Nat → Int → String) (permits : Nat) (ms : List (QueueMessage × Nat))
    (pending : Finset String) (w : Workspace) (hover : ∀ t ∈ before, t.isNoticed) :
    ∃ tasks pending' w', InTurn token w tasks w' ∧
      ReflTransGen (Step token permits) ⟨before ++ ms.map Task.ofMessage, pending⟩
        ⟨before ++ tasks, pending'⟩ := by
  induction ms generalizing before pending w with
  | nil => exact ⟨[], pending, w, .nil, .refl⟩
  | cons m ms ih =>
    -- the tasks before this one have ended and those behind it wait, so all permits are free
    have hidle : ∀ t ∈ before ++ Task.ofMessage m :: ms.map Task.ofMessage, ¬ t.isRunning := by
      rw [← List.map_cons, List.forall_mem_append, List.forall_mem_map]
      exact ⟨fun t ht => Task.not_isRunning (hover t ht), fun _ _ => Bool.false_ne_true⟩
    obtain ⟨t, pending₁, hran, hfirst⟩ := steps_ranIn token permits m pending w hidle
    have hnoticed : ∀ s ∈ before ++ [t], s.isNoticed := by
      rw [List.forall_mem_append, List.forall_mem_singleton]
      exact ⟨hover, hran.isNoticed⟩
    obtain ⟨tasks, pending₂, w', hturn, hrest⟩ := ih pending₁ (t.run token w).2 hnoticed
    rw [← List.append_cons, ← List.append_cons] at hrest
    exact ⟨t :: tasks, pending₂, w', .cons hran hturn, hfirst.trans hrest⟩

/-- To run the tasks of a batch in turn is one of the ways to handle it. -/
theorem exists_inTurn (token : Nat → Int → String) (permits : Nat) (messages : List QueueMessage)
    (w : Workspace) :
    ∃ b w', ReflTransGen (Step token permits) (start messages) b ∧ InTurn token w b.tasks w' := by
  obtain ⟨tasks, pending, w', hturn, hsteps⟩ :=
    steps_inTurn token permits messages.zipIdx (messages.map QueueMessage.id).toFinset w
      (List.forall_mem_nil _)
  exact ⟨⟨tasks, pending⟩, w', hsteps, hturn⟩

end Handling

/-! ## What is acknowledged -/

/-- Acknowledging a batch asks for the deletion of each message that need not come again, in the order
of the batch, however the deletions before it ended. -/
theorem acknowledge_apply {σ : Type} (delete : String → Action σ Unit)
    (messages : List QueueMessage) (failed : List String) (s : σ) :
    acknowledge delete messages failed s =
      (.done (), deleteEach delete (receiptsBut failed messages) s) := by
  obtain ⟨os, hrun⟩ := Action.each_attempt (fun m : QueueMessage => delete m.receipt)
    (messages.filter fun m => !failed.contains m.id) s
  have hsame : (messages.filter fun m => !failed.contains m.id) =
      messages.filter fun m => m.id ∉ failed := by
    refine List.filter_congr fun m _ => ?_
    rw [List.contains_eq_mem, decide_not]
  rw [hsame] at hrun
  rw [acknowledge, hsame, Action.bind_of_done hrun, deleteEach, receiptsBut, List.foldl_map]
  rfl

/-- A batch is processed by acknowledging what its handling does not ask for again. -/
theorem processBy_apply {σ : Type} {handleAll : List QueueMessage → Action Workspace (List String)}
    {failed : List String} (h : handleAll messages w = (.done failed, w'))
    (delete : String → Action σ Unit) (s : σ) :
    processBy handleAll delete messages (w, s) =
      (.done (), (w', deleteEach delete (receiptsBut failed messages) s)) := by
  have hfirst : (handleAll messages).on Prod.fst (fun w s => (w, s.2)) (w, s) =
      (.done failed, (w', s)) := Action.on_apply_of h
  rw [processBy, Action.bind_of_done hfirst]
  exact Action.on_apply_of (acknowledge_apply delete messages failed s)

/-- A batch that is over is acknowledged as its tasks ended. -/
structure Acknowledges (token : Nat → Int → String) (messages : List QueueMessage) (b : Handling) :
    Prop where
  order : b.tasks.map Task.message = messages
  failed : b.failed messages = (messages.map QueueMessage.id).filter fun id =>
    ∀ t ∈ b.tasks, t.message.id = id → ¬ t.isDone
  unfinished : ∀ finished : List (String × Bool),
    finished.Perm (b.tasks.map fun t => (t.message.id, t.isDone)) →
    unfinished (messages.map QueueMessage.id) finished = b.failed messages
  deletions : ∀ (σ : Type) (delete : String → Action σ Unit) (s : σ),
    acknowledge delete messages (b.failed messages) s =
      (.done (), deleteEach delete (receiptsBut (b.failed messages) messages) s)
  /-- To process the batch is to handle it this way and then to make these deletions. -/
  processed : ∀ (handleAll : List QueueMessage → Action Workspace (List String)) (w w' : Workspace),
    handleAll messages w = (.done (b.failed messages), w') →
    ∀ (σ : Type) (delete : String → Action σ Unit) (s : σ),
      processBy handleAll delete messages (w, s) =
        (.done (), (w', deleteEach delete (receiptsBut (b.failed messages) messages) s))
  /-- Where the ids are different, a message is acknowledged if its own restore is committed. -/
  own : (messages.map QueueMessage.id).Nodup → ∀ t ∈ b.tasks, t.message.id ∉ b.failed messages ↔
    ∃ w w', t.committed = some (w, w') ∧ ∃ r events,
      RestoreMessage.reader.readAll t.message.body = .ok r ∧
        restore (token t.number) r w = (.done events, w')

/-- A batch whose tasks have run in turn ended as the program ends that handles and processes its
messages. -/
structure EndsInTurn (token : Nat → Int → String) (messages : List QueueMessage) (w w' : Workspace)
    (b : Handling) : Prop where
  turn : InTurn token w b.tasks w'
  handled : handleBatch token messages w = (.done (b.failed messages), w')
  processed : ∀ (σ : Type) (delete : String → Action σ Unit) (s : σ),
    processBatch token delete messages (w, s) =
      (.done (), (w', deleteEach delete (receiptsBut (b.failed messages) messages) s))

namespace Handling

/-- There is one task for each message. -/
theorem Sound.messages_eq (h : b.Sound token permits messages) :
    b.tasks.map Task.message = messages := by
  have hfirst := congrArg (List.map Prod.fst) h.order
  rwa [List.map_map, List.zipIdx_map_fst] at hfirst

/-- Where the ids of a batch are different, only the task of a message stands for its id. -/
theorem not_mem_failed_iff (h : b.Sound token permits messages) (hover : b.IsOver)
    (hids : (messages.map QueueMessage.id).Nodup) (ht : t ∈ b.tasks) :
    t.message.id ∉ b.failed messages ↔ t.isDone := by
  rw [← h.messages_eq, List.map_map] at hids
  have hmem : t.message.id ∈ messages.map QueueMessage.id := by
    rw [← h.messages_eq, List.map_map]
    exact List.mem_map_of_mem ht
  rw [failed_eq h hover, List.mem_filter, and_iff_right hmem, decide_eq_true_eq]
  constructor
  · intro hnot
    by_contra hfailed
    refine hnot fun s hs hsame => ?_
    rwa [List.inj_on_of_nodup_map hids hs ht hsame]
  · exact fun hdone hnone => hnone t ht rfl hdone

/-- What is done in the end is what was committed, which is the restore that the message asks for. -/
theorem isDone_iff (h : b.Sound token permits messages) (hover : b.IsOver) (ht : t ∈ b.tasks) :
    t.isDone ↔ ∃ w w', t.committed = some (w, w') ∧ ∃ r events,
      RestoreMessage.reader.readAll t.message.body = .ok r ∧
        restore (token t.number) r w = (.done events, w') := by
  have hsound := h.tasks t ht
  obtain ⟨o, hstage⟩ := Task.isNoticed_iff.1 (hover t ht)
  have hended : t.isDone = o.isDone := by rw [Task.isDone, hstage]
  rw [hended, hsound.ended o (.inr hstage), Option.isSome_iff_exists, Prod.exists]
  refine exists_congr fun w => exists_congr fun w' => (and_iff_left_of_imp fun hcommitted => ?_).symm
  exact handle_eq_done.1 (hsound.restores w w' hcommitted)

end Handling

/-- However a batch is handled, no more tasks run at once than there are permits, each step brings it
closer to its end, and it can go on until it is over. Then the ids for which no task was done have to
come again, and exactly the other messages are acknowledged, each of them whatever becomes of the
acknowledgements before it. The program handles and processes the messages of a batch as one of these ways
does, on which its tasks run one after another from the workspace that it is given. -/
theorem batch_acknowledges_done (token : Nat → Int → String) (permits : Nat)
    (messages : List QueueMessage) :
    (∀ b, ReflTransGen (Handling.Step token permits) (.start messages) b →
      b.tasks.countP Task.isRunning ≤ max permits 1 ∧
        (∀ b', Handling.Step token permits b b' → b'.work < b.work) ∧
        (b.IsOver ∨ ∃ b', Handling.Step token permits b b') ∧
        (b.IsOver → Acknowledges token messages b)) ∧
    ∀ w, ∃ b w', ReflTransGen (Handling.Step token permits) (.start messages) b ∧ b.IsOver ∧
      EndsInTurn token messages w w' b := by
  refine ⟨fun b h => ?_, fun w => ?_⟩
  · have hsound := Handling.Sound.steps h
    refine ⟨hsound.running, fun _ => Handling.work_lt_of_step, ?_, fun hover => ?_⟩
    · by_cases hover : b.IsOver
      · exact .inl hover
      · exact .inr (Handling.exists_step token permits hover)
    · exact
        { order := hsound.messages_eq
          failed := Handling.failed_eq hsound hover
          unfinished := fun _ => Handling.unfinished_eq hsound hover
          deletions := fun _ delete s => acknowledge_apply delete messages _ s
          processed := fun _ _ _ hrun _ delete s => processBy_apply hrun delete s
          own := fun hids t ht => (Handling.not_mem_failed_iff hsound hover hids ht).trans
            (Handling.isDone_iff hsound hover ht) }
  · obtain ⟨b, w', hsteps, hturn⟩ := Handling.exists_inTurn token permits messages w
    have hhandled := (Handling.Sound.steps hsteps).handleBatch_eq hturn
    exact ⟨b, w', hsteps, hturn.isNoticed,
      { turn := hturn
        handled := hhandled
        processed := fun _ delete s => processBy_apply hhandled delete s }⟩

/-- The message for the folder of the small workspace, twice with one id, and one that cannot be
read. -/
def sampleBatch : List QueueMessage :=
  [⟨"m", "first", String.ofList sampleMessage.print⟩, ⟨"n", "second", "\x7b"⟩,
    ⟨"m", "third", String.ofList sampleMessage.print⟩]

/-- In the small workspace the second delivery of the message fails, and yet its id stands for a
success, so both are acknowledged; the message that cannot be read is not. -/
theorem batch_acknowledges_done_sample :
    ∃ b w', ReflTransGen (Handling.Step (fun _ => sampleToken) 2) (.start sampleBatch) b ∧ b.IsOver ∧
      InTurn (fun _ => sampleToken) sample b.tasks w' ∧ b.failed sampleBatch = ["n"] ∧
      Acknowledges (fun _ => sampleToken) sampleBatch b ∧
      processBatch (fun _ => sampleToken) (fun receipt => Action.modify (receipt :: ·)) sampleBatch
        (sample, []) = (.done (), (w', ["third", "first"])) := by
  obtain ⟨hall, hsome⟩ := batch_acknowledges_done (fun _ => sampleToken) 2 sampleBatch
  obtain ⟨b, w', hsteps, hover, hturn, hhandled, hprocessed⟩ := hsome sample
  have hlist : (handleBatch (fun _ => sampleToken) sampleBatch sample).1 = .done ["n"] := by
    decide +kernel
  rw [hhandled] at hlist
  have hfailed : b.failed sampleBatch = ["n"] := Outcome.done.inj hlist
  obtain ⟨-, -, -, hacknowledges⟩ := hall b hsteps
  refine ⟨b, w', hsteps, hover, hturn, hfailed, hacknowledges hover, ?_⟩
  rw [hprocessed, hfailed]
  rfl

end Salvage.Workspace
