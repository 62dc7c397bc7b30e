import Salvage.Proofs.Restoration.Rows
import Salvage.Proofs.Workspace.Request

/-!
# Runs of a workspace

A run carries out requests and deliveries one after another, in any order and as often as one likes,
each under conditions of its own: faults of the content, a changelog that refuses or does not, a
queue that takes messages or does not. What one turn keeps, a run keeps; and what one turn leaves
behind and all turns keep, no later turn can undo.
-/

namespace Salvage.Workspace

open List (Forall₂)

/-- What keeps the content of a workspace from being changed. -/
structure Faults where
  failingKeys : List String
  isDown : Bool
  throttled : Nat

/-- No faults. -/
def Faults.none : Faults := ⟨[], false, 0⟩

/-- A workspace with other faults of its content. -/
def withFaults (w : Workspace) (f : Faults) : Workspace :=
  { w with content := ⟨{ w.content.records with throttled := f.throttled },
    { w.content.objects with failingKeys := f.failingKeys, isDown := f.isDown }⟩ }

/-- The conditions under which a command is carried out. -/
structure Conditions where
  faults : Faults
  changelogIsDown : Bool
  /-- How messages are put on the queue, if they are. -/
  send : RestoreMessage → Action RestoreQueue Unit

/-- No faults, and a changelog and a queue that take everything. -/
def Conditions.calm : Conditions := ⟨.none, false, RestoreQueue.send⟩

/-- A workspace under some conditions. -/
def under (w : Workspace) (k : Conditions) : Workspace :=
  { w.withFaults k.faults with
    changelog := w.changelog.map fun c => { c with isDown := k.changelogIsDown } }

/-- What a workspace is asked to do. -/
inductive Command where
  | request (org : Int) (datasetNode : String) (r : RestoreRequest) (userId : String)
  | deliver (token : Int → String) (m : RestoreMessage)

/-- What a workspace answers. -/
inductive Answer where
  | accepted (response : RestoreResponse)
  | restored (events : List Event)

/-- Carries out a command. -/
def carryOut (send : RestoreMessage → Action RestoreQueue Unit) : Command → Action Workspace Answer
  | .request org datasetNode r userId => do
    return .accepted (← requestBy send org datasetNode r userId)
  | .deliver token m => do
    return .restored (← restore token m)

/-- A command that was carried out. -/
structure Turn where
  command : Command
  before : Workspace
  outcome : Outcome Answer
  after : Workspace

/-- The turn of a command. -/
def turn (k : Conditions) (command : Command) (w : Workspace) : Turn :=
  let result := carryOut k.send command (w.under k)
  ⟨command, w.under k, result.1, result.2⟩

/-- The turns of a run. -/
def turns : List (Conditions × Command) → Workspace → List Turn
  | [], _ => []
  | (k, command) :: steps, w => turn k command w :: turns steps (turn k command w).after

/-- The workspace after a run. -/
def run : List (Conditions × Command) → Workspace → Workspace
  | [], w => w
  | (k, command) :: steps, w => run steps (turn k command w).after

variable {w : Workspace} {k : Conditions} {command : Command} {steps : List (Conditions × Command)}

/-! ## One turn -/

/-- The turn of a request carries that out. -/
theorem turn_request (k : Conditions) (org : Int) (datasetNode userId : String)
    (r : RestoreRequest) (w : Workspace) :
    turn k (.request org datasetNode r userId) w =
      ⟨.request org datasetNode r userId, w.under k,
        (requestBy k.send org datasetNode r userId (w.under k)).1.map .accepted,
        (requestBy k.send org datasetNode r userId (w.under k)).2⟩ := by
  rw [turn, carryOut, Action.bind_pure_apply]

/-- The turn of a delivery carries that out. -/
theorem turn_deliver (k : Conditions) (token : Int → String) (m : RestoreMessage) (w : Workspace) :
    turn k (.deliver token m) w =
      ⟨.deliver token m, w.under k, (restore token m (w.under k)).1.map .restored,
        (restore token m (w.under k)).2⟩ := by
  rw [turn, carryOut, Action.bind_pure_apply]

/-- What a turn comes to: a request or a delivery that is done, or nothing for the packages. -/
inductive Comes (send : RestoreMessage → Action RestoreQueue Unit) (t : Turn) : Prop
  | request {org : Int} {datasetNode userId : String} {r : RestoreRequest}
      {response : RestoreResponse} : t.command = .request org datasetNode r userId →
      t.outcome = .done (.accepted response) →
      requestBy send org datasetNode r userId t.before = (.done response, t.after) → Comes send t
  | delivery {token : Int → String} {m : RestoreMessage} {events : List Event} :
      t.command = .deliver token m → t.outcome = .done (.restored events) →
      restore token m t.before = (.done events, t.after) → Comes send t
  | stopped : t.outcome.isDone = false → t.after.packages = t.before.packages → Comes send t

/-- Every turn comes to one of these. -/
theorem comes_turn (k : Conditions) (command : Command) (hd : w.packages.tables.Distinct) :
    Comes k.send (turn k command w) := by
  cases command with
  | request org datasetNode r userId =>
    rcases hrun : requestBy k.send org datasetNode r userId (w.under k) with ⟨outcome, w'⟩
    rw [turn_request, hrun]
    cases hdone : outcome.isDone with
    | true =>
      obtain ⟨response, rfl⟩ := Outcome.exists_of_isDone hdone
      exact .request rfl rfl hrun
    | false =>
      have hd' : (w.under k).packages.tables.Distinct := hd
      have hpackages : w'.packages = (w.under k).packages := by
        rw [request_not_done hd' hrun hdone]
      exact .stopped ((Outcome.isDone_map _ _).trans hdone) hpackages
  | deliver token m =>
    rcases hrun : restore token m (w.under k) with ⟨outcome, w'⟩
    rw [turn_deliver, hrun]
    cases hdone : outcome.isDone with
    | true =>
      obtain ⟨events, rfl⟩ := Outcome.exists_of_isDone hdone
      exact .delivery rfl rfl hrun
    | false =>
      have hpackages : w'.packages = (w.under k).packages := by
        have hnot : (restore token m (w.under k)).1.isDone = false := by rwa [hrun]
        have hkept := restore_of_not_done hnot
        rw [hrun] at hkept
        rw [show w' = _ from hkept]
      exact .stopped ((Outcome.isDone_map _ _).trans hdone) hpackages

/-! ## What a turn does to the rows -/

/-- The turn is a request that answers with a node id as a success. -/
def Turn.Accepts (t : Turn) (nodeId : String) : Prop :=
  ∃ org datasetNode r userId response, t.command = .request org datasetNode r userId ∧
    t.outcome = .done (.accepted response) ∧ nodeId ∈ response.success

/-- The turn is a delivery that brings the package with a node id back. -/
def Turn.Restores (t : Turn) (nodeId : String) : Prop :=
  ∃ token m events, t.command = .deliver token m ∧ t.outcome = .done (.restored events) ∧
    nodeId ∈ events.map Event.nodeId

/-- What a turn makes of a row. -/
inductive Advances (t : Turn) (p : Package) : Package → Prop
  | same : ¬ t.Accepts p.nodeId → ¬ t.Restores p.nodeId → Advances t p p
  | marked : t.Accepts p.nodeId → p.state = .deleted → Advances t p (p.moveTo .restoring)
  | restored {q : Package} : t.Restores p.nodeId →
      (p.state = .deleted ∨ p.state = .restoring) → p.Retouched q →
      q.state = .restored p.kind → Advances t p q

/-- A turn changes no more of a row than its name, state and update time. -/
theorem Advances.retouched {t : Turn} {p q : Package} (h : Advances t p q) : p.Retouched q := by
  cases h with
  | same => rfl
  | marked => rfl
  | restored _ _ hretouched => exact hretouched

section Rows

variable {t : Turn} {n : String} {org : Int} {datasetNode userId : String}
  {r : RestoreRequest} {response : RestoreResponse} {token : Int → String} {m : RestoreMessage}
  {events : List Event}
  {send : RestoreMessage → Action RestoreQueue Unit}

/-- A request that is done accepts its successes. -/
theorem Turn.accepts_iff (hcommand : t.command = .request org datasetNode r userId)
    (houtcome : t.outcome = .done (.accepted response)) : t.Accepts n ↔ n ∈ response.success := by
  constructor
  · intro hgiven
    obtain ⟨_, _, _, _, response', -, hdone, hn⟩ := hgiven
    rw [houtcome] at hdone
    cases hdone
    exact hn
  · exact fun hn => ⟨_, _, _, _, _, hcommand, houtcome, hn⟩

/-- A delivery that is done restores the packages of its events. -/
theorem Turn.restores_iff (hcommand : t.command = .deliver token m)
    (houtcome : t.outcome = .done (.restored events)) :
    t.Restores n ↔ n ∈ events.map Event.nodeId := by
  constructor
  · intro hgiven
    obtain ⟨_, _, events', -, hdone, hn⟩ := hgiven
    rw [houtcome] at hdone
    cases hdone
    exact hn
  · exact fun hn => ⟨_, _, _, hcommand, houtcome, hn⟩

/-- A request restores nothing. -/
theorem Turn.not_restores (hcommand : t.command = .request org datasetNode r userId) :
    ¬ t.Restores n := by
  intro hgiven
  obtain ⟨_, _, _, hdelivery, -⟩ := hgiven
  rw [hcommand] at hdelivery
  cases hdelivery

/-- A delivery accepts nothing. -/
theorem Turn.not_accepts (hcommand : t.command = .deliver token m) : ¬ t.Accepts n := by
  intro hgiven
  obtain ⟨_, _, _, _, _, hrequest, -⟩ := hgiven
  rw [hcommand] at hrequest
  cases hrequest

/-- A turn that is not done accepts and restores nothing. -/
theorem Turn.not_of_stopped (h : t.outcome.isDone = false) : ¬ t.Accepts n ∧ ¬ t.Restores n := by
  constructor
  · intro hgiven
    obtain ⟨_, _, _, _, _, -, hdone, -⟩ := hgiven
    rw [hdone] at h
    cases h
  · intro hgiven
    obtain ⟨_, _, _, -, hdone, -⟩ := hgiven
    rw [hdone] at h
    cases h

instance (t : Turn) (n : String) : Decidable (t.Restores n) :=
  match houtcome : t.outcome with
  | .done (.restored events) =>
    match hcommand : t.command with
    | .request .. => isFalse (Turn.not_restores hcommand)
    | .deliver .. =>
      decidable_of_iff (n ∈ events.map Event.nodeId) (Turn.restores_iff hcommand houtcome).symm
  | .done (.accepted _) => isFalse fun ⟨_, _, _, _, hdone, _⟩ => by
    rw [houtcome] at hdone
    cases hdone
  | .failed _ => isFalse (Turn.not_of_stopped (congrArg Outcome.isDone houtcome)).2
  | .aborted => isFalse (Turn.not_of_stopped (congrArg Outcome.isDone houtcome)).2

/-- A request that is done marks the rows that it accepts. -/
theorem advances_of_request (hd : t.before.packages.tables.Distinct)
    (hcommand : t.command = .request org datasetNode r userId)
    (houtcome : t.outcome = .done (.accepted response))
    (hrun : requestBy send org datasetNode r userId t.before = (.done response, t.after)) :
    Forall₂ (Advances t) t.before.packages.tables.packages t.after.packages.tables.packages ∧
      ∀ n, t.Accepts n → ∃ p ∈ t.before.packages.tables.packages, p.nodeId = n := by
  obtain ⟨-, d, us, -, hresponse, -, hstate⟩ := request_done hd hrun
  have haccepts (n : String) : t.Accepts n ↔ n ∈ response.success :=
    Turn.accepts_iff hcommand houtcome
  have hrows := RestoreRequest.evolves_marked hd d.id datasetNode r.nodeIds
  have hfound := RestoreRequest.forall₂_messagesTo t.before.packages.tables org d.id datasetNode
    userId r.nodeIds
  rw [← hresponse] at hrows hfound
  refine ⟨?_, fun n hn => ?_⟩
  · rw [hstate]
    refine hrows.rows.imp fun p q hmarked => ?_
    by_cases hin : p.nodeId ∈ response.success
    · obtain ⟨-, hdeleted, rfl⟩ := hmarked.granted hin
      exact .marked ((haccepts _).2 hin) hdeleted
    · rw [hmarked.other hin]
      exact .same (fun h => hin ((haccepts _).1 h)) (Turn.not_restores hcommand)
  · obtain ⟨_, -, p, hp, -, hnode, -⟩ := exists_of_mem_left hfound ((haccepts n).1 hn)
    exact ⟨p, hp, hnode⟩

/-- A delivery that is done brings back the rows that it restores. -/
theorem advances_of_delivery (hf : t.before.packages.tables.Forest)
    (hcommand : t.command = .deliver token m)
    (houtcome : t.outcome = .done (.restored events))
    (hrun : restore token m t.before = (.done events, t.after)) :
    Forall₂ (Advances t) t.before.packages.tables.packages t.after.packages.tables.packages ∧
      ∀ n, t.Restores n → ∃ p ∈ t.before.packages.tables.packages, p.nodeId = n := by
  obtain ⟨-, tx, content, hflow, hafter⟩ := restore_eq_done.1 hrun
  obtain ⟨-, hrows, hevents⟩ := Restoration.rows_restore hf hflow
  have hrestores (n : String) : t.Restores n ↔ n ∈ (Restoration.takenRows
      t.before.packages.tables t.before.packages.way m).map Package.nodeId := by
    rw [Turn.restores_iff hcommand houtcome, hevents]
    rfl
  refine ⟨?_, fun n hn => ?_⟩
  · rw [hafter, report_eq]
    refine forall₂_imp_of_mem hrows fun p hp q hreturned => ?_
    by_cases hin : p ∈ Restoration.takenRows t.before.packages.tables t.before.packages.way m
    · obtain ⟨hstate, hback, -⟩ := hreturned.back hin
      exact .restored ((hrestores _).2 (List.mem_map_of_mem hin)) hstate hreturned.retouched hback
    · rw [hreturned.other hin]
      refine .same (Turn.not_accepts hcommand) fun h => hin ?_
      obtain ⟨p', hp', hnode⟩ := List.mem_map.1 ((hrestores _).1 h)
      rwa [← hf.eq_of_nodeId (Restoration.mem_of_mem_takenRows hp') hp hnode]
  · obtain ⟨p, hp, hnode⟩ := List.mem_map.1 ((hrestores n).1 hn)
    exact ⟨p, Restoration.mem_of_mem_takenRows hp, hnode⟩

end Rows

/-- Each row advances by a turn, and what is accepted or brought back is a row. -/
theorem advances_turn (k : Conditions) (command : Command) (hf : w.packages.tables.Forest) :
    Forall₂ (Advances (turn k command w)) w.packages.tables.packages
        (turn k command w).after.packages.tables.packages ∧
      ∀ n, (turn k command w).Accepts n ∨ (turn k command w).Restores n →
        ∃ p ∈ w.packages.tables.packages, p.nodeId = n := by
  have hbefore : (turn k command w).before.packages.tables.Forest := hf
  cases comes_turn k command hf.toDistinct with
  | request hcommand houtcome hrun =>
    obtain ⟨hrows, hfound⟩ := advances_of_request hbefore.toDistinct hcommand houtcome hrun
    exact ⟨hrows, fun n hn => hfound n (hn.resolve_right (Turn.not_restores hcommand))⟩
  | delivery hcommand houtcome hrun =>
    obtain ⟨hrows, hfound⟩ := advances_of_delivery hbefore hcommand houtcome hrun
    exact ⟨hrows, fun n hn => hfound n (hn.resolve_left (Turn.not_accepts hcommand))⟩
  | stopped hnot hsame =>
    refine ⟨?_, fun n hn => absurd hn (not_or.2 (Turn.not_of_stopped hnot))⟩
    rw [hsame]
    refine List.forall₂_same.2 fun p _ => ?_
    obtain ⟨haccepts, hrestores⟩ := Turn.not_of_stopped (n := p.nodeId) hnot
    exact .same haccepts hrestores

/-- Packages form a forest after a turn as before. -/
theorem forest_turn (k : Conditions) (command : Command) (hf : w.packages.tables.Forest) :
    (turn k command w).after.packages.tables.Forest :=
  hf.of_rows ((advances_turn k command hf).1.imp fun _ _ => Advances.retouched)

/-! ## Whole runs -/

/-- What every turn keeps, a run keeps; and what is true of each turn that starts from there is true
of all turns of the run. -/
theorem forall_turns (steps : List (Conditions × Command)) {I : Workspace → Prop}
    {P : Turn → Prop}
    (hkept : ∀ k command w, I w → I (turn k command w).after)
    (hturn : ∀ k command w, I w → P (turn k command w)) (h : I w) :
    (∀ t ∈ turns steps w, P t) ∧ I (run steps w) := by
  induction steps generalizing w with
  | nil => exact ⟨by simp [turns], h⟩
  | cons step steps ih =>
    obtain ⟨k, command⟩ := step
    obtain ⟨hrest, hend⟩ := ih (hkept k command w h)
    exact ⟨List.forall_mem_cons.2 ⟨hturn k command w h, hrest⟩, hend⟩

/-- What a turn leaves behind and every turn keeps is found by all later turns. -/
theorem pairwise_turns {I J : Workspace → Prop} {P Q : Turn → Prop}
    (hkept : ∀ k command w, I w → I (turn k command w).after)
    (hkept' : ∀ k command w, I w → J w → J (turn k command w).after)
    (hleft : ∀ k command w, I w → P (turn k command w) → J (turn k command w).after)
    (hfound : ∀ k command w, I w → J w → Q (turn k command w)) (h : I w) :
    (turns steps w).Pairwise fun t t' => P t → Q t' := by
  induction steps generalizing w with
  | nil => exact .nil
  | cons step steps ih =>
    obtain ⟨k, command⟩ := step
    have hafter := hkept k command w h
    refine List.pairwise_cons.2 ⟨fun t' ht' hP => ?_, ih hafter⟩
    have hlater := forall_turns steps (I := fun w => I w ∧ J w) (P := Q)
      (fun k command w hw => ⟨hkept k command w hw.1, hkept' k command w hw.1 hw.2⟩)
      (fun k command w hw => hfound k command w hw.1 hw.2) ⟨hafter, hleft k command w h hP⟩
    exact hlater.1 t' ht'

end Salvage.Workspace
