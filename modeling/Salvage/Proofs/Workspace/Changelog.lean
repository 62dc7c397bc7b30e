import Salvage.Proofs.Workspace.States

/-!
# What the changelog is told

The changelog is told of a restore when that is committed, and nothing depends on its answer. So a
changelog that works has one entry for each delivery that is done, in their order, whatever others do to
the workspace between the commands; and a workspace goes the same way if its changelog is down, or if it
has none. As long as only commands bring packages forward, none of them is reported twice.
-/

namespace Salvage

open List (Forall₂)

namespace Restoration

/-- A restore that is done has events. -/
theorem events_ne_nil {token : Int → String} {m : RestoreMessage} {s s' : Transaction × Content}
    {events : List Event} (h : restore token m s = (.done events, s')) : events ≠ [] := by
  rw [restore] at h
  split at h
  -- the events are put together in the last step, whatever the others did
  · simp only [restoreFolder, Action.bind_eq_done, Action.pure_eq_done] at h
    obtain ⟨_, _, -, _, _, -, _, _, -, _, _, -, _, _, -, _, _, -, _, _, -, _, _, -, rfl, -⟩ := h
    exact List.cons_ne_nil _ _
  · simp only [restoreLeaf, Action.bind_eq_done, Action.pure_eq_done] at h
    obtain ⟨_, _, -, _, _, -, _, _, -, _, _, -, rfl, -⟩ := h
    exact List.cons_ne_nil _ _

end Restoration

namespace Workspace

/-- What happens to a workspace: it carries out a command, or others change its tables and content. -/
inductive Happening where
  | command (k : Conditions) (command : Command)
  | change (f : Tables × Content → Tables × Content)

/-- A workspace whose tables and content others have changed. -/
def changed (w : Workspace) (f : Tables × Content → Tables × Content) : Workspace :=
  { w with
    packages.tables := (f (w.packages.tables, w.content)).1
    content := (f (w.packages.tables, w.content)).2 }

/-- The turns of a history, and the workspace at its end. -/
def history : List Happening → Workspace → List Turn × Workspace
  | [], w => ([], w)
  | .command k command :: later, w =>
    (turn k command w :: (history later (turn k command w).after).1,
      (history later (turn k command w).after).2)
  | .change f :: later, w => history later (w.changed f)

/-- The history of a run, in which nobody else changes anything. -/
def runHistory (steps : List (Conditions × Command)) : List Happening :=
  steps.map fun s => .command s.1 s.2

/-- What the changelog has to be told of a turn. -/
def Turn.sent? (t : Turn) : Option ChangelogEntry :=
  match t.command, t.outcome with
  | .deliver _ m, .done (.restored events) => some ⟨m.org, m.datasetId, m.userId, events⟩
  | _, _ => none

variable {w v : Workspace} {c : Changelog} {k : Conditions} {command : Command}
  {steps : List (Conditions × Command)} {happenings others : List Happening} {t t' : Turn}
  {token : Int → String} {m : RestoreMessage} {events : List Event}

/-! ## What is sent -/

/-- A changelog has one entry more when it was told of a restore, unless it is down. -/
theorem log_snd (e : ChangelogEntry) (c : Changelog) :
    (Changelog.log e c).2 = if c.isDown then c else { c with entries := c.entries ++ [e] } := by
  rw [Changelog.log, Action.get_bind_apply]
  split <;> rfl

/-- A delivery that is done tells the changelog. -/
theorem changelog_restore {w' : Workspace} (h : restore token m w = (.done events, w')) :
    w'.changelog = w.changelog.map fun c =>
      (Changelog.log ⟨m.org, m.datasetId, m.userId, events⟩ c).2 := by
  obtain ⟨-, tx, content, hflow, rfl⟩ := restore_eq_done.1 h
  have hsome : events.isEmpty = false :=
    List.isEmpty_eq_false_iff.2 (Restoration.events_ne_nil hflow)
  rw [report, hsome]
  rfl

/-- The changelog has to be told of deliveries that are done. -/
theorem Turn.sent?_eq_some_iff {e : ChangelogEntry} : t.sent? = some e ↔
    ∃ token m events, t.command = .deliver token m ∧ t.outcome = .done (.restored events) ∧
      e = ⟨m.org, m.datasetId, m.userId, events⟩ := by
  rw [sent?]
  constructor
  · intro h
    split at h
    · rename_i token m events hcommand houtcome
      exact ⟨token, m, events, hcommand, houtcome, (Option.some.inj h).symm⟩
    · cases h
  · intro hgiven
    obtain ⟨token, m, events, hcommand, houtcome, rfl⟩ := hgiven
    simp only [hcommand, houtcome]

/-- Nothing is sent for a turn that is not done. -/
theorem Turn.sent?_of_stopped (h : t.outcome.isDone = false) : t.sent? = none := by
  refine Option.eq_none_iff_forall_ne_some.2 fun e he => ?_
  obtain ⟨_, _, _, -, houtcome, -⟩ := Turn.sent?_eq_some_iff.1 he
  rw [houtcome] at h
  cases h

/-- By a turn a changelog that works gets the entry for it, if there is one. -/
theorem changelog_turn (command : Command) (hc : w.changelog = some c)
    (hworks : k.changelogIsDown = false) :
    (turn k command w).after.changelog =
      some ⟨c.entries ++ (turn k command w).sent?.toList, false⟩ := by
  have hbefore : (w.under k).changelog = some ⟨c.entries, false⟩ := by
    rw [under, hc, hworks]
    rfl
  have hsame : some (Changelog.mk c.entries false) = some ⟨c.entries ++ none.toList, false⟩ := by
    rw [Option.toList_none, List.append_nil]
  cases command with
  | request org datasetNode r userId =>
    have hkept : (requestBy k.send org datasetNode r userId (w.under k)).2.changelog =
        (w.under k).changelog := rfl
    rw [turn_request, hkept, hbefore]
    exact hsame
  | deliver token m =>
    rw [turn_deliver]
    cases hdone : (restore token m (w.under k)).1.isDone with
    | true =>
      obtain ⟨events, hrun⟩ := restore_of_isDone token m (w.under k) hdone
      rw [changelog_restore hrun, hbefore, Option.map_some, log_snd]
      obtain ⟨houtcome, -⟩ := Prod.ext_iff.1 hrun
      rw [houtcome]
      rfl
    | false =>
      rw [Turn.sent?_of_stopped ((Outcome.isDone_map _ _).trans hdone), restore_of_not_done hdone,
        hbefore]
      exact hsame

/-- In a history a changelog that works gets one entry for each delivery that is done. -/
theorem changelog_history (hc : w.changelog = some c)
    (hworks : ∀ k command, Happening.command k command ∈ happenings → k.changelogIsDown = false) :
    ∃ c', (history happenings w).2.changelog = some c' ∧
      c'.entries = c.entries ++ (history happenings w).1.filterMap Turn.sent? := by
  induction happenings generalizing w c with
  | nil => exact ⟨c, hc, (List.append_nil _).symm⟩
  | cons h later ih =>
    have hlater : ∀ k command, Happening.command k command ∈ later → k.changelogIsDown = false :=
      fun k command hmem => hworks k command (List.mem_cons_of_mem _ hmem)
    cases h with
    | command k command =>
      have hturn := changelog_turn command hc (hworks k command List.mem_cons_self)
      obtain ⟨c', hend, hentries⟩ := ih hturn hlater
      refine ⟨c', hend, hentries.trans ?_⟩
      rw [history, List.append_assoc]
      cases hsent : (turn k command w).sent? with
      | none => rw [List.filterMap_cons_none hsent]; rfl
      | some e => rw [List.filterMap_cons_some hsent]; rfl
    | change f =>
      have hchanged : (w.changed f).changelog = some c := hc
      exact ih hchanged hlater

/-- A history in which only commands are carried out is a run. -/
theorem history_runHistory (steps : List (Conditions × Command)) (w : Workspace) :
    history (runHistory steps) w = (turns steps w, run steps w) := by
  induction steps generalizing w with
  | nil => rfl
  | cons step steps ih =>
    rw [runHistory, List.map_cons, history, ← runHistory, ih]
    rfl

/-! ## Nothing twice -/

/-- A turn restores the packages in its entry. -/
theorem Turn.restores_iff_sent {n : String} :
    t.Restores n ↔ ∃ e, t.sent? = some e ∧ n ∈ e.events.map Event.nodeId := by
  constructor
  · intro hgiven
    obtain ⟨token, m, events, hcommand, houtcome, hn⟩ := hgiven
    exact ⟨_, Turn.sent?_eq_some_iff.2 ⟨token, m, events, hcommand, houtcome, rfl⟩, hn⟩
  · intro hgiven
    obtain ⟨_, hsent, hn⟩ := hgiven
    obtain ⟨token, m, events, hcommand, houtcome, rfl⟩ := Turn.sent?_eq_some_iff.1 hsent
    exact ⟨token, m, events, hcommand, houtcome, hn⟩

/-- The events of an entry are about different packages, all of them rows. -/
structure About (rows : List Package) (e : ChangelogEntry) : Prop where
  once : (e.events.map Event.nodeId).Nodup
  known : ∀ a ∈ e.events, ∃ p ∈ rows, p.id = a.id ∧ p.nodeId = a.nodeId

/-- The events of a delivery that is done are about different packages that there were before. -/
theorem about_restore {w' : Workspace} (hf : w.packages.tables.Forest)
    (h : restore token m w = (.done events, w')) :
    About w.packages.tables.packages ⟨m.org, m.datasetId, m.userId, events⟩ := by
  obtain ⟨-, tx, content, hflow, -⟩ := restore_eq_done.1 h
  have hsubjects : events.map (fun a => (a.id, a.nodeId)) =
      (Restoration.takenRows w.packages.tables w.packages.way m).map fun p => (p.id, p.nodeId) :=
    Restoration.subjects_restore hf.keyed hflow
  refine ⟨?_, fun a ha => ?_⟩
  · obtain ⟨-, -, hnodes⟩ := Restoration.rows_restore hf hflow
    have hdistinct : ((Restoration.takenRows w.packages.tables w.packages.way m).map
        Package.nodeId).Nodup :=
      (Restoration.nodup_takenRows hf _ m).map_on fun p hp q hq => hf.eq_of_nodeId
        (Restoration.mem_of_mem_takenRows hp) (Restoration.mem_of_mem_takenRows hq)
    exact hnodes ▸ hdistinct
  · have hmem : (a.id, a.nodeId) ∈ events.map fun a => (a.id, a.nodeId) := List.mem_map_of_mem ha
    rw [hsubjects] at hmem
    obtain ⟨p, hp, hsame⟩ := List.mem_map.1 hmem
    exact ⟨p, Restoration.mem_of_mem_takenRows hp, Prod.ext_iff.1 hsame⟩

/-- The entry for a turn is about packages that there were before. -/
theorem about_turn (k : Conditions) (command : Command) (hf : w.packages.tables.Forest)
    {e : ChangelogEntry} (he : (turn k command w).sent? = some e) :
    About w.packages.tables.packages e := by
  obtain ⟨token, m, events, hcommand, houtcome, rfl⟩ := Turn.sent?_eq_some_iff.1 he
  obtain rfl : command = .deliver token m := hcommand
  rw [turn_deliver] at houtcome
  have hvalue : (restore token m (w.under k)).1.map Answer.restored = .done (.restored events) :=
    houtcome
  have hdone : (restore token m (w.under k)).1.isDone := by
    rw [← Outcome.isDone_map Answer.restored, hvalue]
    rfl
  obtain ⟨events', hrun⟩ := restore_of_isDone token m (w.under k) hdone
  rw [hrun] at hvalue
  cases hvalue
  have hforest : (w.under k).packages.tables.Forest := hf
  have habout := about_restore hforest hrun
  exact habout

/-- Packages stay known when names and states change. -/
theorem About.of_rows {rows rows' : List Package} {e : ChangelogEntry} (h : About rows' e)
    (hrows : Forall₂ Package.Retouched rows rows') : About rows e := by
  refine ⟨h.once, fun a ha => ?_⟩
  obtain ⟨q, hq, hid, hnode⟩ := h.known a ha
  obtain ⟨p, hp, hpq⟩ := exists_of_mem_right hrows hq
  exact ⟨p, hp, hpq.id_eq.symm.trans hid, hpq.nodeId_eq.symm.trans hnode⟩

/-- In a run the entries are about packages that there were at first, and no two entries are about the
same package. -/
theorem about_turns (steps : List (Conditions × Command)) (hf : w.packages.tables.Forest) :
    (∀ e ∈ (turns steps w).filterMap Turn.sent?, About w.packages.tables.packages e) ∧
      ((turns steps w).filterMap Turn.sent?).Pairwise fun e e' =>
        List.Disjoint (e.events.map Event.nodeId) (e'.events.map Event.nodeId) := by
  have hforest := fun k command w => forest_turn (w := w) k command
  constructor
  · have hall := (forall_turns steps
      (I := fun v => v.packages.tables.Forest ∧
        Forall₂ Package.Retouched w.packages.tables.packages v.packages.tables.packages)
      (P := fun t => ∀ e, t.sent? = some e → About w.packages.tables.packages e)
      (fun k command v hv => ⟨hforest k command v hv.1, ?_⟩)
      (fun k command v hv e he => (about_turn k command hv.1 he).of_rows hv.2)
      ⟨hf, List.forall₂_same.2 fun _ _ => rfl⟩).1
    · intro e he
      obtain ⟨t, ht, hsent⟩ := List.mem_filterMap.1 he
      exact hall t ht e hsent
    · have hstep := (advances_turn k command hv.1).1
      refine (forall₂_comp hv.2 hstep).imp fun p r hgiven => ?_
      obtain ⟨q, hpq, hqr⟩ := hgiven
      exact hqr.retouched.trans hpq
  · have honce (n : String) : (turns steps w).Pairwise fun t t' =>
        t.Restores n → ¬ t'.Restores n :=
      pairwise_turns hforest (fun k command w => reached_turn k command)
        (fun k command w => reached_of_restores k command)
        (fun k command w => not_restores_of_reached k command) hf
    rw [List.pairwise_filterMap, List.pairwise_iff_getElem]
    intro i j hi hj hij e he e' he' n hn hn'
    exact List.pairwise_iff_getElem.1 (honce n) i j hi hj hij
      (Turn.restores_iff_sent.2 ⟨e, he, hn⟩) (Turn.restores_iff_sent.2 ⟨e', he', hn'⟩)

/-- In a run no package is reported twice. -/
theorem nodup_reported (steps : List (Conditions × Command)) (hf : w.packages.tables.Forest) :
    (((turns steps w).filterMap Turn.sent?).flatMap fun e => e.events.map Event.id).Nodup := by
  obtain ⟨habout, hapart⟩ := about_turns steps hf
  have hnodes : (((turns steps w).filterMap Turn.sent?).flatMap fun e =>
      e.events.map Event.nodeId).Nodup :=
    List.nodup_flatMap.2 ⟨fun e he => (habout e he).once, hapart⟩
  rw [← List.map_flatMap, List.Nodup, List.pairwise_map] at hnodes ⊢
  refine hnodes.imp_of_mem fun {a b} ha hb hne hid => hne ?_
  -- the numbers and the node ids of events are those of rows, so they go together
  obtain ⟨e, he, ha⟩ := List.mem_flatMap.1 ha
  obtain ⟨e', he', hb⟩ := List.mem_flatMap.1 hb
  obtain ⟨p, hp, hpid, hpnode⟩ := (habout e he).known a ha
  obtain ⟨q, hq, hqid, hqnode⟩ := (habout e' he').known b hb
  rw [← hpnode, ← hqnode, hf.keyed.eq_of_id hp hq (hpid.trans (hid.trans hqid.symm))]

/-! ## What the changelog does not matter to -/

/-- Two workspaces are the same, except for their changelogs. -/
structure Agrees (w v : Workspace) : Prop where
  packages : v.packages = w.packages
  content : v.content = w.content
  queue : v.queue = w.queue

/-- Two turns are the same, except for the changelogs. -/
structure Turn.Agrees (t t' : Turn) : Prop where
  command : t'.command = t.command
  before : Workspace.Agrees t.before t'.before
  outcome : t'.outcome = t.outcome
  after : Workspace.Agrees t.after t'.after

/-- The same happens, but the changelog may be down at other times. -/
inductive Happening.Agrees : Happening → Happening → Prop
  | command (k : Conditions) (command : Command) (isDown : Bool) :
    Agrees (.command k command) (.command { k with changelogIsDown := isDown } command)
  | change (f : Tables × Content → Tables × Content) : Agrees (.change f) (.change f)

/-- Deliveries do not depend on the changelog. -/
theorem Agrees.restore (h : Agrees w v) (token : Int → String) (m : RestoreMessage) :
    (restore token m v).1 = (restore token m w).1 ∧
      Agrees (restore token m w).2 (restore token m v).2 := by
  rw [restore_apply, restore_apply, h.packages, h.content]
  rcases PackageStore.transact m.org .sound (Restoration.restore token m)
    (w.packages, w.content) with ⟨_ | _ | _, s, content⟩
  · refine ⟨rfl, ?_⟩
    dsimp only
    rw [report_eq m _ { w with packages := s, content := content },
      report_eq m _ { v with packages := s, content := content }]
    exact ⟨rfl, rfl, h.queue⟩
  · exact ⟨rfl, rfl, rfl, h.queue⟩
  · exact ⟨rfl, rfl, rfl, h.queue⟩

/-- Requests do not depend on the changelog. -/
theorem Agrees.requestBy (h : Agrees w v) (send : RestoreMessage → Action RestoreQueue Unit)
    (org : Int) (datasetNode : String) (r : RestoreRequest) (userId : String) :
    (requestBy send org datasetNode r userId v).1 = (requestBy send org datasetNode r userId w).1 ∧
      Agrees (requestBy send org datasetNode r userId w).2
        (requestBy send org datasetNode r userId v).2 := by
  simp only [Workspace.requestBy, Action.on, h.packages, h.queue]
  exact ⟨trivial, rfl, h.content, rfl⟩

/-- The conditions of a turn change both workspaces in the same way. -/
theorem Agrees.under (h : Agrees w v) (k : Conditions) (isDown : Bool) :
    Agrees (w.under k) (v.under { k with changelogIsDown := isDown }) := by
  refine ⟨h.packages, ?_, h.queue⟩
  simp only [Workspace.under, withFaults, h.content]

/-- Turns do not depend on the changelog. -/
theorem Agrees.turn (h : Agrees w v) (k : Conditions) (command : Command) (isDown : Bool) :
    Turn.Agrees (turn k command w) (turn { k with changelogIsDown := isDown } command v) := by
  have hunder := h.under k isDown
  cases command with
  | request org datasetNode r userId =>
    obtain ⟨houtcome, hafter⟩ := hunder.requestBy k.send org datasetNode r userId
    rw [turn_request, turn_request]
    exact ⟨rfl, hunder, congrArg (Outcome.map Answer.accepted) houtcome, hafter⟩
  | deliver token m =>
    obtain ⟨houtcome, hafter⟩ := hunder.restore token m
    rw [turn_deliver, turn_deliver]
    exact ⟨rfl, hunder, congrArg (Outcome.map Answer.restored) houtcome, hafter⟩

/-- Histories do not depend on the changelog. -/
theorem Agrees.history (h : Agrees w v) (hsame : Forall₂ Happening.Agrees happenings others) :
    Forall₂ Turn.Agrees (history happenings w).1 (history others v).1 ∧
      Agrees (history happenings w).2 (history others v).2 := by
  induction hsame generalizing w v with
  | nil => exact ⟨.nil, h⟩
  | cons hfirst _ ih =>
    cases hfirst with
    | command k command isDown =>
      have hturn := h.turn k command isDown
      obtain ⟨hturns, hend⟩ := ih hturn.after
      exact ⟨.cons hturn hturns, hend⟩
    | change f =>
      refine ih ⟨?_, ?_, h.queue⟩ <;> simp only [changed, h.packages, h.content]

/-! ## The changelog tells the truth -/

/-- In every history a changelog that works is told of each delivery that is done, in this order, and
of nothing else; in a run no package is reported twice. The turns and all other stores are the same
whether the changelog works, is down at times, or is missing. -/
theorem changelog_reports_restores (hf : w.packages.tables.Forest) (hc : w.changelog = some c)
    (hworks : ∀ k command, Happening.command k command ∈ happenings → k.changelogIsDown = false) :
    (∃ c', (history happenings w).2.changelog = some c' ∧
      c'.entries = c.entries ++ (history happenings w).1.filterMap Turn.sent?) ∧
    (∀ steps, happenings = runHistory steps →
      (((history happenings w).1.filterMap Turn.sent?).flatMap fun e =>
        e.events.map Event.id).Nodup) ∧
    ∀ others v, Forall₂ Happening.Agrees happenings others → Agrees w v →
      Forall₂ Turn.Agrees (history happenings w).1 (history others v).1 ∧
        Agrees (history happenings w).2 (history others v).2 := by
  refine ⟨changelog_history hc hworks, fun steps hrun => ?_, fun others v hsame hagrees =>
    hagrees.history hsame⟩
  rw [hrun, history_runHistory]
  exact nodup_reported steps hf

/-- In the small workspace the folder is reported once, though its message comes twice; and without a
changelog the packages are the same in the end. -/
theorem changelog_reports_restores_sample :
    (∃ c, (history (runHistory sampleSteps) sample).2.changelog = some c ∧
      (c.entries.map fun e => (e.userId, e.events.map Event.id)) = [("user", [2, 3, 5, 6])] ∧
      (c.entries.flatMap fun e => e.events.map Event.id).Nodup) ∧
    (history (runHistory sampleSteps) { sample with changelog := none }).2.packages =
      (history (runHistory sampleSteps) sample).2.packages := by
  have hworks : ∀ k command, Happening.command k command ∈ runHistory sampleSteps →
      k.changelogIsDown = false := by
    intro k command hmem
    obtain ⟨step, hstep, ⟨⟩⟩ := List.mem_map.1 hmem
    simp only [sampleSteps, List.mem_cons, List.not_mem_nil, or_false] at hstep
    rcases hstep with rfl | rfl | rfl <;> rfl
  obtain ⟨⟨c, hend, hentries⟩, honce, hsame⟩ :=
    changelog_reports_restores (w := sample) forest_sampleTables rfl hworks
  have hsent := hentries.trans (List.nil_append _)
  refine ⟨⟨c, hend, ?_, ?_⟩, ?_⟩
  · rw [hsent]
    decide +kernel
  · rw [hsent]
    exact honce sampleSteps rfl
  · have hagrees : Agrees sample { sample with changelog := none } := ⟨rfl, rfl, rfl⟩
    have hhappenings : Forall₂ Happening.Agrees (runHistory sampleSteps)
        (runHistory sampleSteps) :=
      List.forall₂_same.2 fun s _ => by
        cases s with
        | command k command => exact .command k command k.changelogIsDown
        | change f => exact .change f
    exact (hsame _ _ hhappenings hagrees).2.packages

end Workspace

end Salvage
