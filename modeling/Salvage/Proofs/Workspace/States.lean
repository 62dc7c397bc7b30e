import Salvage.Proofs.Workspace.Run

/-!
# States only move forward

On its way back a package goes through three stages: it is trashed, it is marked, and then it is
neither. No turn takes a package back to an earlier stage. A request accepts packages of the first
stage only and leaves them in the second; a delivery restores packages of the first two and leaves
them in the third. So in a whole run a package is accepted once and restored once at most, and once
it is restored no message for it is of any use.
-/

namespace Salvage

open List (Forall₂)

/-- How far a package has come on its way back. -/
def Package.State.stage : Package.State → Nat
  | .deleted => 0
  | .restoring => 1
  | _ => 2

/-- A restored package has come all the way. -/
theorem Package.State.stage_restored (k : Package.Kind) : (restored k).stage = 2 := by
  rw [restored]
  split <;> rfl

namespace Workspace

/-- The package with a node id, if there is one, has come as far as a stage. -/
def Reached (nodeId : String) (stage : Nat) (w : Workspace) : Prop :=
  ∀ p ∈ w.packages.tables.packages, p.nodeId = nodeId → stage ≤ p.state.stage

variable {w : Workspace} {k : Conditions} {command : Command} {steps : List (Conditions × Command)}
  {t : Turn} {p q : Package} {n : String} {stage : Nat} {token : Int → String} {m : RestoreMessage}

/-! ## One row -/

/-- A turn takes no package back. -/
theorem Advances.stage_le (h : Advances t p q) : p.state.stage ≤ q.state.stage := by
  cases h with
  | same => exact Nat.le_refl _
  | marked _ hdeleted =>
    rw [hdeleted]
    exact Nat.zero_le _
  | restored _ hstate _ hback =>
    rw [hback, Package.State.stage_restored]
    rcases hstate with hdeleted | hmarked
    · rw [hdeleted]
      exact Nat.zero_le _
    · rw [hmarked]
      exact Nat.le_succ 1

/-- A package that is accepted was trashed, and is marked then. -/
theorem Advances.of_accepts (h : Advances t p q) (haccepts : t.Accepts p.nodeId) :
    p.state.stage = 0 ∧ q.state.stage = 1 := by
  cases h with
  | same hnot => exact absurd haccepts hnot
  | marked _ hdeleted =>
    rw [hdeleted]
    exact ⟨rfl, rfl⟩
  | restored hrestores =>
    obtain ⟨_, _, _, _, _, hcommand, -⟩ := haccepts
    exact absurd hrestores (Turn.not_restores hcommand)

/-- A package that is restored was trashed or marked, and has come all the way then. -/
theorem Advances.of_restores (h : Advances t p q) (hrestores : t.Restores p.nodeId) :
    p.state.stage < 2 ∧ q.state.stage = 2 := by
  cases h with
  | same _ hnot => exact absurd hrestores hnot
  | marked haccepts =>
    obtain ⟨_, _, _, _, _, hcommand, -⟩ := haccepts
    exact absurd hrestores (Turn.not_restores hcommand)
  | restored _ hstate _ hback =>
    rw [hback, Package.State.stage_restored]
    refine ⟨?_, rfl⟩
    rcases hstate with hdeleted | hmarked
    · rw [hdeleted]
      exact Nat.zero_lt_two
    · rw [hmarked]
      exact Nat.one_lt_two

/-- A delivery marks no package. -/
theorem Advances.restoring_of_delivery (h : Advances t p q)
    (hcommand : t.command = .deliver token m) (hmarked : q.state = .restoring) :
    p.state = .restoring := by
  cases h with
  | same => exact hmarked
  | marked haccepts => exact absurd haccepts (Turn.not_accepts hcommand)
  | restored _ _ _ hback =>
    have hstage := Package.State.stage_restored p.kind
    rw [← hback, hmarked] at hstage
    cases hstage

/-! ## One turn -/

/-- How far a package has come after a turn can be told from how its row advances. -/
theorem reached_after (hf : w.packages.tables.Forest)
    (h : ∀ p ∈ w.packages.tables.packages, ∀ q, Advances (turn k command w) p q → p.nodeId = n →
      stage ≤ q.state.stage) : Reached n stage (turn k command w).after := by
  intro q hq hnode
  obtain ⟨p, hp, hadvances⟩ := exists_of_mem_right (advances_turn k command hf).1 hq
  exact h p hp q hadvances (hadvances.retouched.nodeId_eq.symm.trans hnode)

/-- Packages stay as far as they have come. -/
theorem reached_turn (k : Conditions) (command : Command) (hf : w.packages.tables.Forest)
    (h : Reached n stage w) : Reached n stage (turn k command w).after :=
  reached_after hf fun p hp _ hadvances hnode => (h p hp hnode).trans hadvances.stage_le

/-- What a turn does to a package that it accepts or restores. -/
theorem exists_advances (hf : w.packages.tables.Forest)
    (h : (turn k command w).Accepts n ∨ (turn k command w).Restores n) :
    ∃ p ∈ w.packages.tables.packages, p.nodeId = n ∧ ∃ q, Advances (turn k command w) p q := by
  obtain ⟨hrows, hfound⟩ := advances_turn k command hf
  obtain ⟨p, hp, hnode⟩ := hfound n h
  obtain ⟨q, -, hadvances⟩ := exists_of_mem_left hrows hp
  exact ⟨p, hp, hnode, q, hadvances⟩

/-- A package that was accepted is marked after the turn. -/
theorem reached_of_accepts (k : Conditions) (command : Command) (hf : w.packages.tables.Forest)
    (h : (turn k command w).Accepts n) : Reached n 1 (turn k command w).after :=
  reached_after hf fun _ _ _ hadvances hnode => (hadvances.of_accepts (hnode ▸ h)).2.ge

/-- A package that is marked, or further on its way, is not accepted. -/
theorem not_accepts_of_reached (k : Conditions) (command : Command)
    (hf : w.packages.tables.Forest) (h : Reached n 1 w) : ¬ (turn k command w).Accepts n := by
  intro haccepts
  obtain ⟨p, hp, rfl, q, hadvances⟩ := exists_advances hf (.inl haccepts)
  have hreached := h p hp rfl
  rw [(hadvances.of_accepts haccepts).1] at hreached
  exact Nat.not_succ_le_zero 0 hreached

/-- A package that was restored has come all the way after the turn. -/
theorem reached_of_restores (k : Conditions) (command : Command) (hf : w.packages.tables.Forest)
    (h : (turn k command w).Restores n) : Reached n 2 (turn k command w).after :=
  reached_after hf fun _ _ _ hadvances hnode => (hadvances.of_restores (hnode ▸ h)).2.ge

/-- A package that has come all the way is not restored. -/
theorem not_restores_of_reached (k : Conditions) (command : Command)
    (hf : w.packages.tables.Forest) (h : Reached n 2 w) : ¬ (turn k command w).Restores n := by
  intro hrestores
  obtain ⟨p, hp, rfl, q, hadvances⟩ := exists_advances hf (.inr hrestores)
  exact absurd (h p hp rfl) (Nat.not_le.2 (hadvances.of_restores hrestores).1)

/-- The turn is not a delivery of a message for a package, or it does nothing: it fails, unless the
message is for another organization and so it is not even begun. -/
def Turn.Refuses (t : Turn) (nodeId : String) : Prop :=
  ∀ token m, t.command = .deliver token m → m.package.nodeId = nodeId → t.after = t.before ∧
    ((∃ e, t.outcome = .failed e) ∨ t.outcome = .aborted ∧ m.org ≠ t.before.packages.org)

/-- Messages for a package that has come all the way are refused. -/
theorem refuses_of_reached (k : Conditions) (command : Command) (h : Reached n 2 w) :
    (turn k command w).Refuses n := by
  intro token m hcommand hnode
  obtain rfl : command = .deliver token m := hcommand
  have hnone : Restoration.claimed? w.packages.tables m = none := by
    cases hclaimed : Restoration.claimed? w.packages.tables m with
    | none => rfl
    | some p =>
      obtain ⟨hp, -, hown, hstate⟩ := Restoration.of_claimed? hclaimed
      have hreached := h p hp (hown.trans hnode)
      rw [hstate] at hreached
      exact absurd hreached (by decide)
  by_cases horg : m.org = w.packages.org
  · obtain ⟨e, hrun⟩ := restore_of_not_claimed (w := w.under k) horg hnone
    have hresult : carryOut k.send (.deliver token m) (w.under k) = (.failed e, w.under k) :=
      Action.bind_of_failed hrun
    rw [turn, hresult]
    exact ⟨rfl, .inl ⟨e, rfl⟩⟩
  · have hresult : carryOut k.send (.deliver token m) (w.under k) = (.aborted, w.under k) :=
      Action.bind_of_aborted (restore_of_other_org horg)
    rw [turn, hresult]
    exact ⟨rfl, .inr ⟨rfl, horg⟩⟩

/-! ## Whole runs -/

/-- In every run each turn changes states by marking trashed packages, which only requests do, and by
restoring trashed or marked ones, which only deliveries do. So a package is accepted by one request
at most and restored by one delivery at most, and all messages for it after that are refused. -/
theorem states_move_forward (steps : List (Conditions × Command))
    (hf : w.packages.tables.Forest) :
    (∀ t ∈ turns steps w,
      Forall₂ (Advances t) t.before.packages.tables.packages t.after.packages.tables.packages ∧
        ∀ token m, t.command = .deliver token m →
          Forall₂ (fun p q => q.state = .restoring → p.state = .restoring)
            t.before.packages.tables.packages t.after.packages.tables.packages) ∧
    ∀ n, (turns steps w).Pairwise fun t t' =>
      (t.Accepts n → ¬ t'.Accepts n) ∧ (t.Restores n → ¬ t'.Restores n ∧ t'.Refuses n) := by
  have hforest := fun k command w => forest_turn (w := w) k command
  refine ⟨(forall_turns steps hforest (fun k command w hf => ?_) hf).1, fun n => ?_⟩
  · obtain ⟨hrows, -⟩ := advances_turn k command hf
    exact ⟨hrows, fun token m hcommand => hrows.imp fun _ _ hadvances =>
      hadvances.restoring_of_delivery hcommand⟩
  · refine List.pairwise_and_iff.2 ⟨?_, ?_⟩
    · exact pairwise_turns hforest (fun k command w => reached_turn k command)
        (fun k command w => reached_of_accepts k command)
        (fun k command w => not_accepts_of_reached k command) hf
    · exact pairwise_turns hforest (fun k command w => reached_turn k command)
        (fun k command w => reached_of_restores k command)
        (fun k command w hf hreached =>
          ⟨not_restores_of_reached k command hf hreached, refuses_of_reached k command hreached⟩) hf

/-- A request for a trashed file, and the message for a folder above it, which comes twice. -/
def sampleSteps : List (Conditions × Command) :=
  [(.calm, .request 1 "N:dataset:1" ⟨["a"]⟩ "user"),
    (.calm, .deliver sampleToken sampleMessage), (.calm, .deliver sampleToken sampleMessage)]

/-- In the small workspace the second message is refused, since the first one restored the folder. -/
theorem states_move_forward_sample :
    ∃ t₁ t₂ t₃, turns sampleSteps sample = [t₁, t₂, t₃] ∧ t₂.Restores "f" ∧
      ¬ t₃.Restores "f" ∧ t₃.Refuses "f" := by
  refine ⟨_, _, _, rfl, ?_⟩
  obtain ⟨-, hpairs⟩ := states_move_forward (w := sample) sampleSteps forest_sampleTables
  obtain ⟨-, hrest⟩ := List.pairwise_cons.1 (hpairs "f")
  obtain ⟨-, honce⟩ := (List.pairwise_cons.1 hrest).1 _ (List.mem_singleton_self _)
  have hfirst : (turns sampleSteps sample)[1].Restores "f" := by decide +kernel
  exact ⟨hfirst, honce hfirst⟩

end Workspace

end Salvage
