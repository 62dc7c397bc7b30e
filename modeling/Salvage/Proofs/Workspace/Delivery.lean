import Salvage.Proofs.Restoration
import Salvage.Workspace

/-!
# Deliveries of a message

A delivery works on a copy of the committed tables. Only one that is done puts the copy in their
place and tells the changelog, whose answer changes nothing any more; after every other one nothing
has changed but the content, which has no transactions. Of that, no delete record is gone whose
marker still hides anything.
-/

namespace Salvage

namespace PackageStore

variable {σ α : Type} {org : Int} {flow : Action (Transaction × σ) α} {s s' : PackageStore}
  {others others' : σ}

/-- A flow of the store's organization ends as it does, and only one that is done is committed. -/
theorem transact_of_flow {o : Outcome α} {tx : Transaction} (horg : s.org = org)
    (h : flow (s.begin, others) = (o, (tx, others'))) :
    transact org .sound flow (s, others) =
      (o, (if o.isDone then s.commit tx else s, others')) := by
  rw [transact, if_neg (not_not.2 horg), h]
  cases o <;> rfl

/-- A flow that is done had the organization of the store, and its working tables are committed. -/
theorem transact_eq_done {a : α} :
    transact org .sound flow (s, others) = (.done a, (s', others')) ↔
      s.org = org ∧ ∃ tx, flow (s.begin, others) = (.done a, (tx, others')) ∧ s' = s.commit tx := by
  rw [transact]
  split
  · rename_i hne
    simp [hne]
  · rename_i heq
    rw [not_not] at heq
    rcases flow (s.begin, others) with ⟨_ | _ | _, tx, others₁⟩
    · simp only [settle, heq, true_and]
      constructor
      · intro hgiven
        cases hgiven
        exact ⟨tx, rfl, rfl⟩
      · intro hgiven
        obtain ⟨_, ⟨⟩, rfl⟩ := hgiven
        rfl
    · simp [settle]
    · simp [settle]

/-- A flow that is not done commits nothing. -/
theorem transact_of_not_done
    (h : (transact org .sound flow (s, others)).1.isDone = false) :
    (transact org .sound flow (s, others)).2.1 = s := by
  rw [transact] at h ⊢
  split
  · rfl
  · rename_i heq
    rw [if_neg heq] at h
    rcases hflow : flow (s.begin, others) with ⟨_ | _ | _, tx, others₁⟩
    · simp [hflow, settle, Outcome.isDone] at h
    · rfl
    · rfl

/-- Where a flow that is done leads the tables, there a transaction leads them however it ends. -/
theorem within_transact {R : Tables → Tables → Prop} [IsPreorder Tables R] (org : Int)
    (hflow : Action.WhenDone (Order.Preimage (fun s : Transaction × σ => s.1.working) R) flow) :
    Action.Within (Order.Preimage (fun s : PackageStore × σ => s.1.tables) R)
      (transact org .sound flow) := by
  intro s
  obtain ⟨s, others⟩ := s
  rcases hrun : transact org .sound flow (s, others) with ⟨o, s', others'⟩
  cases hdone : o.isDone with
  | true =>
    obtain ⟨a, rfl⟩ := Outcome.exists_of_isDone hdone
    obtain ⟨-, tx, hflowDone, rfl⟩ := transact_eq_done.1 hrun
    exact hflow hflowDone
  | false =>
    have hkept : (transact org .sound flow (s, others)).2.1 = s :=
      transact_of_not_done (by rwa [hrun])
    rw [hrun] at hkept
    rw [show s' = s from hkept]
    exact Std.Refl.refl (r := R) s.tables

end PackageStore

namespace Workspace

variable {token : Int → String} {m : RestoreMessage} {w w' : Workspace} {events : List Event}

/-- Reporting tells the changelog only. -/
theorem report_eq (m : RestoreMessage) (events : List Event) (w : Workspace) :
    report m events w = { w with changelog := (report m events w).changelog } := by
  rw [report]
  split <;> rfl

/-- A delivery is a transaction, and a report if that is done. -/
theorem restore_apply (token : Int → String) (m : RestoreMessage) (w : Workspace) :
    restore token m w =
      match PackageStore.transact m.org .sound (Restoration.restore token m)
        (w.packages, w.content) with
      | (.done events, s, content) =>
        (.done events, report m events { w with packages := s, content := content })
      | (.failed e, s, content) => (.failed e, { w with packages := s, content := content })
      | (.aborted, s, content) => (.aborted, { w with packages := s, content := content }) := by
  change Action.bind (Action.on _ _ _) _ w = _
  rw [Action.bind, Action.on]
  rcases PackageStore.transact m.org .sound (Restoration.restore token m)
    (w.packages, w.content) with ⟨_ | _ | _, s, content⟩ <;> rfl

/-- A delivery that is done committed the tables at the end of its flow, and was reported then. -/
theorem restore_eq_done :
    restore token m w = (.done events, w') ↔
      w.packages.org = m.org ∧ ∃ tx content,
        Restoration.restore token m (w.packages.begin, w.content) = (.done events, (tx, content)) ∧
        w' = report m events { w with packages := w.packages.commit tx, content := content } := by
  simp only [restore, Action.bind_eq_done, Action.modify_eq_done, Action.pure_eq_done,
    Action.on_eq_done, Prod.exists, PackageStore.transact_eq_done]
  constructor
  · intro hgiven
    obtain ⟨_, _, ⟨_, content, ⟨horg, tx, hflow, rfl⟩, rfl⟩, _, _, rfl, rfl, rfl⟩ := hgiven
    exact ⟨horg, tx, content, hflow, rfl⟩
  · intro hgiven
    obtain ⟨horg, tx, content, hflow, rfl⟩ := hgiven
    exact ⟨events, _, ⟨_, content, ⟨horg, tx, hflow, rfl⟩, rfl⟩, (), _, rfl, rfl, rfl⟩

/-- A delivery that is not done leaves everything but the content alone. -/
theorem restore_of_not_done (h : (restore token m w).1.isDone = false) :
    (restore token m w).2 = { w with content := (restore token m w).2.content } := by
  have hkept : (PackageStore.transact m.org .sound (Restoration.restore token m)
      (w.packages, w.content)).1.isDone = false → (PackageStore.transact m.org .sound
      (Restoration.restore token m) (w.packages, w.content)).2.1 = w.packages :=
    PackageStore.transact_of_not_done
  rw [restore_apply] at h ⊢
  generalize PackageStore.transact m.org .sound (Restoration.restore token m)
    (w.packages, w.content) = r at h hkept ⊢
  rcases r with ⟨_ | _ | _, s, content⟩
  · cases h
  · obtain rfl : s = w.packages := hkept rfl
    rfl
  · obtain rfl : s = w.packages := hkept rfl
    rfl

/-- A delivery for another organization is aborted before it begins. -/
theorem restore_of_other_org (h : m.org ≠ w.packages.org) :
    restore token m w = (.aborted, w) := by
  rw [restore_apply, PackageStore.transact, if_pos h.symm]

/-- A delivery whose message claims nothing fails and does nothing. -/
theorem restore_of_not_claimed (horg : m.org = w.packages.org)
    (h : Restoration.claimed? w.packages.tables m = none) :
    ∃ e, restore token m w = (.failed e, w) := by
  have hnone : Restoration.claimed? w.packages.begin.working m = none := h
  obtain ⟨e, hflow⟩ := Restoration.restore_of_not_claimed token w.content hnone
  refine ⟨e, ?_⟩
  rw [restore_apply, PackageStore.transact_of_flow horg.symm hflow]
  rfl

/-- A delivery for the organization of the store is aborted if its flow is. -/
theorem restore_of_aborted (horg : m.org = w.packages.org)
    (h : (Restoration.restore token m (w.packages.begin, w.content)).1 = .aborted) :
    (restore token m w).1 = .aborted := by
  rcases hflow : Restoration.restore token m (w.packages.begin, w.content) with ⟨o, tx, content⟩
  rw [hflow] at h
  obtain rfl : o = .aborted := h
  rw [restore_apply, PackageStore.transact_of_flow horg.symm hflow]

/-- A delivery for the organization of the store is done if its flow is. -/
theorem doneUnless_restore_of_flow {reason : Prop} (horg : m.org = w.packages.org)
    (h : Action.DoneUnless reason (Restoration.restore token m) (w.packages.begin, w.content)) :
    Action.DoneUnless reason (restore token m) w := by
  rcases h with ⟨events, ⟨tx, content⟩, hflow⟩ | ⟨haborted, hreason⟩
  · exact Action.doneUnless_of_done (restore_eq_done.2 ⟨horg.symm, tx, content, hflow, rfl⟩)
  · exact .inr ⟨restore_of_aborted horg haborted, hreason⟩

/-- What holds of the content before a delivery and where its flow leaves it holds after the delivery,
whatever becomes of it. -/
theorem content_restore_of {P : Content → Prop} (hbefore : P w.content)
    (hflow : P (Restoration.restore token m (w.packages.begin, w.content)).2.2) :
    P (restore token m w).2.content := by
  have htransact : P (PackageStore.transact m.org .sound (Restoration.restore token m)
      (w.packages, w.content)).2.2 := by
    rw [PackageStore.transact]
    split
    · exact hbefore
    · exact hflow
  rw [restore_apply]
  generalize PackageStore.transact m.org .sound (Restoration.restore token m)
    (w.packages, w.content) = r at htransact ⊢
  rcases r with ⟨_ | _ | _, s, content⟩
  · dsimp only
    rw [report_eq]
    exact htransact
  · exact htransact
  · exact htransact

/-- Whatever becomes of a delivery, no delete record is gone after it but those of content that is
not hidden any more. -/
theorem clears_restore (token : Int → String) (m : RestoreMessage) (w : Workspace) :
    w.content.Clears (restore token m w).2.content :=
  content_restore_of (Std.Refl.refl (r := Content.Clears) w.content)
    (Restoration.within_restore token m (w.packages.begin, w.content))

/-- Whatever becomes of a delivery, it clears content of the leaves of its message at most. -/
theorem thins_restore (hk : w.packages.tables.Keyed) (token : Int → String) (m : RestoreMessage) :
    w.content.Thins ((Restoration.leafRows w.packages.tables w.packages.way m).map Package.nodeId)
      (restore token m w).2.content := by
  have hkeyed : w.packages.begin.working.Keyed := hk
  exact content_restore_of (Std.Refl.refl (r := Content.Thins _) w.content)
    (Restoration.thins_restore hkeyed token m w.content)

/-- A delivery that is done has cleared all content of the leaves of its message. -/
theorem cleared_of_restore (hk : w.packages.tables.Keyed)
    (h : restore token m w = (.done events, w')) :
    ∃ found, Content.Cleared
      ((Restoration.leafRows w.packages.tables w.packages.way m).map Package.nodeId) w.content found
      w'.content := by
  obtain ⟨-, tx, content, hflow, rfl⟩ := restore_eq_done.1 h
  have hkeyed : w.packages.begin.working.Keyed := hk
  rw [report_eq]
  exact Restoration.restore_cleared hkeyed hflow

/-- Where the flow of a delivery leads the tables when it is done, there a delivery leads them. -/
theorem within_restore {R : Tables → Tables → Prop} [IsPreorder Tables R] (m : RestoreMessage)
    (hflow : Action.WhenDone (Order.Preimage (fun s : Transaction × Content => s.1.working) R)
      (Restoration.restore token m)) :
    Action.Within (Order.Preimage (fun w : Workspace => w.packages.tables) R) (restore token m) := by
  have hreport (events : List Event) : Action.Within
      (Order.Preimage (fun w : Workspace => w.packages.tables) R)
      (Action.modify (report m events)) := by
    intro w
    rw [Order.Preimage, Action.modify, report_eq]
    exact Std.Refl.refl (r := R) w.packages.tables
  have htransact : Action.Within (Order.Preimage (fun w : Workspace => w.packages.tables) R)
      ((PackageStore.transact m.org .sound (Restoration.restore token m)).on
        (fun w => (w.packages, w.content)) fun s w =>
          { w with packages := s.1, content := s.2 }) :=
    (PackageStore.within_transact m.org hflow).on fun _ _ h => h
  exact htransact.bind fun events => (hreport events).bind fun _ => Action.within_pure events

/-- A delivery that ends with a value is done. -/
theorem restore_of_isDone (token : Int → String) (m : RestoreMessage) (w : Workspace)
    (h : (restore token m w).1.isDone) :
    ∃ events, restore token m w = (.done events, (restore token m w).2) := by
  obtain ⟨events, hvalue⟩ := Outcome.exists_of_isDone h
  exact ⟨events, Prod.ext hvalue rfl⟩

/-! ## Atomicity -/

/-- A delivery is atomic for the packages. When it is done, the committed tables are the working
tables at the end of its flow, whatever the changelog is and answers; when it is not, they and the
changelog are what they were before. -/
theorem restore_atomic (token : Int → String) (m : RestoreMessage) (w : Workspace) :
    match restore token m w with
    | (.done events, w') =>
      ∃ tx content,
        Restoration.restore token m (w.packages.begin, w.content) = (.done events, (tx, content)) ∧
        w'.packages = { w.packages with tables := tx.working } ∧
        ∀ changelog, (restore token m { w with changelog }).1 = .done events ∧
          (restore token m { w with changelog }).2.packages = w'.packages
    | (_, w') => w'.packages = w.packages ∧ w'.changelog = w.changelog := by
  have hfailed : (restore token m w).1.isDone = false →
      (restore token m w).2 = { w with content := (restore token m w).2.content } :=
    restore_of_not_done
  rcases hrun : restore token m w with ⟨events | _ | _, w'⟩
  · obtain ⟨horg, tx, content, hflow, rfl⟩ := restore_eq_done.1 hrun
    have hpackages : (report m events { w with
        packages := w.packages.commit tx, content := content }).packages =
        { w.packages with tables := tx.working } := by
      rw [report_eq]
      rfl
    refine ⟨tx, content, hflow, hpackages, fun changelog => ?_⟩
    have hother : restore token m { w with changelog } = (.done events, _) :=
      restore_eq_done.2 ⟨horg, tx, content, hflow, rfl⟩
    rw [hother, hpackages, report_eq]
    exact ⟨rfl, rfl⟩
  · rw [hrun] at hfailed
    rw [show w' = _ from hfailed rfl]
    exact ⟨rfl, rfl⟩
  · rw [hrun] at hfailed
    rw [show w' = _ from hfailed rfl]
    exact ⟨rfl, rfl⟩

/-! ## A small workspace -/

/-- A marked folder with a trashed folder and three trashed files in and below it, one of which has
source files. -/
def sampleTables : Tables where
  lastId := 6
  datasets := [⟨1, "Dataset", some "N:dataset:1"⟩]
  packages := [
    ⟨2, "__DELETED__f_F", .collection, .restoring, "f", none, 1, 1, none, false⟩,
    ⟨3, "__DELETED__g_G", .collection, .deleted, "g", some 2, 1, 1, none, false⟩,
    ⟨4, "__DELETED__a_A", .text, .deleted, "a", some 3, 1, 1, none, false⟩,
    ⟨5, "__DELETED__b_B", .text, .deleted, "b", some 2, 1, 1, none, false⟩,
    ⟨6, "__DELETED__c_C", .text, .deleted, "c", some 2, 1, 1, none, false⟩]
  files := [⟨6, 3⟩, ⟨6, 4⟩]
  packageStorage := .empty
  datasetStorage := .empty
  organizationStorage := .empty

/-- A workspace with these tables, in which the other two files have delete records. -/
def sample : Workspace where
  packages := ⟨1, .bounded, sampleTables⟩
  content := ⟨⟨⟨[⟨"a", "store", "x", "v", some 5⟩, ⟨"b", "store", "y", "v", some 2⟩]⟩, 0, [], []⟩,
    ⟨[⟨"store", "x", [⟨"v", true⟩]⟩, ⟨"store", "y", [⟨"v", true⟩]⟩], [], false, []⟩⟩
  changelog := some ⟨[], false⟩
  queue := .empty

/-- The message that brings the folder back. -/
def sampleMessage : RestoreMessage :=
  ⟨1, 1, "user", ⟨2, "f", "__DELETED__f_F", none, .collection, none⟩⟩

/-- The token of all packages in the small workspace. -/
def sampleToken (_ : Int) : String := "token"

/-- The packages of the small workspace form a forest. -/
theorem forest_sampleTables : sampleTables.Forest :=
  Tables.forest_of_lt (by decide) (by decide) (by decide)

end Workspace

end Salvage
