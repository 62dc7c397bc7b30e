import Salvage.Proofs.Restoration

/-!
# Restores in both ways of walking

The way of walking decides only which descendants are to move. Every other operation of a restore
does not see it, whether it is done or not. Where everything in the trash below a package can be
reached through the trash, both ways find the same descendants in the same order, so the whole
restore of that package does not see the way (`blind_restore`).
-/

namespace Salvage

variable {α : Type} {way : Traversal}

namespace Tables

/-- A package in the trash below the root is reached from it through the trash. -/
def PlainlyTrashed (t : Tables) (root : Int) : Prop :=
  ∀ p ∈ t.packages, p.state = .deleted → t.IsAncestor root p.id →
    ∀ q ∈ t.packages, t.IsAncestor root q.id → t.IsAncestor q.id p.id → q.state = .deleted

/-- In a forest a package is plainly trashed if what is live below it has only live packages
below. -/
theorem Treelike.plainlyTrashed_of_live {t : Tables} (ht : t.Treelike) {root : Int}
    (live : List Int)
    (hdown : ∀ p ∈ t.packages, p.parentId.any live.contains →
      live.contains p.id ∧ p.state ≠ .deleted)
    (hrest : ∀ p ∈ t.packages, p.state = .deleted ∨ p.id = root ∨ live.contains p.id) :
    t.PlainlyTrashed root := by
  intro p hp hdeleted _ q hq hroot hbelow
  rcases hrest q hq with hstate | rfl | hlive
  · exact hstate
  · exact absurd hroot (ht.acyclic _)
  · have hstep {a b : Int} (ha : live.contains a) (hab : t.IsParent a b) :
        live.contains b ∧ ∀ r ∈ t.packages, r.id = b → r.state ≠ .deleted := by
      obtain ⟨r, hr, rfl, hparent⟩ := hab
      obtain ⟨hin, hstate⟩ := hdown r hr (by rw [hparent]; exact ha)
      exact ⟨hin, fun r' hr' hid => ht.keyed.eq_of_id hr' hr hid ▸ hstate⟩
    have hall {b : Int} (h : t.IsAncestor q.id b) :
        live.contains b ∧ ∀ r ∈ t.packages, r.id = b → r.state ≠ .deleted := by
      induction h with
      | single hab => exact hstep hlive hab
      | tail _ hab ih => exact hstep ih.1 hab
    exact absurd hdeleted ((hall hbelow).2 p hp rfl)

/-- In a plainly trashed forest the way of walking makes no difference to what is to move. -/
theorem Treelike.descendants_eq_of_plain {t : Tables} (ht : t.Treelike) {root : Int}
    (hplain : t.PlainlyTrashed root) (way way' : Traversal) (datasetId : Int) :
    t.descendants way datasetId root .deleted = t.descendants way' datasetId root .deleted := by
  have hcovers {way way' : Traversal} {p : Package}
      (h : t.Covers way datasetId root .deleted p) : t.Covers way' datasetId root .deleted p :=
    { h with between := fun _ => hplain p h.mem h.state h.below }
  exact ht.descendants_congr fun p => ⟨hcovers, hcovers⟩

end Tables

namespace Transaction

open Salvage.Action (Blind)

/-- The transaction of a store with another way of walking. -/
def walking (way : Traversal) (tx : Transaction) : Transaction :=
  { tx with way }

/-! ## Operations -/

/-- Writing does not see the way of walking. -/
theorem blind_write (t : Tables) (tx : Transaction) : Blind (walking way) (write t) tx := rfl

/-- Writing tables whose totals stay in range does not see the way of walking. -/
theorem blind_orAbort_write (o : Option α) (put : α → Tables) (tx : Transaction) :
    Blind (walking way) (do let a ← Action.orAbort o; write (put a)) tx :=
  (Action.blind_orAbort _ _ _).bind fun _ _ _ => blind_write _ _

/-- A move does not see the way of walking. -/
theorem blind_move (datasetId : Int) (nodeId : String) (expected target : Package.State)
    (tx : Transaction) : Blind (walking way) (move datasetId nodeId expected target) tx := by
  apply Action.blind_get_bind rfl
  dsimp only
  split
  · exact (blind_write _ _).bind fun _ _ _ => Action.blind_pure _ _ _
  · rfl

/-- A move of descendants does not see a way of walking that finds the same ones. -/
theorem blind_moveDescendants {datasetId root : Int} {expected : Package.State}
    (target : Package.State) {tx : Transaction}
    (hsame : tx.working.descendants way datasetId root expected =
      tx.working.descendants tx.way datasetId root expected) :
    Blind (walking way) (moveDescendants datasetId root expected target) tx := by
  have hmoved : tx.working.moveDescendants way datasetId root expected target =
      tx.working.moveDescendants tx.way datasetId root expected target := by
    rw [Tables.moveDescendants, hsame]
    rfl
  apply Action.blind_get_bind
  · dsimp only [walking]
    rw [hmoved]
  · exact (blind_write _ _).bind fun _ _ _ => Action.blind_pure _ _ _

/-- A renaming does not see the way of walking. -/
theorem blind_rename (id : Int) (name : String) (tx : Transaction) :
    Blind (walking way) (rename id name) tx := by
  apply Action.blind_get_bind rfl
  dsimp only
  split
  · rfl
  · split <;> rfl

/-- Going back to a savepoint does not see the way of walking. -/
theorem blind_rollbackTo (name : String) (tx : Transaction) :
    Blind (walking way) (rollbackTo name) tx := by
  have hlive : (walking way tx).savepoints = tx.savepoints := rfl
  rw [Blind, rollbackTo, Action.get_bind_apply, Action.get_bind_apply, hlive]
  cases tx.savepoints.dropWhile fun s => s.1 != name <;> rfl

/-- Releasing a savepoint does not see the way of walking. -/
theorem blind_release (name : String) (tx : Transaction) :
    Blind (walking way) (release name) tx := by
  have hlive : (walking way tx).savepoints = tx.savepoints := rfl
  rw [Blind, release, Action.get_bind_apply, Action.get_bind_apply, hlive]
  cases tx.savepoints.dropWhile fun s => s.1 != name <;> rfl

/-- Guarded attempts do not see the way of walking if a single one does not. -/
theorem blind_tryEach {savepoint : String} {retryable : Error → Bool}
    {attempt : String → Action Transaction α}
    (hattempt : ∀ candidate tx, Blind (walking way) (attempt candidate) tx) (tried : Nat)
    (candidates : List String) (tx : Transaction) :
    Blind (walking way) (tryEach savepoint retryable attempt tried candidates) tx := by
  induction candidates generalizing tried tx with
  | nil => rfl
  | cons candidate rest ih =>
    apply (hattempt candidate tx).attempt.bind
    intro outcome tx' _
    cases outcome with
    | done value =>
      exact (blind_release savepoint tx').bind fun _ _ _ => Action.blind_pure _ _ _
    | failed e =>
      dsimp only
      split
      · exact (blind_rollbackTo savepoint tx').bind fun _ tx' _ => ih (tried + 1) tx'
      · rfl
    | aborted => rfl

/-- A guarded search does not see the way of walking if a single attempt does not. -/
theorem blind_guarded {attempt : String → Action Transaction α}
    (hattempt : ∀ candidate tx, Blind (walking way) (attempt candidate) tx) (savepoint : String)
    (limit : Nat) (retryable : Error → Bool) (candidates : List String) (tx : Transaction) :
    Blind (walking way) (guarded savepoint limit retryable candidates attempt) tx := by
  have hsaved : Blind (walking way) (Transaction.savepoint savepoint) tx := rfl
  exact hsaved.bind fun _ tx' _ => blind_tryEach hattempt 0 _ tx'

end Transaction

/-! ## Accounting -/

namespace Accounting

open Salvage.Action (Blind)
open Transaction (walking blind_orAbort_write)

/-- Adding a leaf to the totals does not see the way of walking. -/
theorem blind_addLeaf (leaf : PackageInfo) (size : Int) (tx : Transaction) :
    Blind (walking way) (addLeaf leaf size) tx := by
  apply Blind.bind
  · exact Action.blind_get_bind rfl (blind_orAbort_write _ _ tx)
  · intro _ tx' _
    split
    · rfl
    · exact Action.blind_get_bind rfl (blind_orAbort_write _ _ tx')

/-- Adding leaves to the totals does not see the way of walking. -/
theorem blind_addLeaves (sizes : Totals) (sum : Int) (leaves : List PackageInfo)
    (tx : Transaction) : Blind (walking way) (addLeaves sizes sum leaves) tx := by
  induction leaves generalizing sum tx with
  | nil => rfl
  | cons leaf rest ih =>
    rw [addLeaves]
    split
    · exact ih sum tx
    · apply (blind_addLeaf leaf _ tx).bind
      intro _ tx' _
      exact (Action.blind_orAbort _ _ tx').bind fun sum tx' _ => ih sum tx'

/-- Adding leaves to all totals does not see the way of walking. -/
theorem blind_propagate (datasetId : Int) (leaves : List PackageInfo) (sizes : Totals)
    (tx : Transaction) : Blind (walking way) (propagate datasetId leaves sizes) tx := by
  apply (blind_addLeaves sizes 0 leaves tx).bind
  intro total tx' _
  split
  · apply Blind.bind
    · exact Action.blind_get_bind rfl (blind_orAbort_write _ _ tx')
    · intro _ tx' _
      apply Action.blind_get_bind rfl
      apply Blind.bind
      · exact Action.blind_get_bind rfl (blind_orAbort_write _ _ tx')
      · exact fun _ tx' _ => Action.blind_pure _ _ tx'
  · rfl

/-- Looking for sizes does not see the way of walking. -/
theorem blind_leafSizes (leaves : List PackageInfo) (records : RecordSet) (tx : Transaction) :
    Blind (walking way) (leafSizes leaves records) tx := by
  apply Blind.bind
  · exact Action.blind_get_bind rfl (Action.blind_orAbort _ _ tx)
  · exact fun _ tx' _ => Action.blind_pure _ _ tx'

end Accounting

/-! ## Flows -/

namespace Restoration

open Salvage.Action (Blind)
open Transaction (walking)

variable {token : Int → String} {m : RestoreMessage} {tx : Transaction} {c : Content}

/-- The state of a flow in a transaction with another way of walking. -/
def walkingBeside (way : Traversal) (s : Transaction × Content) : Transaction × Content :=
  (walking way s.1, s.2)

/-- Work in the transaction sees of the way of walking what it sees without the content. -/
theorem blind_inTransaction {x : Action Transaction α} {s : Transaction × Content}
    (hx : Blind (walking way) x s.1) : Blind (walkingBeside way) (inTransaction x) s :=
  hx.on (walking way) rfl fun _ => rfl

/-- Work on the content does not see the way of walking. -/
theorem blind_inContent (x : Action Content α) (s : Transaction × Content) :
    Blind (walkingBeside way) (inContent x) s := rfl

/-- Giving a package its name back does not see the way of walking. -/
theorem blind_restoreName (text : String) (info : PackageInfo) (tx : Transaction) :
    Blind (walking way) (restoreName text info) tx := by
  apply (Action.blind_ofOutcome _ _ tx).bind
  intro former tx' _
  apply (Transaction.blind_guarded (Transaction.blind_rename info.id) _ _ _ _ tx').bind
  exact fun found tx' _ => Action.blind_pure _ _ tx'

/-- Giving packages their names back does not see the way of walking. -/
theorem blind_restoreNames (token : Int → String) (parents : List EventParent)
    (infos : List PackageInfo) (tx : Transaction) :
    Blind (walking way) (restoreNames token parents infos) tx := by
  induction infos generalizing parents tx with
  | nil => rfl
  | cons info rest ih =>
    apply (blind_restoreName (token info.id) info tx).bind
    intro restored tx' _
    exact (ih _ tx').bind fun events tx' _ => Action.blind_pure _ _ tx'

/-- Finishing a package does not see the way of walking. -/
theorem blind_finish (datasetId : Int) (info : PackageInfo) (tx : Transaction) :
    Blind (walking way) (finish datasetId info) tx :=
  (Transaction.blind_move _ _ _ _ tx).bind fun _ tx' _ => Action.blind_pure _ _ tx'

/-- Bringing leaves back does not see the way of walking. -/
theorem blind_restoreLeaves (datasetId : Int) (leaves : List PackageInfo)
    (s : Transaction × Content) :
    Blind (walkingBeside way) (restoreLeaves datasetId leaves) s := by
  apply (blind_inContent _ s).bind
  intro records s' _
  apply (blind_inTransaction (Accounting.blind_leafSizes leaves records s'.1)).bind
  intro sizes s' _
  apply (blind_inTransaction (Accounting.blind_propagate datasetId leaves sizes s'.1)).bind
  exact fun _ s' _ => Action.blind_pure _ _ s'

/-- A restore of a leaf does not see the way of walking. -/
theorem blind_restoreLeaf (token : Int → String) (m : RestoreMessage)
    (s : Transaction × Content) : Blind (walkingBeside way) (restoreLeaf token m) s := by
  apply (blind_inTransaction (Transaction.blind_move _ _ _ _ s.1)).bind
  intro package s' _
  apply (blind_inTransaction (blind_restoreName _ _ s'.1)).bind
  intro restored s' _
  apply (blind_restoreLeaves _ _ s').bind
  intro _ s' _
  apply (blind_inTransaction (blind_finish _ _ s'.1)).bind
  exact fun _ s' _ => Action.blind_pure _ _ s'

/-- A check for a folder does not see the way of walking. -/
theorem blind_checkFolder (m : RestoreMessage) (tx : Transaction) :
    Blind (walking way) (checkFolder m) tx := by
  rw [Blind, checkFolder_apply, checkFolder_apply]
  dsimp only [walking]
  split
  · rfl
  · split <;> rfl

/-- A restore of a folder does not see the way of walking when its package is plainly trashed. -/
theorem blind_restoreFolder (ht : tx.working.Treelike)
    (hplain : ∀ p, claimed? tx.working m = some p → tx.working.PlainlyTrashed p.id) :
    Blind (walkingBeside way) (restoreFolder token m) (tx, c) := by
  apply (blind_inTransaction (blind_checkFolder m tx)).bind
  rintro _ ⟨tx', c'⟩ hfirst
  obtain ⟨hcheck, rfl⟩ := inTransaction_eq_done.1 hfirst
  obtain rfl := (checkFolder_done hcheck).1
  apply (blind_inTransaction (Transaction.blind_move _ _ _ _ tx')).bind
  rintro package ⟨tx₁, c₁⟩ hsecond
  obtain ⟨hclaim, rfl⟩ := inTransaction_eq_done.1 hsecond
  obtain ⟨p, hp, rfl, rfl⟩ := Transaction.move_eq_done.1 hclaim
  -- no step before looks at the descendants, and the claim has not changed which are to move
  have hsame : (tx'.working.changeId p.id (·.moveTo .restoring)).descendants way m.datasetId p.id
      .deleted = (tx'.working.changeId p.id (·.moveTo .restoring)).descendants tx'.way m.datasetId
      p.id .deleted := by
    rw [descendants_changeId ht.keyed hp, descendants_changeId ht.keyed hp]
    exact ht.descendants_eq_of_plain (hplain p hp) way tx'.way m.datasetId
  apply (blind_inTransaction (Transaction.blind_moveDescendants .restoring hsame)).bind
  intro below s _
  apply (blind_inTransaction (blind_restoreName _ _ s.1)).bind
  intro restored s _
  apply (blind_inTransaction (blind_restoreNames token _ _ s.1)).bind
  intro events s _
  apply (blind_restoreLeaves _ _ s).bind
  intro _ s _
  apply (blind_inTransaction (Action.blind_each (blind_finish m.datasetId) _ s.1)).bind
  intro _ s _
  apply (blind_inTransaction (Transaction.blind_move _ _ _ _ s.1)).bind
  exact fun _ s _ => Action.blind_pure _ _ s

/-- A restore does not see the way of walking when the package of its message is plainly trashed. -/
theorem blind_restore (ht : tx.working.Treelike)
    (hplain : ∀ p, claimed? tx.working m = some p → tx.working.PlainlyTrashed p.id) :
    Blind (walkingBeside way) (restore token m) (tx, c) := by
  rw [restore]
  split
  · exact blind_restoreFolder ht hplain
  · exact blind_restoreLeaf token m (tx, c)

end Restoration

end Salvage
