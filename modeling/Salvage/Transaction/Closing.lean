import Salvage.Transaction

/-!
# Running a transaction

A store holds the committed tables of one workspace. A flow runs in a transaction beside other
stores, which have no transactions. When it is done its tables become the committed ones, and
otherwise nothing it did to them is kept. A handle that has lost its link to the store commits
nothing, whatever it answers.
-/

namespace Salvage

/-- The committed tables of one workspace. -/
structure PackageStore where
  org : Int
  way : Traversal
  tables : Tables
  deriving DecidableEq, Repr

/-- The handle by which a transaction is closed. -/
inductive Handle where
  | sound
  /-- A handle without a link to the store, with what it answers to a commit and to a rollback. -/
  | broken (commitError rollbackError : Option Error)
  deriving DecidableEq, Repr

namespace PackageStore

variable {σ α : Type}

/-- A new transaction, which starts from the committed tables. -/
def begin (s : PackageStore) : Transaction :=
  ⟨s.org, s.way, s.tables, []⟩

/-- Commits the tables of a transaction. -/
def commit (s : PackageStore) (tx : Transaction) : PackageStore :=
  { s with tables := tx.working }

/-- Closes a transaction whose flow has ended. -/
def settle (s : PackageStore) (tx : Transaction) : Handle → Outcome α → Outcome α × PackageStore
  | .sound, .done a => (.done a, s.commit tx)
  | .broken none _, .done a => (.done a, s)
  | .broken (some e) _, .done _ => (.failed e, s)
  | .broken _ (some r), .failed e =>
    (.failed (.context s!"rollback failed as well: {r.message}" e), s)
  | _, .failed e => (.failed e, s)
  | _, .aborted => (.aborted, s)

/-- Runs a flow in a transaction of an organization beside other stores. A store serves one
organization only, and a flow for another one does not start. -/
def transact (org : Int) (handle : Handle) (flow : Action (Transaction × σ) α) :
    Action (PackageStore × σ) α := fun (s, others) =>
  if s.org ≠ org then (.aborted, (s, others))
  else
    let (outcome, tx, others) := flow (s.begin, others)
    let (outcome, s) := s.settle tx handle outcome
    (outcome, (s, others))

end PackageStore

end Salvage
