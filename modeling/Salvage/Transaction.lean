import Salvage.Outcome
import Salvage.Tables.Traversal

/-!
# Transactions

A transaction works on a copy of the tables and keeps a stack of savepoints, each with the tables of
the moment when it was made. Its operations are actions: each either does all it says or fails and
leaves the transaction as it was.
-/

namespace Salvage

/-- A transaction of a workspace. -/
structure Transaction where
  org : Int
  way : Traversal
  working : Tables
  /-- The live savepoints, newest first. -/
  savepoints : List (String × Tables)
  deriving DecidableEq, Repr

namespace Transaction

variable {α : Type}

/-- Replaces the working tables. -/
def write (t : Tables) : Action Transaction Unit :=
  Action.modify fun tx => { tx with working := t }

/-- No package of a dataset fits. -/
def packageNotFound (tx : Transaction) (datasetId : Option Int) (ref : EntityRef) : Error :=
  .packageNotFound tx.org (datasetId.map .id) ref

/-- The dataset with a node id. -/
def dataset (nodeId : String) : Action Transaction Dataset := do
  let tx ← Action.get
  match tx.working.datasetByNode? nodeId with
  | some d => return d
  | none => Action.fail (.datasetNotFound tx.org (.nodeId nodeId))

/-- The package of a dataset with a node id. -/
def package (datasetId : Int) (nodeId : String) : Action Transaction Package := do
  let tx ← Action.get
  match tx.working.packageByNode? datasetId nodeId with
  | some p => return p
  | none => Action.fail (tx.packageNotFound (some datasetId) (.nodeId nodeId))

/-- Moves a package from one state to another. It must be in the expected state. -/
def move (datasetId : Int) (nodeId : String) (expected target : Package.State) :
    Action Transaction Package := do
  let tx ← Action.get
  let found := tx.working.packages.find? fun p =>
    p.datasetId == datasetId && p.nodeId == nodeId && p.state == expected
  match found with
  | some p =>
    write (tx.working.changeId p.id (·.moveTo target))
    return p.moveTo target
  | none => Action.fail (tx.packageNotFound (some datasetId) (.nodeId nodeId))

/-- Moves the descendants of a package that are in the expected state, and returns them, parents
first. -/
def moveDescendants (datasetId id : Int) (expected target : Package.State) :
    Action Transaction (List Package) := do
  let tx ← Action.get
  let (moved, tables) := tx.working.moveDescendants tx.way datasetId id expected target
  write tables
  return moved

/-- Moves a collection and the collections above it, as long as they are in the expected state. -/
def moveAncestors (id : Int) (expected target : Package.State) :
    Action Transaction (List Package) := do
  let tx ← Action.get
  let (moved, tables) := tx.working.moveAncestors id expected target
  write tables
  return moved

/-- The index that keeps the names of siblings apart; packages at the top have one of their own. -/
def nameIndex (p : Package) : String :=
  if p.parentId.isSome then "packages_name_dataset_id_parent_id__parent_id_not_null_idx"
  else "packages_name_dataset_id__parent_id_null_idx"

/-- Gives a package a name that none of its siblings has. -/
def rename (id : Int) (name : String) : Action Transaction Unit := do
  let tx ← Action.get
  match tx.working.package? id with
  | none => Action.fail (tx.packageNotFound none (.id id))
  | some p =>
    if tx.working.siblingHasName p name then
      let cause := "duplicate key value violates unique constraint \"" ++ nameIndex p ++ "\""
      Action.fail (.nameTaken tx.org id name cause)
    else write (tx.working.changeId id (·.rename name))

/-- Sums the source files of some packages. -/
def fileSizes (ids : List Int) : Action Transaction Totals := do
  let tx ← Action.get
  Action.orAbort (tx.working.fileSizes ids)

/-- Adds to the total of a package. -/
def addToPackage (id delta : Int) : Action Transaction Unit := do
  let tx ← Action.get
  let totals ← Action.orAbort (tx.working.packageStorage.add id delta)
  write { tx.working with packageStorage := totals }

/-- Adds to the totals of a package and of every package above it. -/
def addToAncestors (id delta : Int) : Action Transaction Unit := do
  let tx ← Action.get
  write (← Action.orAbort (tx.working.addToAncestors id delta))

/-- Adds to the total of a dataset. -/
def addToDataset (id delta : Int) : Action Transaction Unit := do
  let tx ← Action.get
  let totals ← Action.orAbort (tx.working.datasetStorage.add id delta)
  write { tx.working with datasetStorage := totals }

/-- Adds to the total of an organization. -/
def addToOrganization (id delta : Int) : Action Transaction Unit := do
  let tx ← Action.get
  let totals ← Action.orAbort (tx.working.organizationStorage.add id delta)
  write { tx.working with organizationStorage := totals }

/-- Makes a savepoint. An older one of the same name stays, hidden by the new one. -/
def savepoint (name : String) : Action Transaction Unit :=
  Action.modify fun tx => { tx with savepoints := (name, tx.working) :: tx.savepoints }

/-- There is no live savepoint with a name. -/
def noSavepoint (name : String) : Error :=
  .database (.protocol ("savepoint \"" ++ name ++ "\" does not exist"))

/-- Puts the tables of the newest savepoint with a name back. That savepoint stays and newer ones
go. -/
def rollbackTo (name : String) : Action Transaction Unit := do
  let tx ← Action.get
  match tx.savepoints.dropWhile fun s => s.1 != name with
  | [] => Action.fail (noSavepoint name)
  | s :: older => Action.set { tx with working := s.2, savepoints := s :: older }

/-- Forgets the newest savepoint with a name and all newer ones, and keeps the tables. -/
def release (name : String) : Action Transaction Unit := do
  let tx ← Action.get
  match tx.savepoints.dropWhile fun s => s.1 != name with
  | [] => Action.fail (noSavepoint name)
  | _ :: older => Action.set { tx with savepoints := older }

end Transaction

end Salvage
