import Salvage.Accounting
import Salvage.Content
import Salvage.Event
import Salvage.Transaction.Guarded

/-!
# Restoring a package

The two flows that bring a package back, in a transaction beside the content: one for a leaf, one
for a folder with everything in it that is in the trash. Both start by claiming the package, which
fails unless a request has marked it, so a message that comes twice does nothing the second time.
-/

namespace Salvage.Restoration

/-- Gives a package its old name, or the first candidate that is free. The token goes into the last
candidate. -/
def restoreName (token : String) (info : PackageInfo) : Action Transaction Name.Restored := do
  let former ← Action.ofOutcome (.ofExcept (Name.former info.name info.nodeId))
  let candidates := Name.candidates former token
  let found ← Transaction.guarded (savepointName info.nodeId) Name.attemptLimit
    Error.isNameConflict candidates (Transaction.rename info.id)
  return ⟨found.candidate, former⟩

/-- Work in a transaction and on the content beside it. -/
abbrev Flow (α : Type) := Action (Transaction × Content) α

variable {α : Type}

/-- Work in the transaction. -/
def inTransaction (x : Action Transaction α) : Flow α :=
  x.on Prod.fst fun tx s => (tx, s.2)

/-- Work on the content. -/
def inContent (x : Action Content α) : Flow α :=
  x.on Prod.snd fun c s => (s.1, c)

/-- Claims the package of a message, which must be marked for restoring. -/
def claim (m : RestoreMessage) : Action Transaction Package :=
  Transaction.move m.datasetId m.package.nodeId .restoring .restoring

/-- Moves a package to the state in which it ends. -/
def finish (datasetId : Int) (info : PackageInfo) : Action Transaction Unit := do
  let _ ← Transaction.move datasetId info.nodeId .restoring (.restored info.kind)
  return ()

/-- Brings the content of leaves back and accounts for it. -/
def restoreLeaves (datasetId : Int) (leaves : List PackageInfo) : Flow Unit := do
  let records ← inContent (Content.undelete (leaves.map PackageInfo.nodeId))
  let sizes ← inTransaction (Accounting.leafSizes leaves records)
  let _ ← inTransaction (Accounting.propagate datasetId leaves sizes)
  return ()

/-- Restores a leaf. A size in the message goes before all others. -/
def restoreLeaf (token : Int → String) (m : RestoreMessage) : Flow (List Event) := do
  let package ← inTransaction (claim m)
  let info := { PackageInfo.ofPackage package with size := m.package.size }
  let restored ← inTransaction (restoreName (token info.id) info)
  restoreLeaves m.datasetId [info]
  inTransaction (finish m.datasetId info)
  return [Event.ofRestored info restored none]

/-- Checks that the package of a message is a folder. -/
def checkFolder (m : RestoreMessage) : Action Transaction Unit := do
  let notFound (org : Int) (actual : Option Package.Kind) : Error :=
    .folderNotFound org (.id m.datasetId) m.package.nodeId actual
  let tx ← Action.get
  match tx.working.packageByNode? m.datasetId m.package.nodeId with
  | none => Action.fail (notFound tx.org none)
  | some p => if p.kind.isCollection then return () else Action.fail (notFound tx.org (some p.kind))

/-- Gives packages their names back, parents before children, and returns their events. Folders
that have their names are known to the events of what is in them. -/
def restoreNames (token : Int → String) :
    List EventParent → List PackageInfo → Action Transaction (List Event)
  | _, [] => return []
  | parents, info :: rest => do
    let restored ← restoreName (token info.id) info
    let parent := info.parentId.bind fun id => parents.find? fun p => p.id == id
    let parents :=
      if info.kind.isCollection then Event.asParent info restored :: parents else parents
    let events ← restoreNames token parents rest
    return Event.ofRestored info restored parent :: events

/-- Restores a folder and every trashed package below it. -/
def restoreFolder (token : Int → String) (m : RestoreMessage) : Flow (List Event) := do
  inTransaction (checkFolder m)
  let package ← inTransaction (claim m)
  let below ← inTransaction
    (Transaction.moveDescendants m.datasetId package.id .deleted .restoring)
  let folder := PackageInfo.ofPackage package
  let restored ← inTransaction (restoreName (token folder.id) folder)
  let infos := below.map PackageInfo.ofPackage
  let events ← inTransaction (restoreNames token [Event.asParent folder restored] infos)
  let (subfolders, leaves) := infos.partition fun info => info.kind.isCollection
  restoreLeaves m.datasetId leaves
  let _ ← inTransaction (Action.each (finish m.datasetId) (subfolders ++ leaves))
  let _ ← inTransaction (Transaction.move m.datasetId folder.nodeId .restoring .ready)
  return Event.ofRestored folder restored none :: events

/-- Restores the package of a message, which says whether it is a folder. -/
def restore (token : Int → String) (m : RestoreMessage) : Flow (List Event) :=
  if m.package.kind.isCollection then restoreFolder token m else restoreLeaf token m

end Salvage.Restoration
