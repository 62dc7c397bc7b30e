import Salvage.Message
import Salvage.Transaction.Closing

/-!
# Requests

A request names packages in the trash. Each that is there is marked for restoring and gets a message
on the restore queue. A message that cannot be sent undoes all marks, so no package stays marked
without a message.
-/

namespace Salvage

/-- The queue of packages to restore. -/
structure RestoreQueue where
  messages : List RestoreMessage
  /-- Whether every send fails. -/
  isDown : Bool
  deriving DecidableEq, Repr

namespace RestoreQueue

/-- A queue without messages. -/
def empty : RestoreQueue := ⟨[], false⟩

/-- Puts a message on the queue. -/
def send (m : RestoreMessage) : Action RestoreQueue Unit := do
  let q ← Action.get
  if q.isDown then Action.fail (.queue "restore queue unavailable")
  else Action.set { q with messages := q.messages ++ [m] }

end RestoreQueue

namespace RestoreRequest

/-- The message for a package. -/
def messageFor (org datasetId : Int) (userId : String) (p : Package) : RestoreMessage :=
  ⟨org, datasetId, userId, .ofPackage p⟩

/-- What is said of a node that is no trashed package of the dataset. -/
def failureFor (datasetNode nodeId : String) : Failure :=
  ⟨nodeId, s!"deleted package {nodeId} not found in dataset {datasetNode}"⟩

/-- Marks a node for restoring. A node that is not in the trash gives nothing. -/
def markOne (datasetId : Int) (nodeId : String) : Action Transaction (String × Option Package) := do
  match ← (Transaction.move datasetId nodeId .deleted .restoring).attempt with
  | .done p => return (nodeId, some p)
  | .failed e => if e.isNotFound .package then return (nodeId, none) else Action.fail e
  | .aborted => Action.abort

/-- Marks the packages of a request and sends their messages to a queue. -/
def accept {σ : Type} (send : RestoreMessage → Action σ Unit) (datasetNode : String)
    (r : RestoreRequest) (userId : String) : Action (Transaction × σ) RestoreResponse := do
  let inTransaction {α : Type} (x : Action Transaction α) : Action (Transaction × σ) α :=
    x.on Prod.fst fun tx s => (tx, s.2)
  let dataset ← inTransaction (Transaction.dataset datasetNode)
  let org := (← Action.get).1.org
  let marked ← inTransaction (Action.each (markOne dataset.id) r.nodeIds)
  let messages := marked.filterMap fun m => m.2.map (messageFor org dataset.id userId)
  let _ ← (Action.each send messages).on Prod.snd fun q s => (s.1, q)
  let (success, failed) := marked.partition fun m => m.2.isSome
  return ⟨success.map Prod.fst, failed.map fun m => failureFor datasetNode m.1⟩

end RestoreRequest

end Salvage
