import Salvage.Message.Wire
import Salvage.Request
import Salvage.Restoration

/-!
# A workspace

The packages of a workspace, the content behind them, the changelog and the restore queue; what is
asked of it by requests and by queue messages. A message is handled in one transaction. Only when
that is committed the changelog is told, and whatever the changelog answers, the restore stands.
-/

namespace Salvage

/-- What the changelog is told of one restore. -/
structure ChangelogEntry where
  org : Int
  datasetId : Int
  userId : String
  events : List Event
  deriving DecidableEq, Repr

/-- A changelog and what it was told. -/
structure Changelog where
  entries : List ChangelogEntry
  /-- Whether every entry is refused. -/
  isDown : Bool
  deriving DecidableEq, Repr

/-- Tells the changelog of a restore. -/
def Changelog.log (e : ChangelogEntry) : Action Changelog Unit := do
  let c ← Action.get
  if c.isDown then Action.fail (.queue "jobs queue unavailable")
  else Action.set { c with entries := c.entries ++ [e] }

/-- All stores of a workspace. -/
structure Workspace where
  packages : PackageStore
  content : Content
  /-- Restores are not reported where there is no changelog. -/
  changelog : Option Changelog
  queue : RestoreQueue
  deriving DecidableEq, Repr

namespace Workspace

/-- Reports a restore, if there is anything to report. A changelog that refuses it is not asked
again. -/
def report (m : RestoreMessage) (events : List Event) (w : Workspace) : Workspace :=
  if events.isEmpty then w
  else
    let entry : ChangelogEntry := ⟨m.org, m.datasetId, m.userId, events⟩
    { w with changelog := w.changelog.map fun c => (Changelog.log entry c).2 }

/-- Restores the package of a message. -/
def restore (token : Int → String) (m : RestoreMessage) : Action Workspace (List Event) := do
  let flow := PackageStore.transact m.org .sound (Restoration.restore token m)
  let events ← flow.on (fun w => (w.packages, w.content))
    fun s w => { w with packages := s.1, content := s.2 }
  Action.modify (report m events)
  return events

/-- Handles a message as it comes from the queue. -/
def handle (token : Int → String) (m : QueueMessage) : Action Workspace Unit := do
  match RestoreMessage.reader.readAll m.body with
  | .error fault => Action.fail (.json fault)
  | .ok message =>
    let _ ← restore token message
    return ()

/-- The ids of a batch that no successful task stands for, in the order of the batch and once per
occurrence. The tasks may finish in any order. -/
def unfinished (order : List String) (finished : List (String × Bool)) : List String :=
  order.filter fun id => !finished.any fun f => f.1 == id && f.2

/-- Handles the messages of a batch, and returns the ids that have to come again. The number of a
message in the batch goes into its tokens. -/
def handleBatch (token : Nat → Int → String) (messages : List QueueMessage) :
    Action Workspace (List String) := do
  let finished ← Action.each
    (fun (m, i) => do
      let outcome ← (handle (token i) m).attempt
      return (m.id, outcome.isDone))
    messages.zipIdx
  return unfinished (messages.map QueueMessage.id) finished

/-- Acknowledges the messages of a batch that need not come again. A message that cannot be
acknowledged keeps no other from being acknowledged. -/
def acknowledge {σ : Type} (delete : String → Action σ Unit) (messages : List QueueMessage)
    (failed : List String) : Action σ Unit := do
  let _ ← Action.each (fun m => (delete m.receipt).attempt)
    (messages.filter fun m => !failed.contains m.id)
  return ()

/-- Handles the messages of a batch in some way, and then acknowledges to their queue those that need
not come again. -/
def processBy {σ : Type} (handleAll : List QueueMessage → Action Workspace (List String))
    (delete : String → Action σ Unit) (messages : List QueueMessage) : Action (Workspace × σ) Unit := do
  let failed ← (handleAll messages).on Prod.fst fun w s => (w, s.2)
  (acknowledge delete messages failed).on Prod.snd fun queue s => (s.1, queue)

/-- Handles the messages of a batch and then acknowledges those that need not come again. -/
def processBatch {σ : Type} (token : Nat → Int → String) (delete : String → Action σ Unit)
    (messages : List QueueMessage) : Action (Workspace × σ) Unit :=
  processBy (handleBatch token) delete messages

/-- Marks the packages of a request and queues their messages, as a way to send them does. -/
def requestBy (send : RestoreMessage → Action RestoreQueue Unit) (org : Int) (datasetNode : String)
    (r : RestoreRequest) (userId : String) : Action Workspace RestoreResponse :=
  (PackageStore.transact org .sound (r.accept send datasetNode userId)).on
    (fun w => (w.packages, w.queue)) fun s w => { w with packages := s.1, queue := s.2 }

/-- Marks the packages of a request and queues their messages. -/
def request (org : Int) (datasetNode : String) (r : RestoreRequest) (userId : String) :
    Action Workspace RestoreResponse :=
  requestBy RestoreQueue.send org datasetNode r userId

end Workspace

end Salvage
