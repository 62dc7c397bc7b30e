import Salvage.Diagnosis
import Salvage.Event.Wire
import Salvage.Provider

/-!
# Queues at a provider

Queues of a queue service, which are addressed by URL. The restore queue is received from, sent to
and acknowledged; the jobs queue of the changelog is only sent to.
-/

namespace Salvage

/-- A call of the queue service. -/
inductive QueueCall where
  | resolve (queue : String)
  | receive (url : String) (maxMessages waitSeconds : Int) (visibilitySeconds : Option Int)
  | delete (url receipt : String)
  | send (url body : String)
  deriving DecidableEq, Repr

/-- A message as the service gives it. Everything about it may be missing. -/
structure ReceivedMessage where
  id : Option String
  receipt : Option String
  body : Option String
  deriving DecidableEq, Repr

/-- A reply of the queue service. -/
structure QueueReply where
  url : Option String
  messages : List ReceivedMessage
  deriving DecidableEq, Repr

/-- A queue service. -/
abbrev QueueService := Provider QueueCall QueueReply

namespace QueueService

/-- A queue that is given by its URL. -/
def isUrl (queue : String) : Bool :=
  "https://".toList.isPrefixOf queue.toList || "http://".toList.isPrefixOf queue.toList

/-- The text of a failure of the service. -/
def failureText : Error → String
  | .queue text => text
  | e => e.message

/-- The URL of a queue that is given by its URL or by its name. -/
def resolve (queue : String) : Action QueueService (Except Diagnosis String) :=
  if isUrl queue then return .ok queue
  else do
    match ← (Provider.call .queue (.resolve queue)).attempt with
    | .done ⟨some url, _⟩ => return .ok url
    | .done ⟨none, _⟩ => return .error (.of s!"No URL returned for queue {queue}")
    | .failed e =>
      return .error ((Diagnosis.of (failureText e)).context
        s!"Failed to resolve URL of queue {queue}")
    | .aborted => Action.abort

/-- A received message that can be acknowledged later. -/
def complete? (m : ReceivedMessage) : Option QueueMessage := do
  return ⟨← m.id, ← m.receipt, m.body.getD ""⟩

/-- Receives messages. One without an id or a receipt is skipped. -/
def receive (url : String) (maxMessages waitSeconds : Int) (visibilitySeconds : Option Int) :
    Action QueueService (List QueueMessage) := do
  let reply ← Provider.call .queue (.receive url maxMessages waitSeconds visibilitySeconds)
  return reply.messages.filterMap complete?

/-- Acknowledges a message. -/
def delete (url receipt : String) : Action QueueService Unit := do
  let _ ← Provider.call .queue (.delete url receipt)
  return ()

/-- Sends a package to restore. -/
def send (url : String) (m : RestoreMessage) : Action QueueService Unit := do
  let wrap (text : String) : Error := .queue
    s!"error sending restore message for package {m.package.nodeId} to {url}: {text}"
  let _ ← Provider.call wrap (.send url (String.ofList m.print))
  return ()

/-- Sends a job to the changelog. -/
def log (url : String) (job : ChangelogJob) : Action QueueService Unit := do
  let wrap (text : String) : Error := .queue
    s!"error sending restore changelog events to queue {url}: {text}"
  let _ ← Provider.call wrap (.send url (String.ofList job.print))
  return ()

end QueueService

end Salvage
