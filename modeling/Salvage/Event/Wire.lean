import Salvage.Event
import Salvage.Event.Timestamp
import Salvage.Message.Wire

/-!
# Events as JSON

How events are written and read, alone and as a job for the changelog queue. A job has an id of its
own and an id that traces it.
-/

namespace Salvage

open Json

/-- An event with its type and its time. -/
structure Envelope where
  type : String
  detail : Event
  time : Timestamp
  deriving DecidableEq, Repr

/-- A job of the changelog queue: the events of one restore. -/
structure ChangelogJob where
  org : Int
  datasetId : Int
  userId : String
  events : List Envelope
  traceId : String
  id : String
  deriving DecidableEq, Repr

/-- What is read of a folder so far. -/
structure EventParent.Draft where
  id : Option Int := none
  nodeId : Option String := none
  name : Option String := none

/-- The fields of a folder. -/
def EventParent.layout : Layout EventParent.Draft EventParent where
  title := "ChangelogParent"
  fields := [
    .ofReader "id" (·.id) (fun a s => { s with id := some a }) int64,
    .ofReader "nodeId" (·.nodeId) (fun a s => { s with nodeId := some a }) text,
    .ofReader "name" (·.name) (fun a s => { s with name := some a }) text]
  empty := {}
  finish s := do
    return ⟨← require "id" s.id, ← require "nodeId" s.nodeId, ← require "name" s.name⟩

/-- Writes a folder. -/
def EventParent.print (p : EventParent) : List Char :=
  printObject [("id", printInt p.id), ("nodeId", printText p.nodeId), ("name", printText p.name)]

/-- What is read of an event so far. -/
structure Event.Draft where
  id : Option Int := none
  nodeId : Option String := none
  name : Option String := none
  formerName : Option (Option String) := none
  parent : Option (Option EventParent) := none

/-- The fields of an event. -/
def Event.layout : Layout Event.Draft Event where
  title := "ChangelogEvent"
  fields := [
    .ofReader "id" (·.id) (fun a s => { s with id := some a }) int64,
    .ofReader "nodeId" (·.nodeId) (fun a s => { s with nodeId := some a }) text,
    .ofReader "name" (·.name) (fun a s => { s with name := some a }) text,
    (.ofReader "originalName" (·.formerName) (fun a s => { s with formerName := some a })
      (optional text) : FieldReader Event.Draft).orAbsent,
    (.ofReader "parent" (·.parent) (fun a s => { s with parent := some a })
      (optional (record EventParent.layout)) : FieldReader Event.Draft).orAbsent]
  empty := {}
  finish s := do
    return ⟨← require "id" s.id, ← require "nodeId" s.nodeId, ← require "name" s.name,
      orMissing s.formerName, orMissing s.parent⟩

/-- Reads an event. -/
def Event.reader : Reader Event := record Event.layout

/-- Writes an event. -/
def Event.print (e : Event) : List Char :=
  printObject <| [("id", printInt e.id), ("nodeId", printText e.nodeId), ("name", printText e.name)]
    ++ entryIfSome "originalName" printText e.formerName
    ++ entryIfSome "parent" EventParent.print e.parent

/-- Reads a timestamp from a text. -/
def Timestamp.reader : Reader Timestamp := fun depth cs => do
  let (s, cs) ← readText "an RFC 3339 formatted date and time string" depth cs
  match Timestamp.ofText s.toList with
  | some t => return (t, cs)
  | none => stopAt (.refused "input contains invalid characters") cs

/-- What is read of an envelope so far. -/
structure Envelope.Draft where
  type : Option String := none
  detail : Option Event := none
  time : Option Timestamp := none

/-- The fields of an envelope. -/
def Envelope.layout : Layout Envelope.Draft Envelope where
  title := "EventEnvelope"
  fields := [
    .ofReader "eventType" (·.type) (fun a s => { s with type := some a }) text,
    .ofReader "eventDetail" (·.detail) (fun a s => { s with detail := some a }) Event.reader,
    .ofReader "timestamp" (·.time) (fun a s => { s with time := some a }) Timestamp.reader]
  empty := {}
  finish s := do
    return ⟨← require "eventType" s.type, ← require "eventDetail" s.detail,
      ← require "timestamp" s.time⟩

/-- Writes an envelope. -/
def Envelope.print (e : Envelope) : List Char :=
  printObject [("eventType", printText e.type), ("eventDetail", e.detail.print),
    ("timestamp", printText (String.ofList e.time.print))]

/-- What is read of a job so far. -/
structure ChangelogJob.Draft where
  org : Option Int := none
  datasetId : Option Int := none
  userId : Option String := none
  events : Option (List Envelope) := none
  traceId : Option String := none
  id : Option String := none

/-- The fields of a job. -/
def ChangelogJob.layout : Layout ChangelogJob.Draft ChangelogJob where
  title := "ChangelogJob"
  fields := [
    .ofReader "organizationId" (·.org) (fun a s => { s with org := some a }) int64,
    .ofReader "datasetId" (·.datasetId) (fun a s => { s with datasetId := some a }) int64,
    .ofReader "userId" (·.userId) (fun a s => { s with userId := some a }) text,
    .ofReader "events" (·.events) (fun a s => { s with events := some a })
      (list (record Envelope.layout)),
    .ofReader "traceId" (·.traceId) (fun a s => { s with traceId := some a }) text,
    .ofReader "id" (·.id) (fun a s => { s with id := some a }) text]
  empty := {}
  finish s := do
    return ⟨← require "organizationId" s.org, ← require "datasetId" s.datasetId,
      ← require "userId" s.userId, ← require "events" s.events, ← require "traceId" s.traceId,
      ← require "id" s.id⟩

/-- The field of a changelog message that holds its job. -/
def ChangelogJob.messageKey : String := "DatasetChangelogEventJob"

/-- The fields of a changelog message, which holds one job. -/
def ChangelogJob.messageLayout : Layout (Option ChangelogJob) ChangelogJob where
  title := "ChangelogMessage"
  fields := [.ofReader messageKey (fun s => s) (fun a _ => some a) (record ChangelogJob.layout)]
  empty := none
  finish := require messageKey

/-- Reads a changelog message. -/
def ChangelogJob.reader : Reader ChangelogJob := record ChangelogJob.messageLayout

/-- Writes a changelog message. -/
def ChangelogJob.print (j : ChangelogJob) : List Char :=
  printObject [(messageKey, printObject [("organizationId", printInt j.org),
    ("datasetId", printInt j.datasetId), ("userId", printText j.userId),
    ("events", printList (j.events.map Envelope.print)), ("traceId", printText j.traceId),
    ("id", printText j.id)])]

/-- The type of the events of a restore. -/
def Event.type : String := "RESTORE_PACKAGE"

/-- The job that reports restores at a moment. -/
def ChangelogJob.ofRestores (org datasetId : Int) (userId : String) (events : List Event)
    (now : Timestamp) (traceId id : String) : ChangelogJob :=
  ⟨org, datasetId, userId, events.map fun e => ⟨Event.type, e, now⟩, traceId, id⟩

end Salvage
