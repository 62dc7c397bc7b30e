import Salvage.Item
import Salvage.Provider

/-!
# Delete records at a provider

Delete records in a table of a record service. The service names in its reply the keys it did not
get to, which are asked for again.
-/

namespace Salvage

/-- A call of the record service. -/
inductive RecordCall where
  /-- Reads the items with some keys from a table. -/
  | get (table : String) (keys : List Item) (projection : String)
  /-- Deletes the items with some keys from a table. -/
  | remove (table : String) (keys : List Item)
  deriving Repr

/-- A reply of the record service. -/
structure RecordReply where
  /-- The items that were found, by table. -/
  items : List (String × List Item)
  /-- The keys that the service did not get to, by table. -/
  unprocessed : List (String × List Item)
  deriving Repr

/-- A record service. -/
abbrev RecordService := Provider RecordCall RecordReply

namespace RecordService

/-- The attributes that a delete record is read from. -/
def projection : String := "NodeId, S3Bucket, S3Key, S3ObjectVersion, ObjectSize"

/-- The node ids of a table that a reply leaves unprocessed. -/
def leftOver (table : String) (r : RecordReply) : List String :=
  ((r.unprocessed.lookup table).getD []).filterMap Item.nodeId?

/-- The delete records of a table in a reply. -/
def found (table : String) (r : RecordReply) : Except Error (List DeleteRecord) :=
  match r.items.lookup table with
  | some items => items.mapM DeleteRecord.ofItem
  | none => .error (.recordStore s!"no responses for table {table}")

/-- Reads delete records from a table. -/
def read (table : String) : Batch.Operation RecordService String (List DeleteRecord) where
  name := "dynamodb batch get delete records"
  limit := RecordTable.readLimit
  submit nodeIds := do
    let reply ← Provider.call .recordStore (.get table (nodeIds.map Item.keyOf) projection)
    let records ← Action.ofOutcome (.ofExcept (found table reply))
    return ⟨records, leftOver table reply⟩

/-- Removes delete records from a table. -/
def remove (table : String) : Batch.Operation RecordService String Unit where
  name := "dynamodb batch remove delete records"
  limit := RecordTable.removeLimit
  submit nodeIds := do
    let reply ← Provider.call .recordStore (.remove table (nodeIds.map Item.keyOf))
    return ⟨(), leftOver table reply⟩

/-- The delete records of some node ids; of several with one node id, the last. -/
def readAll (table : String) (b : Backoff) (random : Nat → Nat) (nodeIds : List String) :
    Action (Batch.Clocked RecordService) RecordSet := do
  let outputs ← (Batch.run (read table) b random nodeIds).context
    s!"error reading delete records from {table}"
  return RecordSet.ofList outputs.flatten

/-- Removes the delete records of some node ids. -/
def removeAll (table : String) (b : Backoff) (random : Nat → Nat) (nodeIds : List String) :
    Action (Batch.Clocked RecordService) Unit := do
  let _ ← (Batch.run (remove table) b random nodeIds).context
    s!"error removing delete records from {table}"
  return ()

end RecordService

end Salvage
