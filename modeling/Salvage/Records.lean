import Salvage.Batch

/-!
# Delete records

When a leaf is trashed its stored object is hidden behind a delete marker, and a delete record keeps
where that marker is. Records are looked up and removed by node id in batches. A throttled table
leaves the last item of each request unprocessed for a while.
-/

namespace Salvage

/-- Where the delete marker of a trashed leaf is. -/
structure DeleteRecord where
  nodeId : String
  bucket : String
  key : String
  /-- The version of the marker; empty if the content was never hidden. -/
  versionId : String
  size : Option Int
  deriving DecidableEq, Repr

/-- Delete records, at most one per node id. -/
structure RecordSet where
  rows : List DeleteRecord
  deriving DecidableEq, Repr

namespace RecordSet

/-- No records. -/
def empty : RecordSet := ⟨[]⟩

/-- The record of a node id. -/
def find? (s : RecordSet) (nodeId : String) : Option DeleteRecord :=
  s.rows.find? fun r => r.nodeId == nodeId

/-- Removes the record of a node id. -/
def erase (s : RecordSet) (nodeId : String) : RecordSet :=
  ⟨s.rows.filter fun r => r.nodeId != nodeId⟩

/-- Adds a record in place of the one with its node id. -/
def put (s : RecordSet) (r : DeleteRecord) : RecordSet :=
  ⟨r :: (s.erase r.nodeId).rows⟩

/-- The records of a list; of several with one node id, the last. -/
def ofList (records : List DeleteRecord) : RecordSet :=
  records.foldl put empty

/-- The records in the order of their node ids. -/
def sorted (s : RecordSet) : List DeleteRecord :=
  s.rows.mergeSort fun a b => decide (a.nodeId ≤ b.nodeId)

end RecordSet

/-- A table of delete records, with the sizes of the requests it has seen. -/
structure RecordTable where
  records : RecordSet
  /-- How many requests leave their last item unprocessed. -/
  throttled : Nat
  getSizes : List Nat
  removeSizes : List Nat
  deriving DecidableEq, Repr

namespace RecordTable

/-- The greatest number of records read by one request. -/
def readLimit : Nat := 100

/-- The greatest number of records removed by one request. -/
def removeLimit : Nat := 25

/-- A table without records. -/
def empty : RecordTable := ⟨.empty, 0, [], []⟩

/-- Splits the items of a request into those it processes and those it does not. -/
def throttle (items : List String) : Action RecordTable (List String × List String) := do
  let t ← Action.get
  if t.throttled = 0 ∨ items = [] then return (items, [])
  else
    Action.set { t with throttled := t.throttled - 1 }
    return (items.dropLast, items.getLast?.toList)

/-- Reads the records of some node ids. -/
def read : Batch.Operation RecordTable String (List DeleteRecord) where
  name := "memory batch get"
  limit := readLimit
  submit nodeIds := do
    Action.modify fun t => { t with getSizes := t.getSizes ++ [nodeIds.length] }
    let (processed, unprocessed) ← throttle nodeIds
    let t ← Action.get
    return ⟨processed.filterMap t.records.find?, unprocessed⟩

/-- Removes the records of some node ids. -/
def remove : Batch.Operation RecordTable String Unit where
  name := "memory batch remove"
  limit := removeLimit
  submit nodeIds := do
    Action.modify fun t => { t with removeSizes := t.removeSizes ++ [nodeIds.length] }
    let (processed, unprocessed) ← throttle nodeIds
    Action.modify fun t => { t with records := processed.foldl RecordSet.erase t.records }
    return ⟨(), unprocessed⟩

/-- Runs a request over any number of node ids without waiting. -/
def run {ο : Type} (op : Batch.Operation RecordTable String ο) (nodeIds : List String) :
    Action RecordTable (List ο) :=
  Batch.unclocked (Batch.run op .immediate (fun _ => 0) nodeIds)

/-- The records of some node ids. Node ids without a record have none in the result. -/
def readAll (nodeIds : List String) : Action RecordTable RecordSet := do
  let outputs ← run read nodeIds
  return RecordSet.ofList outputs.flatten

/-- Removes the records of some node ids. -/
def removeAll (nodeIds : List String) : Action RecordTable Unit := do
  let _ ← run remove nodeIds
  return ()

end RecordTable

end Salvage
