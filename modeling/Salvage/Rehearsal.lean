import Salvage.Objects

/-!
# Rehearsed requests

Batch operations that follow a plan instead of asking a provider: a script that says for each
request whether it fails and how much it leaves unprocessed, and buckets some of which are down and
some of whose keys cannot be deleted. They show what a batch does with every kind of reply. A queue
with a plan shows how messages are acknowledged.
-/

namespace Salvage

/-- What a rehearsed request does. -/
inductive ScriptLine where
  /-- It fails. -/
  | fail (text : String)
  /-- It leaves a number of items at the end unprocessed. -/
  | leave (count : Nat)
  deriving DecidableEq, Repr

/-- The lines still to come, and the items of the requests made so far. -/
structure Script (ι : Type) where
  lines : List ScriptLine
  requests : List (List ι)
  deriving Repr

/-- The operation that follows a script. A request behind the end of the script processes all its
items; what a request processes is its output. -/
def Script.operation {ι : Type} (limit : Nat) : Batch.Operation (Script ι) ι (List ι) where
  name := "scripted"
  limit := limit
  submit items := do
    let s ← Action.get
    Action.set ⟨s.lines.drop 1, s.requests ++ [items]⟩
    match s.lines.head? with
    | some (.fail text) => Action.fail (.objectStore text)
    | some (.leave n) =>
      let count := items.length - n
      return ⟨items.take count, items.drop count⟩
    | none => return ⟨items, []⟩

/-- Buckets that follow fixed rules. -/
structure BucketPlan where
  failingKeys : List String
  downBuckets : List String
  /-- How many requests leave their last item unprocessed. -/
  throttled : Nat
  /-- The bucket and the number of versions of each request. -/
  requests : List (String × Nat)
  deriving DecidableEq, Repr

/-- The request that deletes versions in a bucket of a plan. What can be deleted is a marker. -/
def BucketPlan.delete (limit : Nat) (bucket : String) :
    Batch.Operation BucketPlan ObjectVersion DeletionReport where
  name := "scripted delete"
  limit := limit
  submit versions := do
    let p ← Action.get
    let p := { p with requests := p.requests ++ [(bucket, versions.length)] }
    if p.downBuckets.contains bucket then do
      Action.set p
      Action.fail (.objectStore "bucket down")
    else
      let count := if p.throttled = 0 then versions.length else versions.length - 1
      Action.set { p with throttled := p.throttled - 1 }
      let (bad, good) := (versions.take count).partition fun v => p.failingKeys.contains v.key
      let deleted := good.map fun v => (⟨v.nodeId, v.bucket, v.key, true⟩ : DeletedVersion)
      return ⟨⟨deleted, bad.map ObjectTable.denied⟩, versions.drop count⟩

/-- A queue that refuses to delete some messages. -/
structure ReceiptPlan where
  refused : List String
  /-- The text of a refusal. -/
  text : String
  /-- The receipts of the deletions asked for, and whether they were accepted. -/
  deletions : List (String × Bool)
  deriving DecidableEq, Repr

/-- Deletes a message of a queue of a plan. -/
def ReceiptPlan.delete (receipt : String) : Action ReceiptPlan Unit := do
  let p ← Action.get
  let accepted := !p.refused.contains receipt
  Action.set { p with deletions := p.deletions ++ [(receipt, accepted)] }
  if accepted then return () else Action.fail (.queue p.text)

end Salvage
