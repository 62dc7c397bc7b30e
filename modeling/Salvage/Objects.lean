import Salvage.Batch

/-!
# Object versions

Objects lie under a key in a bucket, in versions of which some are delete markers. Versions are
deleted in batches, one bucket after another in ascending order. A version that cannot be deleted is
reported beside those that were; a request that fails ends the deletion.
-/

namespace Salvage

/-- A version to delete, and the node whose content it hides. -/
structure ObjectVersion where
  nodeId : String
  bucket : String
  key : String
  versionId : String
  deriving DecidableEq, Repr

/-- A version that is deleted. -/
structure DeletedVersion where
  nodeId : String
  bucket : String
  key : String
  /-- Whether the version was a delete marker. -/
  wasMarker : Bool
  deriving DecidableEq, Repr

/-- A version that could not be deleted. -/
structure VersionError where
  nodeId : Option String
  bucket : String
  key : String
  versionId : Option String
  code : String
  message : String
  deriving DecidableEq, Repr

/-- What became of versions that were to be deleted. -/
structure DeletionReport where
  deleted : List DeletedVersion
  errors : List VersionError
  deriving DecidableEq, Repr

namespace DeletionReport

/-- Nothing was to be deleted. -/
def empty : DeletionReport := ⟨[], []⟩

/-- One report after another. -/
def append (a b : DeletionReport) : DeletionReport :=
  ⟨a.deleted ++ b.deleted, a.errors ++ b.errors⟩

/-- All of some reports in order. -/
def concat (reports : List DeletionReport) : DeletionReport :=
  ⟨reports.flatMap DeletionReport.deleted, reports.flatMap DeletionReport.errors⟩

end DeletionReport

namespace ObjectVersion

/-- The greatest number of versions deleted by one request. -/
def deleteLimit : Nat := 1000

/-- The buckets of some versions in ascending order, each once. -/
def buckets (versions : List ObjectVersion) : List String :=
  (versions.map ObjectVersion.bucket).eraseDups.mergeSort fun a b => decide (a ≤ b)

/-- The versions of each bucket, in their order. -/
def byBucket (versions : List ObjectVersion) : List (String × List ObjectVersion) :=
  (buckets versions).map fun b => (b, versions.filter fun v => v.bucket == b)

variable {σ : Type}

/-- Deletes versions one bucket at a time, by the requests that `op` makes for a bucket. -/
def deleteByBucket (op : String → Batch.Operation σ ObjectVersion DeletionReport) (b : Backoff)
    (random : Nat → Nat) (versions : List ObjectVersion) :
    Action (Batch.Clocked σ) DeletionReport := do
  let reports ← Action.each
    (fun group =>
      (Batch.run (op group.1) b random group.2).context
        s!"error deleting object versions in bucket {group.1}")
    (byBucket versions)
  return .concat reports.flatten

end ObjectVersion

/-- A version as it is stored. -/
structure StoredVersion where
  versionId : String
  isMarker : Bool
  deriving DecidableEq, Repr

/-- The versions under a key of a bucket, oldest first. -/
structure StoredObject where
  bucket : String
  key : String
  versions : List StoredVersion
  deriving DecidableEq, Repr

/-- Versioned buckets, and the requests they have seen. -/
structure ObjectTable where
  /-- At most one row per bucket and key. -/
  objects : List StoredObject
  /-- The keys whose versions cannot be deleted. -/
  failingKeys : List String
  /-- Whether every request fails. -/
  isDown : Bool
  /-- The bucket and the number of versions of each request. -/
  requests : List (String × Nat)
  deriving DecidableEq, Repr

namespace ObjectTable

/-- Buckets without objects. -/
def empty : ObjectTable := ⟨[], [], false, []⟩

/-- The row is that of a bucket and key. -/
def isAt (bucket key : String) (o : StoredObject) : Bool :=
  o.bucket == bucket && o.key == key

/-- The versions under a key of a bucket. -/
def versions (t : ObjectTable) (bucket key : String) : List StoredVersion :=
  ((t.objects.find? (isAt bucket key)).map StoredObject.versions).getD []

/-- Adds a version under a key of a bucket. -/
def putVersion (t : ObjectTable) (bucket key : String) (v : StoredVersion) : ObjectTable :=
  if t.objects.any (isAt bucket key) then
    { t with objects := t.objects.map fun o =>
        if isAt bucket key o then { o with versions := o.versions ++ [v] } else o }
  else { t with objects := t.objects ++ [⟨bucket, key, [v]⟩] }

/-- Removes the first version with an id under a key of a bucket. -/
def eraseVersion (t : ObjectTable) (bucket key versionId : String) : ObjectTable :=
  { t with objects := t.objects.map fun o =>
      if isAt bucket key o then
        { o with versions := o.versions.eraseP fun v => v.versionId == versionId }
      else o }

/-- The objects in the order of their buckets and keys. -/
def sorted (t : ObjectTable) : List StoredObject :=
  t.objects.mergeSort fun a b =>
    decide (a.bucket < b.bucket) || (a.bucket == b.bucket && decide (a.key ≤ b.key))

/-- The report that a version cannot be deleted. -/
def denied (v : ObjectVersion) : VersionError :=
  ⟨some v.nodeId, v.bucket, v.key, some v.versionId, "AccessDenied", "Access Denied"⟩

/-- Deletes one version. A version that is not there counts as deleted. -/
def deleteOne (r : DeletionReport) (t : ObjectTable) (v : ObjectVersion) :
    DeletionReport × ObjectTable :=
  if t.failingKeys.contains v.key then ({ r with errors := r.errors ++ [denied v] }, t)
  else
    let found := (t.versions v.bucket v.key).find? fun s => s.versionId == v.versionId
    let deleted : DeletedVersion := ⟨v.nodeId, v.bucket, v.key, found.any StoredVersion.isMarker⟩
    ({ r with deleted := r.deleted ++ [deleted] }, t.eraseVersion v.bucket v.key v.versionId)

/-- The request that deletes versions in a bucket. -/
def delete (bucket : String) : Batch.Operation ObjectTable ObjectVersion DeletionReport where
  name := "memory delete versions"
  limit := ObjectVersion.deleteLimit
  submit versions := do
    let t ← Action.get
    if t.isDown then Action.fail (.objectStore s!"connection reset deleting from {bucket}")
    else
      let t := { t with requests := t.requests ++ [(bucket, versions.length)] }
      let (report, t) := versions.foldl (fun s v => deleteOne s.1 s.2 v) (.empty, t)
      Action.set t
      return ⟨report, []⟩

/-- Deletes versions without waiting. -/
def deleteAll (versions : List ObjectVersion) : Action ObjectTable DeletionReport :=
  Batch.unclocked (ObjectVersion.deleteByBucket delete .immediate (fun _ => 0) versions)

end ObjectTable

end Salvage
