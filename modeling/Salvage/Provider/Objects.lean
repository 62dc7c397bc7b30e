import Salvage.Objects
import Salvage.Provider
import Salvage.Text.Blank

/-!
# Object versions at a provider

Versions of objects in the buckets of an object service. The service reports keys only, so a report
is matched with the request by key: of several versions with one key in a request, the last stands
for all.
-/

namespace Salvage

/-- A call of the object service: the versions to delete in a bucket, each with its key. -/
structure ObjectCall where
  bucket : String
  versions : List (String × String)
  deriving DecidableEq, Repr

/-- A version that the service reports as deleted. Everything about it may be missing. -/
structure ReportedDeletion where
  key : Option String
  isMarker : Option Bool
  deriving DecidableEq, Repr

/-- A version that the service could not delete. Everything about it may be missing. -/
structure ReportedError where
  key : Option String
  versionId : Option String
  code : Option String
  message : Option String
  deriving DecidableEq, Repr

/-- A reply of the object service. -/
structure ObjectReply where
  deleted : List ReportedDeletion
  errors : List ReportedError
  deriving DecidableEq, Repr

/-- An object service. -/
abbrev ObjectService := Provider ObjectCall ObjectReply

namespace ObjectService

/-- The node that a key of a request stands for. -/
def nodeOf? (versions : List ObjectVersion) (key : String) : Option String :=
  (versions.reverse.find? fun v => v.key == key).map ObjectVersion.nodeId

/-- A reported deletion of a version that was asked for. -/
def deletion? (bucket : String) (versions : List ObjectVersion) (r : ReportedDeletion) :
    Option DeletedVersion :=
  let key := r.key.getD ""
  (nodeOf? versions key).map fun nodeId => ⟨nodeId, bucket, key, r.isMarker.getD false⟩

/-- A reported error, with the node it is about if that was asked for. -/
def errorOf (bucket : String) (versions : List ObjectVersion) (r : ReportedError) : VersionError :=
  let key := r.key.getD ""
  ⟨nodeOf? versions key, bucket, key, r.versionId, r.code.getD "", r.message.getD ""⟩

/-- What a reply says of the versions of a request. Deletions of anything else are dropped. -/
def reportOf (bucket : String) (versions : List ObjectVersion) (r : ObjectReply) : DeletionReport :=
  ⟨r.deleted.filterMap (deletion? bucket versions), r.errors.map (errorOf bucket versions)⟩

/-- The request that deletes versions in a bucket. A bucket without a name is never asked. -/
def delete (bucket : String) : Batch.Operation ObjectService ObjectVersion DeletionReport where
  name := "s3 delete object versions"
  limit := ObjectVersion.deleteLimit
  submit versions := do
    if Text.trimmed bucket.toList = [] then Provider.refuse .objectStore
    else
      let reply ← Provider.call .objectStore
        ⟨bucket, versions.map fun v => (v.key, v.versionId)⟩
      return ⟨reportOf bucket versions reply, []⟩

/-- Deletes versions. -/
def deleteAll (b : Backoff) (random : Nat → Nat) (versions : List ObjectVersion) :
    Action (Batch.Clocked ObjectService) DeletionReport :=
  ObjectVersion.deleteByBucket delete b random versions

end ObjectService

end Salvage
