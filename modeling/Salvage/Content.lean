import Salvage.Records
import Salvage.Objects

/-!
# Bringing content back

The content of a trashed leaf is there again when its delete marker is gone. Markers are deleted
first and their records after them, so a record is never lost while its marker still hides content.
-/

namespace Salvage

/-- The delete records and the stored objects. -/
structure Content where
  records : RecordTable
  objects : ObjectTable
  deriving DecidableEq, Repr

namespace Content

variable {α : Type}

/-- An action on the delete records. -/
def onRecords (x : Action RecordTable α) : Action Content α :=
  x.on Content.records fun r c => { c with records := r }

/-- An action on the stored objects. -/
def onObjects (x : Action ObjectTable α) : Action Content α :=
  x.on Content.objects fun o c => { c with objects := o }

/-- The version of the delete marker that a record tells of. -/
def markerOf (r : DeleteRecord) : ObjectVersion :=
  ⟨r.nodeId, r.bucket, r.key, r.versionId⟩

/-- What is said when some of the markers could not be deleted. -/
def markersLeft (errors : List VersionError) (first : VersionError) (count : Nat) : Error :=
  .objectStore <|
    s!"{errors.length} of {count} delete markers could not be removed, " ++
      s!"first: {first.bucket}/{first.key}: {first.code} {first.message}"

/-- Brings back the content of some leaves and returns the delete records it found. A record without
a version is removed at once; one whose marker could not be deleted stays. -/
def undelete (nodeIds : List String) : Action Content RecordSet :=
  if nodeIds.isEmpty then return .empty
  else do
    let records ← onRecords (RecordTable.readAll nodeIds)
    let found := nodeIds.filterMap records.find?
    let (hidden, plain) := found.partition fun r => !r.versionId.isEmpty
    let markers := hidden.map markerOf
    let report ← onObjects (ObjectTable.deleteAll markers)
    let cleared := plain.map DeleteRecord.nodeId ++ report.deleted.map DeletedVersion.nodeId
    onRecords (RecordTable.removeAll cleared)
    match report.errors with
    | [] => return records
    | first :: _ => Action.fail (markersLeft report.errors first markers.length)

end Content

end Salvage
