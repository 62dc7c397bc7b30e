import Salvage.Package.Basic

/-!
# Messages

What callers ask for and are told, and the unit of work on the restore queue: one top-level package
to bring back.
-/

namespace Salvage

/-- What has to be known of a package to bring it back. -/
structure PackageInfo where
  id : Int
  nodeId : String
  name : String
  parentId : Option Int
  kind : Package.Kind
  /-- A size that goes before every other record of it. -/
  size : Option Int
  deriving DecidableEq, Repr

/-- What a row says of its package. Sizes are found out later. -/
def PackageInfo.ofPackage (p : Package) : PackageInfo :=
  ⟨p.id, p.nodeId, p.name, p.parentId, p.kind, none⟩

/-- One top-level package to bring back. -/
structure RestoreMessage where
  org : Int
  datasetId : Int
  userId : String
  package : PackageInfo
  deriving DecidableEq, Repr

/-- The node ids of packages to bring back. -/
structure RestoreRequest where
  nodeIds : List String
  deriving DecidableEq, Repr

/-- A package that was asked for and is not brought back. -/
structure Failure where
  id : String
  error : String
  deriving DecidableEq, Repr

/-- What became of a request. -/
structure RestoreResponse where
  success : List String
  failures : List Failure
  deriving DecidableEq, Repr

/-- A message as it comes from a queue. -/
structure QueueMessage where
  id : String
  /-- The handle by which this delivery of the message is acknowledged. -/
  receipt : String
  body : String
  deriving DecidableEq, Repr

end Salvage
