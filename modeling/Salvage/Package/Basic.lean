import Salvage.Package.State

/-!
# Packages and datasets

The rows of a workspace: datasets, and the packages that form the tree below each of them. A package
without a parent lies at the top of its dataset.
-/

namespace Salvage

/-- A file or folder of a dataset. -/
structure Package where
  id : Int
  name : String
  kind : Package.Kind
  state : Package.State
  nodeId : String
  parentId : Option Int
  datasetId : Int
  /-- The user who owns the package; every row that is inserted belongs to the first one. -/
  ownerId : Int := 1
  /-- The size that the row itself records. -/
  size : Option Int
  /-- Whether the row has a later update time than its insertion. -/
  touched : Bool
  deriving DecidableEq, Repr

/-- A dataset of a workspace. -/
structure Dataset where
  id : Int
  name : String
  nodeId : Option String
  deriving DecidableEq, Repr

namespace Package

/-- Two packages are siblings when they lie in the same folder of the same dataset. -/
def isSiblingOf (p q : Package) : Bool :=
  p.id != q.id && p.datasetId == q.datasetId && p.parentId == q.parentId

/-- The package in another state, with a new update time. -/
def moveTo (target : State) (p : Package) : Package :=
  { p with state := target, touched := true }

/-- The package under another name. -/
def rename (name : String) (p : Package) : Package :=
  { p with name }

end Package

end Salvage
