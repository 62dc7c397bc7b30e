import Salvage.Totals
import Salvage.Package.Basic

/-!
# Tables of a workspace

The rows of one workspace: datasets, packages, source files of packages, and the storage totals of
packages, datasets and organizations. Datasets and packages draw their numbers from one counter and
are kept in the order of their numbers, so the first row that fits is the one with the least number.
-/

namespace Salvage

/-- A source file of a package. -/
structure FileRow where
  packageId : Int
  size : Int
  deriving DecidableEq, Repr

/-- The rows of a workspace. -/
structure Tables where
  /-- The last number that was given out. -/
  lastId : Int
  datasets : List Dataset
  packages : List Package
  files : List FileRow
  packageStorage : Totals
  datasetStorage : Totals
  organizationStorage : Totals
  deriving DecidableEq, Repr

namespace Tables

/-- A workspace without rows. -/
def empty : Tables := ⟨0, [], [], [], .empty, .empty, .empty⟩

/-- The next number of a dataset or package. -/
def nextId (t : Tables) : Int := t.lastId + 1

/-- The package with a number. -/
def package? (t : Tables) (id : Int) : Option Package :=
  t.packages.find? fun p => p.id == id

/-- The package of a dataset with a node id. -/
def packageByNode? (t : Tables) (datasetId : Int) (nodeId : String) : Option Package :=
  t.packages.find? fun p => p.datasetId == datasetId && p.nodeId == nodeId

/-- The dataset with a node id. -/
def datasetByNode? (t : Tables) (nodeId : String) : Option Dataset :=
  t.datasets.find? fun d => d.nodeId == some nodeId

/-- The packages directly below a package, in the order of their numbers. -/
def childrenOf (t : Tables) (id : Int) : List Package :=
  t.packages.filter fun p => p.parentId == some id

/-- A sibling of the package has a name. -/
def siblingHasName (t : Tables) (p : Package) (name : String) : Bool :=
  t.packages.any fun q => p.isSiblingOf q && q.name == name

/-- Changes the packages that satisfy a condition. -/
def change (t : Tables) (which : Package → Bool) (f : Package → Package) : Tables :=
  { t with packages := t.packages.map fun p => if which p then f p else p }

/-- Changes the package with a number. -/
def changeId (t : Tables) (id : Int) (f : Package → Package) : Tables :=
  t.change (fun p => p.id == id) f

/-- Adds a dataset, which gets the next number. -/
def insertDataset (t : Tables) (name : String) (nodeId : Option String) : Dataset × Tables :=
  let d : Dataset := ⟨t.nextId, name, nodeId⟩
  (d, { t with lastId := d.id, datasets := t.datasets ++ [d] })

/-- Adds a package, which gets the next number, and its source files. -/
def insertPackage (t : Tables) (p : Package) (sizes : List Int) : Package × Tables :=
  let p := { p with id := t.nextId }
  (p, { t with
    lastId := p.id
    packages := t.packages ++ [p]
    files := t.files ++ sizes.map fun size => ⟨p.id, size⟩ })

/-- Sums the source files of some packages, row by row. A package without files has no sum. -/
def fileSizes (t : Tables) (ids : List Int) : Option Totals :=
  (t.files.filter fun f => ids.contains f.packageId).foldlM
    (fun sums f => sums.add f.packageId f.size) .empty

end Tables

end Salvage
