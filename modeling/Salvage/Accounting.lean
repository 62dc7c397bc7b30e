import Salvage.Message
import Salvage.Records
import Salvage.Transaction

/-!
# Accounting for restored leaves

A leaf that comes back brings its size with it: into its own total, those of all folders above it,
and those of the dataset and the organization.
-/

namespace Salvage.Accounting

/-- The size that a leaf brings back: the one carried by the message, or the sum of its source
files, or the size on its delete record, or nothing. -/
def sizeOf (files : Totals) (records : RecordSet) (leaf : PackageInfo) : Int :=
  let recorded := (records.find? leaf.nodeId).bind DeleteRecord.size
  (leaf.size.or ((files.find? leaf.id).or recorded)).getD 0

/-- The sizes of some leaves by their numbers. -/
def leafSizes (leaves : List PackageInfo) (records : RecordSet) : Action Transaction Totals := do
  let unsized := (leaves.filter fun leaf => leaf.size.isNone).map PackageInfo.id
  let files ← Transaction.fileSizes unsized
  return leaves.foldl (fun sizes leaf => sizes.put leaf.id (sizeOf files records leaf)) .empty

/-- Adds the size of a leaf to its own total and to the totals above it. -/
def addLeaf (leaf : PackageInfo) (size : Int) : Action Transaction Unit := do
  Transaction.addToPackage leaf.id size
  match leaf.parentId with
  | none => return ()
  | some parent => Transaction.addToAncestors parent size

/-- Adds the sizes of leaves to the totals up to their datasets, and to a sum. -/
def addLeaves (sizes : Totals) : Int → List PackageInfo → Action Transaction Int
  | sum, [] => return sum
  | sum, leaf :: rest => do
    let size := sizes.get leaf.id
    if size = 0 then addLeaves sizes sum rest
    else
      addLeaf leaf size
      let sum ← Action.orAbort (sum? sum size)
      addLeaves sizes sum rest

/-- Adds the sizes of leaves to all totals that they count for, and returns their sum. -/
def propagate (datasetId : Int) (leaves : List PackageInfo) (sizes : Totals) :
    Action Transaction Int := do
  let total ← addLeaves sizes 0 leaves
  if total ≠ 0 then
    Transaction.addToDataset datasetId total
    Transaction.addToOrganization (← Action.get).org total
  return total

end Salvage.Accounting
