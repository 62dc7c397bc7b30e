import Salvage.Name
import Salvage.Tables.Traversal

/-!
# Trashing packages

A package goes to the trash together with everything below it. Each row gets its prefixed name and
the deleted state, and keeps its update time; a row that is deleted already stays as it is.
-/

namespace Salvage

/-- The row of a package in the trash. -/
def Package.trashed (p : Package) : Package :=
  if p.state = .deleted then p
  else { p with name := Name.deletedPrefix p.nodeId ++ p.name, state := .deleted }

namespace Tables

/-- The numbers of all packages below a package. -/
def subtreeIds (t : Tables) (id : Int) : List Int :=
  (t.below (fun _ => true) (fun _ => true) t.depth (fun _ => true) [id]).map Package.id

/-- Trashes a package and everything below it. -/
def trash (t : Tables) (id : Int) : Tables :=
  let ids := id :: t.subtreeIds id
  t.change (fun p => ids.contains p.id) Package.trashed

end Tables

end Salvage
