import Salvage.Message
import Salvage.Name

/-!
# Events

One event per package that was brought back. It names the package as it is called now, tells the old
name if the package could not get it back, and names its folder if that came back with it.
-/

namespace Salvage

/-- The folder of a package. -/
structure EventParent where
  id : Int
  nodeId : String
  name : String
  deriving DecidableEq, Repr

/-- A package was brought back. -/
structure Event where
  id : Int
  nodeId : String
  name : String
  /-- The name before the package was trashed, if it is another one. -/
  formerName : Option String
  parent : Option EventParent
  deriving DecidableEq, Repr

namespace Event

/-- The event of a package that has a name again. -/
def ofRestored (info : PackageInfo) (r : Name.Restored) (parent : Option EventParent) : Event :=
  ⟨info.id, info.nodeId, r.name, r.displaced, parent⟩

/-- A folder as its children's events name it. -/
def asParent (info : PackageInfo) (r : Name.Restored) : EventParent :=
  ⟨info.id, info.nodeId, r.name⟩

end Event

end Salvage
