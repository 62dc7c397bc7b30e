import Salvage.Package.Kind
import Salvage.Text.Quoted

/-!
# States of packages

The states a package goes through, their names, and the state in which a restored package ends.
-/

namespace Salvage.Package

/-- Where a package is in its life. -/
inductive State where
  | unavailable
  | uploaded
  | processing
  | ready
  | deleting
  | deleted
  | restoring
  deriving DecidableEq, Repr

namespace State

/-- Every state. -/
def all : List State :=
  [.unavailable, .uploaded, .processing, .ready, .deleting, .deleted, .restoring]

/-- The name of a state, as it is stored and sent. -/
def name : State → String
  | .unavailable => "UNAVAILABLE"
  | .uploaded => "UPLOADED"
  | .processing => "PROCESSING"
  | .ready => "READY"
  | .deleting => "DELETING"
  | .deleted => "DELETED"
  | .restoring => "RESTORING"

/-- The names with their states. -/
def named : List (String × State) :=
  all.map fun s => (s.name, s)

/-- The state of a name. -/
def ofName? (s : String) : Option State :=
  named.lookup s

/-- What is said of a text that names no state. -/
def unknownMessage (s : String) : String :=
  "unknown package state " ++ Text.quoted s

/-- The state in which a restored package ends: a folder is ready, content is uploaded. -/
def restored (k : Kind) : State :=
  if k.isCollection then .ready else .uploaded

end State

end Salvage.Package
