import Salvage.Json.Fault
import Salvage.Package.Kind

/-!
# Errors

The causes for which a restore or a request fails. Callers branch on the kind of an error, never on
its cause: an entity that is missing, a name that is taken, a failure that may pass, or any other.
Wrapping an error into a context changes its wording only; `kind_context` says so.
-/

namespace Salvage

/-- A package or dataset is addressed by its number or by its node id. -/
inductive EntityRef where
  | id (value : Int)
  | nodeId (value : String)
  deriving DecidableEq, Repr

/-- How a message shows a reference. -/
def EntityRef.describe : EntityRef → String
  | .id n => toString n
  | .nodeId s => s

/-- What can go wrong between the program and its database. -/
inductive DatabaseError where
  | rowNotFound
  | poolTimedOut
  | poolClosed
  | workerCrashed
  | connection (text : String)
  | protocol (text : String)
  | columnNotFound (name : String)
  /-- The database refused a statement, with its code and the constraint that failed. -/
  | rejected (code constraint : Option String)
  deriving DecidableEq, Repr

namespace DatabaseError

/-- The wording of a database error. -/
def message : DatabaseError → String
  | .rowNotFound => "no rows returned by a query that expected to return at least one row"
  | .poolTimedOut => "pool timed out while waiting for an open connection"
  | .poolClosed => "attempted to acquire a connection on a closed pool"
  | .workerCrashed => "attempted to communicate with a crashed background worker"
  | .connection text => "error communicating with database: " ++ text
  | .protocol text => "encountered unexpected or invalid data: " ++ text
  | .columnNotFound name => "no column found for name: " ++ name
  | .rejected .. => "error returned from database: database error"

/-- The errors behind a database error, outermost first. -/
def causes : DatabaseError → List String
  | .connection text => [text]
  | .rejected .. => ["database error"]
  | _ => []

/-- A failure of the connection may pass. -/
def isTransient : DatabaseError → Bool
  | .connection _ | .poolTimedOut | .poolClosed => true
  | _ => false

end DatabaseError

/-- Why an operation failed. -/
inductive Error where
  | datasetNotFound (org : Int) (dataset : EntityRef)
  | packageNotFound (org : Int) (dataset : Option EntityRef) (package : EntityRef)
  | folderNotFound (org : Int) (dataset : EntityRef) (nodeId : String)
      (actual : Option Package.Kind)
  | nameTaken (org package : Int) (name cause : String)
  | invalidDeletedName (name expectedPrefix : String)
  | retriesExhausted (operation : String) (remaining attempts : Nat)
  | database (cause : DatabaseError)
  | recordStore (text : String)
  | objectStore (text : String)
  | queue (text : String)
  | json (fault : Json.Fault)
  | context (text : String) (source : Error)
  deriving DecidableEq, Repr

/-- The entity that is missing. -/
inductive Subject where
  | dataset
  | package
  | folder
  deriving DecidableEq, Repr

/-- What callers branch on. -/
inductive Error.Kind where
  /-- Something is missing, with the keys it was looked up by. -/
  | notFound (subject : Subject) (keys : List (String × String))
  | nameConflict (candidate : String)
  /-- Trying again may help. -/
  | transient
  | fatal
  deriving DecidableEq, Repr

namespace Error

/-- How a message shows a dataset that may be unknown. -/
def describeDataset : Option EntityRef → String
  | none => "<unknown>"
  | some d => d.describe

/-- How a message shows the kind found in place of a folder. -/
def describeActual : Option Package.Kind → String
  | none => ""
  | some k => s!" (actual type {k.label})"

/-- The wording of an error. -/
def message : Error → String
  | .datasetNotFound org dataset => s!"dataset {dataset.describe} not found in workspace {org}"
  | .packageNotFound org dataset package =>
    s!"package with node id {package.describe} not found in dataset {describeDataset dataset}, " ++
      s!"workspace {org}"
  | .folderNotFound org dataset nodeId actual =>
    s!"folder with node id {Text.quoted nodeId} not found in dataset {dataset.describe}, " ++
      s!"workspace {org}{describeActual actual}"
  | .nameTaken org package name _ =>
    s!"package {package} in workspace {org} cannot be renamed to {Text.quoted name}: " ++
      "name already taken"
  | .invalidDeletedName name expectedPrefix =>
    s!"name {Text.quoted name} does not start with expected prefix {Text.quoted expectedPrefix}"
  | .retriesExhausted operation remaining attempts =>
    s!"{operation}: {remaining} items still unprocessed after {attempts} retries"
  | .database cause => "Database error: " ++ cause.message
  | .recordStore text => "DynamoDB error: " ++ text
  | .objectStore text => "S3 error: " ++ text
  | .queue text => "SQS error: " ++ text
  | .json fault => "Serde JSON error: " ++ fault.message
  | .context text source => text ++ ": " ++ source.message

/-- The kind of an error. -/
def kind : Error → Kind
  | .datasetNotFound org dataset =>
    .notFound .dataset [("orgId", toString org), ("datasetId", dataset.describe)]
  | .packageNotFound org dataset package =>
    .notFound .package
      [("orgId", toString org), ("datasetId", describeDataset dataset),
        ("nodeId", package.describe)]
  | .folderNotFound org dataset nodeId _ =>
    .notFound .folder [("orgId", toString org), ("datasetId", dataset.describe), ("nodeId", nodeId)]
  | .nameTaken _ _ name _ => .nameConflict name
  | .retriesExhausted .. | .recordStore _ | .objectStore _ | .queue _ => .transient
  | .database cause => if cause.isTransient then .transient else .fatal
  | .context _ source => source.kind
  | .invalidDeletedName .. | .json _ => .fatal

/-- The error says that a name is taken. -/
def isNameConflict (e : Error) : Bool :=
  match e.kind with
  | .nameConflict _ => true
  | _ => false

/-- The error says that an entity is missing. -/
def isNotFound (subject : Subject) (e : Error) : Bool :=
  match e.kind with
  | .notFound s _ => decide (s = subject)
  | _ => false

/-- The wordings of the errors behind an error, outermost first. -/
def causes : Error → List String
  | .nameTaken _ _ _ cause => [cause]
  | .database cause => cause.message :: cause.causes
  | .json fault => [fault.message]
  | .context _ source => source.message :: source.causes
  | _ => []

/-- A context does not change the kind of an error. -/
@[simp] theorem kind_context (text : String) (e : Error) : (context text e).kind = e.kind := rfl

end Error

end Salvage
