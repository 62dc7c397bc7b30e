import Salvage.Backoff
import Salvage.Settings.Database
import Salvage.Tables.Traversal
import Salvage.Text.Blank
import Salvage.Text.Utf8

/-!
# Settings

What the program was told: where its stores are, how it repeats requests and how it walks below a
package. Every setting is taken from the environment, and where that has none from the settings
file. What only the worker or only a request needs is looked up when one of them is to be run.
-/

namespace Salvage

/-- What the worker needs to know. Times are in seconds. -/
structure WorkerSettings where
  recordTable : String
  restoreQueue : String
  changelogQueue : Option String
  maxMessages : Int
  waitTime : Int
  visibilityTimeout : Option Int
  /-- How many messages are handled at once. -/
  concurrency : Int
  exitWhenIdle : Bool
  deriving DecidableEq, Repr

/-- What a request needs to know. -/
structure RequestSettings where
  restoreQueue : String
  deriving DecidableEq, Repr

/-- What the program is to do. -/
inductive Operation where
  | worker (settings : WorkerSettings)
  | request (settings : RequestSettings)
  deriving DecidableEq, Repr

/-- What the program was told. -/
structure Settings where
  database : Url
  region : Option String
  endpoint : Option String
  backoff : Backoff
  traversal : Traversal
  /-- The settings file, for what is looked up later. -/
  file : SettingsFile
  /-- What to do, once that is known. -/
  operation : Option Operation := none
  deriving DecidableEq, Repr

namespace BackoffOptions

/-- The backoff, with the usual values for what is missing. -/
def backoff (options : BackoffOptions) : Backoff where
  baseDelay := (options.baseDelay.map Int.toNat).getD Backoff.standard.baseDelay
  maxJitter := (options.maxJitter.map Int.toNat).getD Backoff.standard.maxJitter
  maxAttempts := (options.maxAttempts.map Int.toNat).getD Backoff.standard.maxAttempts

end BackoffOptions

namespace Settings

/-- The traversal, from the environment or the settings file. -/
def findTraversal (file : SettingsFile) (env : Environment) : Except Diagnosis Traversal :=
  match (env "RESTORE_DESCENDANT_TRAVERSAL").or file.traversal with
  | none => .ok .bounded
  | some name =>
    (Traversal.ofName name).mapError fun e =>
      (Diagnosis.of e).context "Invalid descendant_traversal"

/-- The settings from a settings file and the environment. -/
def ofFile (file : SettingsFile) (env : Environment) : Except Diagnosis Settings := do
  let provider := file.provider.getD {}
  return {
    database := ← (file.database.getD {}).connectionUrl env
    region := (env "REGION").or provider.region
    endpoint := (env "AWS_ENDPOINT_URL").or provider.endpoint
    backoff := (file.backoff.getD {}).backoff
    traversal := ← findTraversal file env
    file := file }

/-- Reads the bytes of a settings file, which is at a path. -/
def readFile (path : String) (bytes : List UInt8) : Except Diagnosis SettingsFile :=
  match Text.readUtf8 bytes with
  | .error _ =>
    .error ((Diagnosis.of "stream did not contain valid UTF-8").context
      s!"Failed to read config file at {path}")
  | .ok cs =>
    (SettingsFile.reader.readAll (String.ofList cs)).mapError fun fault =>
      ⟨.text s!"Failed to parse JSON from config file at {path}", [.json fault]⟩

/-- The settings, where the settings file may be missing. -/
def load (path : String) (bytes : Option (List UInt8)) (env : Environment) :
    Except Diagnosis Settings := do
  let file ←
    match bytes with
    | none => pure {}
    | some bytes => readFile path bytes
  ofFile file env

/-- The queue for restores, which must have a name. -/
def findRestoreQueue (file : SettingsFile) (env : Environment) : Except Diagnosis String :=
  match (env "RESTORE_PACKAGE_QUEUE").or file.restoreQueue with
  | none => .error (.of "restore_queue (or RESTORE_PACKAGE_QUEUE) must be set")
  | some queue =>
    if Text.trimmed queue.toList = [] then .error (.of "restore_queue cannot be empty.")
    else .ok queue

end Settings

namespace RequestSettings

/-- Looks up what a request needs. -/
def load (file : SettingsFile) (env : Environment) : Except Diagnosis RequestSettings := do
  return ⟨← Settings.findRestoreQueue file env⟩

end RequestSettings

namespace WorkerSettings

/-- Where the worker finds its work and reports it. -/
structure Stores where
  recordTable : String
  restoreQueue : String
  changelogQueue : Option String
  deriving DecidableEq, Repr

/-- Looks up the stores of the worker. -/
def loadStores (file : SettingsFile) (env : Environment) : Except Diagnosis Stores := do
  let some table := (env "DELETE_RECORD_DYNAMODB_TABLE_NAME").or file.recordTable
    | throw (.of ("delete_record_table (or DELETE_RECORD_DYNAMODB_TABLE_NAME) must be set for " ++
        "the restore worker"))
  return ⟨table, ← Settings.findRestoreQueue file env,
    (env "JOBS_QUEUE_ID").or file.changelogQueue⟩

/-- How many messages are handled at once, which is at least one. -/
def findConcurrency (options : WorkerOptions) (env : Environment) : Except Diagnosis Int := do
  let concurrency ←
    match env "RESTORE_WORKER_CONCURRENCY" with
    | none => pure (options.concurrency.getD 4)
    | some value =>
      (Text.readInt (.unsigned 64) value.toList).mapError fun e =>
        (Diagnosis.of e.message).context s!"parsing RESTORE_WORKER_CONCURRENCY value `{value}`"
  if concurrency = 0 then throw (.of "worker concurrency must be at least 1")
  return concurrency

/-- A number, or the end of a range that is nearest to it. -/
def clamp (low high n : Int) : Int :=
  max low (min high n)

/-- Completes the settings of the worker. A queue gives out at most ten messages at once, and waits
at most twenty seconds for them. -/
def complete (stores : Stores) (file : SettingsFile) (env : Environment) :
    Except Diagnosis WorkerSettings := do
  let options := file.worker.getD {}
  return {
    recordTable := stores.recordTable
    restoreQueue := stores.restoreQueue
    changelogQueue := stores.changelogQueue
    maxMessages := clamp 1 10 (options.maxMessages.getD 10)
    waitTime := clamp 0 20 (options.waitTime.getD 20)
    visibilityTimeout := options.visibilityTimeout
    concurrency := ← findConcurrency options env
    exitWhenIdle := options.exitWhenIdle.getD false }

/-- Looks up what the worker needs. -/
def load (file : SettingsFile) (env : Environment) : Except Diagnosis WorkerSettings := do
  complete (← loadStores file env) file env

end WorkerSettings

end Salvage
