import Salvage.CommandLine.RequestArguments
import Salvage.Connection
import Salvage.Environment.Dotenv
import Salvage.Error
import Salvage.Log
import Salvage.Provider.Queue
import Salvage.Settings

/-!
# The command line

The program from its arguments to its exit code: it reads its settings, finds out which operation is
wanted, and runs it. There is no client for a database or a provider here, so an operation goes as
far as it can alone and then finds that nobody answers. What the program prints, notes and complains
about is collected on a console.
-/

namespace Salvage

/-- What a program has written. -/
structure Console where
  printed : String := ""
  notes : List Log.Note := []
  complaints : String := ""
  deriving DecidableEq, Repr

/-- A part of a program, which may end it with a diagnosis. -/
abbrev Command (α : Type) := ExceptT Diagnosis (StateM Console) α

namespace Command

/-- Notes something in the log. -/
def note (level : Log.Level) (message : String) : Command Unit :=
  modify fun c => { c with notes := c.notes ++ [⟨level, message⟩] }

/-- Prints a text. -/
def print (text : String) : Command Unit :=
  modify fun c => { c with printed := c.printed ++ text }

/-- Complains in a line of its own. -/
def complain (line : String) : Command Unit :=
  modify fun c => { c with complaints := c.complaints ++ line ++ "\n" }

/-- Ends the program unless there is a value. -/
def need {α : Type} (x : Except Diagnosis α) : Command α :=
  ExceptT.mk (pure x)

/-- Names what is attempted, for the case that it fails. -/
def attempting {α : Type} (what : String) (x : Command α) : Command α :=
  ExceptT.adapt (Diagnosis.context what) x

end Command

open Command

namespace CommandLine

/-! ## Operations -/

/-- Gets ready to talk to the provider. -/
def prepareProvider (s : Settings) : Command Unit := do
  if s.endpoint.isSome then note .info "overriding AWS endpoints"

/-- Connects to the database. -/
def connect (url : Url) : Command Unit := do
  note .info "connecting to postgres"
  let (unknown, fault) := Connection.review url
  unknown.forM fun _ => note .warn "ignoring unrecognized connect parameter"
  let reasons :=
    match fault with
    | some fault => fault.reasons
    | none => [DatabaseError.poolTimedOut.message]
  throw ⟨.text s!"Failed to connect to {url.redacted.text}", reasons.map .text⟩

/-- Runs the worker. It holds one connection per message that is handled at once. -/
def runWorker (s : Settings) : Command Unit := do
  let some (.worker worker) := s.operation
    | throw (.of "Worker operation selected but no worker configuration found.")
  prepareProvider s
  if (Nat.pow 2 32 : Int) ≤ worker.concurrency then
    throw ((Diagnosis.of Text.FormatError.tooLarge.message).context
      "worker concurrency does not fit a connection pool size")
  connect s.database

/-- A provider that cannot be reached. -/
def unreachable : QueueService := ⟨[], "dispatch failure", []⟩

/-- Runs a request with its arguments. -/
def runRequest (s : Settings) (arguments : List String) : Command Unit := do
  let some (.request request) := s.operation
    | throw (.of "Request operation selected but no request configuration found.")
  let _ ← need (RequestArguments.ofList arguments)
  prepareProvider s
  match (QueueService.resolve request.restoreQueue unreachable).1 with
  | .done (.error d) => throw d
  | _ => connect s.database

/-! ## The program -/

/-- What a program is started with. -/
structure Call where
  arguments : List String
  /-- What the user types. -/
  input : String
  /-- The bytes of the settings file, if there is one. -/
  settings : Option (List UInt8)
  /-- The content of the environment file, if there is one. -/
  dotenv : Option String
  environment : Environment

/-- What a program leaves behind. -/
structure Report where
  exit : Nat
  console : Console
  deriving DecidableEq, Repr

/-- The path of the settings file. -/
def settingsPath : String := "config.json"

/-- What asks for an operation. -/
def question : String :=
  "Select an operation:\n" ++
  "1. Run the restore worker (or type 'worker')\n" ++
  "2. Request a restore (or type 'request')\n" ++
  "Enter your choice: "

/-- Asks for an operation. The answer is the first line of the input. -/
def ask (input : String) : Command String := do
  print question
  return Text.trim (String.ofList (input.toList.takeWhile (· ≠ '\n')))

/-- Looks up what the worker needs. A worker that reports to nobody is told so. -/
def loadWorker (s : Settings) (env : Environment) : Command WorkerSettings := do
  let stores ← need (WorkerSettings.loadStores s.file env)
  if stores.changelogQueue.isNone then
    note .warn "no changelog queue configured; restore changelog events will not be sent"
  need (WorkerSettings.complete stores s.file env)

/-- The program. -/
def program (c : Call) (env : Environment) : Command Unit := do
  if c.settings.isNone then note .info s!"no config file at {settingsPath}, using environment only"
  let s ← attempting s!"Failed to load application configuration from {settingsPath}"
    (need (Settings.load settingsPath c.settings env))
  let choice ←
    match c.arguments with
    | choice :: _ => pure (Text.trim choice)
    | [] => ask c.input
  match choice with
  | "1" | "worker" =>
    note .info "starting restore worker"
    let worker ← attempting "Failed to load worker configuration" (loadWorker s env)
    attempting "Restore worker failed" (runWorker { s with operation := some (.worker worker) })
  | "2" | "request" =>
    let request ← attempting "Failed to load request configuration"
      (need (RequestSettings.load s.file env))
    attempting "Restore request failed"
      (runRequest { s with operation := some (.request request) } (c.arguments.drop 1))
  | _ =>
    complain "Invalid choice. Please enter '1' (worker) or '2' (request)."
    throw (.of "Invalid operation choice")

/-- The filter for the log, and whether the one that was asked for cannot be read. -/
def findFilter (env : Environment) : Log.Filter × Bool :=
  match env "LOG_LEVEL" with
  | none => (.standard, false)
  | some level =>
    match Log.Filter.read? level with
    | some filter => (filter, false)
    | none => (.standard, true)

/-- Runs the program. Its log holds the notes that the filter lets through. -/
def run (c : Call) : Report :=
  let all := (c.dotenv.map c.environment.addFile).getD c.environment
  let env := all.nonempty
  let (filter, isInvalid) := findFilter env
  let whole : Command Unit := do
    if isInvalid then note .warn "invalid LOG_LEVEL, using info"
    program c env
  let reporting : Command Nat := tryCatch
    (do
      whole
      note .info "operation completed successfully"
      return 0)
    fun d => do
      note .error "operation failed"
      complain s!"Error: {d.report}"
      return 1
  let (exit, console) := reporting.run {}
  ⟨exit.toOption.getD 1, { console with notes := console.notes.filter filter.lets }⟩

end CommandLine

end Salvage
