import Salvage.CommandLine
import Salvage.Json.Printer

/-!
# The program

Hands the arguments, the files, the environment and the input to the command line, and writes what
comes back.
-/

namespace Salvage.CommandLine

/-- The content of a file, if there is such a file. -/
def readIfThere (path : String) : IO (Option ByteArray) := do
  try return some (← IO.FS.readBinFile path) catch _ => return none

/-- The variables that the program looks up, or that an environment file mentions. -/
def mentioned (dotenv : String) : List String :=
  ["DATABASE_URL", "POSTGRES_HOST", "POSTGRES_PORT", "POSTGRES_USER", "POSTGRES_PASSWORD",
    "PENNSIEVE_DB", "POSTGRES_SSL_MODE", "REGION", "AWS_ENDPOINT_URL",
    "RESTORE_DESCENDANT_TRAVERSAL", "DELETE_RECORD_DYNAMODB_TABLE_NAME", "JOBS_QUEUE_ID",
    "RESTORE_WORKER_CONCURRENCY", "RESTORE_PACKAGE_QUEUE", "LOG_LEVEL"] ++
    (dotenv.toList.splitBy fun a b => isWord a == isWord b).map String.ofList
where
  /-- A character of the name of a variable. -/
  isWord (c : Char) : Bool := c.isAlphanum || c = '_' || c = '.'

/-- A note as a line of the log. -/
def noteLine (n : Log.Note) : String :=
  String.ofList (Json.printObject [("level", Json.printText n.level.name),
    ("fields", Json.printObject [("message", Json.printText n.message)]),
    ("target", Json.printText (String.ofList Log.source))])

/-- Asks the user, if there is no argument that answers. -/
def readInput (arguments : List String) : IO String := do
  if arguments ≠ [] then return ""
  let output ← IO.getStdout
  output.putStr question
  output.flush
  (← IO.getStdin).getLine

end Salvage.CommandLine

section

open Salvage Salvage.CommandLine

/-- Runs the program. -/
def main (arguments : List String) : IO UInt32 := do
  let dotenv := (← readIfThere ".env").bind String.fromUTF8?
  let names := mentioned (dotenv.getD "")
  let found ← names.filterMapM fun name => do return (← IO.getEnv name).map (name, ·)
  let report := run {
    arguments := arguments
    input := ← readInput arguments
    settings := (← readIfThere settingsPath).map (·.toList)
    dotenv := dotenv
    environment := .ofList found }
  for note in report.console.notes do IO.println (noteLine note)
  IO.eprint report.console.complaints
  return UInt32.ofNat report.exit

end
