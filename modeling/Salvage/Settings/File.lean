import Salvage.Json.Options

/-!
# The settings file

What a settings file may hold. It is a JSON object of sections, and every section and every field
of a section may be left out or be `null`.
-/

namespace Salvage

open Json

/-- How to reach the database: by a URL, or by its parts. -/
structure DatabaseOptions where
  url : Option String := none
  host : Option String := none
  port : Option Int := none
  user : Option String := none
  password : Option String := none
  name : Option String := none
  sslMode : Option String := none
  deriving DecidableEq, Repr

/-- How to reach the provider. -/
structure ProviderOptions where
  region : Option String := none
  endpoint : Option String := none
  deriving DecidableEq, Repr

/-- When and how often to repeat a request. Times are in milliseconds. -/
structure BackoffOptions where
  baseDelay : Option Int := none
  maxJitter : Option Int := none
  maxAttempts : Option Int := none
  deriving DecidableEq, Repr

/-- How the worker takes messages from its queue. Times are in seconds. -/
structure WorkerOptions where
  maxMessages : Option Int := none
  waitTime : Option Int := none
  visibilityTimeout : Option Int := none
  concurrency : Option Int := none
  exitWhenIdle : Option Bool := none
  deriving DecidableEq, Repr

/-- A settings file. -/
structure SettingsFile where
  database : Option DatabaseOptions := none
  provider : Option ProviderOptions := none
  recordTable : Option String := none
  restoreQueue : Option String := none
  changelogQueue : Option String := none
  traversal : Option String := none
  backoff : Option BackoffOptions := none
  worker : Option WorkerOptions := none
  deriving DecidableEq, Repr

/-- The section on the database. -/
def DatabaseOptions.reader : Reader DatabaseOptions :=
  options "JsonPostgresConfig" {} [
    field "database_url" text fun a s => { s with url := a },
    field "host" text fun a s => { s with host := a },
    field "port" (unsigned 16) fun a s => { s with port := a },
    field "user" text fun a s => { s with user := a },
    field "password" text fun a s => { s with password := a },
    field "dbname" text fun a s => { s with name := a },
    field "sslmode" text fun a s => { s with sslMode := a }]

/-- The section on the provider. -/
def ProviderOptions.reader : Reader ProviderOptions :=
  options "JsonAwsConfig" {} [
    field "region" text fun a s => { s with region := a },
    field "endpoint_url" text fun a s => { s with endpoint := a }]

/-- The section on repeated requests. -/
def BackoffOptions.reader : Reader BackoffOptions :=
  options "JsonRetryOptions" {} [
    field "base_delay_ms" (unsigned 64) fun a s => { s with baseDelay := a },
    field "max_jitter_ms" (unsigned 64) fun a s => { s with maxJitter := a },
    field "max_attempts" (unsigned 32) fun a s => { s with maxAttempts := a }]

/-- The section on the worker. -/
def WorkerOptions.reader : Reader WorkerOptions :=
  options "JsonWorkerOptions" {} [
    field "max_messages" int32 fun a s => { s with maxMessages := a },
    field "wait_time_seconds" int32 fun a s => { s with waitTime := a },
    field "visibility_timeout_seconds" int32 fun a s => { s with visibilityTimeout := a },
    field "concurrency" size fun a s => { s with concurrency := a },
    field "exit_when_idle" bool fun a s => { s with exitWhenIdle := a }]

/-- Reads a settings file. -/
def SettingsFile.reader : Reader SettingsFile :=
  options "RawJsonConfig" {} [
    field "postgres" DatabaseOptions.reader fun a s => { s with database := a },
    field "aws" ProviderOptions.reader fun a s => { s with provider := a },
    field "delete_record_table" text fun a s => { s with recordTable := a },
    field "restore_queue" text fun a s => { s with restoreQueue := a },
    field "changelog_queue_url" text fun a s => { s with changelogQueue := a },
    field "descendant_traversal" text fun a s => { s with traversal := a },
    field "retry" BackoffOptions.reader fun a s => { s with backoff := a },
    field "worker" WorkerOptions.reader fun a s => { s with worker := a }]

end Salvage
