import Salvage.Diagnosis
import Salvage.Environment
import Salvage.Settings.File
import Salvage.Text.Decimal
import Salvage.Url.Reader

/-!
# The connection URL

Where the database is and who connects to it, as one URL. A URL that is given is taken as it is;
otherwise it is put together from its parts, and the environment wins over the settings file part by
part. User and password are escaped, so that no text in them can get into another part.
-/

namespace Salvage.DatabaseOptions

/-- The reason that a URL cannot be read. -/
def unreadable (attempt : String) (fault : Url.Fault) : Diagnosis :=
  (Diagnosis.of fault.message).context attempt

/-- The parts of a connection URL, none of them missing but perhaps the password. -/
structure Parts where
  host : String
  port : Int
  user : String
  password : Option String
  name : String
  sslMode : String
  deriving DecidableEq, Repr

/-- The port, from the environment or the settings file. -/
def findPort (options : DatabaseOptions) (env : Environment) : Except Diagnosis Int :=
  match env "POSTGRES_PORT" with
  | none => .ok (options.port.getD 5432)
  | some value =>
    (Text.readInt (.unsigned 16) value.toList).mapError fun e =>
      (Diagnosis.of e.message).context s!"parsing POSTGRES_PORT value `{value}`"

/-- The parts, each from the environment, the settings file or a default. -/
def parts (options : DatabaseOptions) (env : Environment) : Except Diagnosis Parts := do
  let find (key : String) (option : Option String) (default : String) : String :=
    ((env key).or option).getD default
  return {
    host := find "POSTGRES_HOST" options.host "localhost"
    port := ← options.findPort env
    user := find "POSTGRES_USER" options.user "postgres"
    password := (env "POSTGRES_PASSWORD").or options.password
    name := find "PENNSIEVE_DB" options.name "postgres"
    sslMode := find "POSTGRES_SSL_MODE" options.sslMode "disable" }

/-- The URL of the host and the port alone, which must name a host. -/
def Parts.base (p : Parts) : Except Diagnosis Url := do
  let url ← (Url.read s!"postgres://{p.host}:{p.port}").mapError
    (unreadable s!"Invalid postgres host `{p.host}`")
  if url.authority?.isNone then throw (.of s!"Invalid postgres user `{p.user}`")
  return url

/-- Puts the other parts on the URL of a host. -/
def Parts.onto (p : Parts) (base : Url) : Url :=
  ((base.withUser p.user.toList).withPassword (p.password.getD "").toList).withPath p.name.toList
    |>.addField "sslmode".toList p.sslMode.toList

/-- The connection URL. -/
def connectionUrl (options : DatabaseOptions) (env : Environment) : Except Diagnosis Url :=
  match (env "DATABASE_URL").or options.url with
  | some text => (Url.read text).mapError (unreadable "Invalid database_url")
  | none => do
    let parts ← options.parts env
    return parts.onto (← parts.base)

end Salvage.DatabaseOptions
