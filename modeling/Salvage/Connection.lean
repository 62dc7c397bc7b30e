import Salvage.Text.Decimal
import Salvage.Text.Quoted
import Salvage.Url.Basic

/-!
# Connections

What a client of the database makes of a connection URL. The fields of its query are options of the
connection; one that is not known is passed over, and one that cannot be read ends the attempt.
-/

namespace Salvage

/-- Why no connection can be attempted. -/
inductive ConnectionFault where
  /-- There is no such way to secure a connection. -/
  | sslMode (value : String)
  | number (fault : Text.FormatError)
  | address
  | text (fault : Text.Utf8Fault)
  deriving DecidableEq, Repr

namespace ConnectionFault

/-- The reason that an option is wrong, in front of that option. -/
def wrap (reason : String) : String :=
  s!"error with configuration: {reason}"

/-- The reasons of a fault, outermost first. -/
def reasons (f : ConnectionFault) : List String :=
  let plain (reason : String) : List String := [wrap reason, reason]
  match f with
  | .sslMode value =>
    let reason := "unknown value " ++ Text.quoted value ++ " for `ssl_mode`"
    wrap (wrap reason) :: plain reason
  | .number fault => plain fault.message
  | .address => plain "invalid IP address syntax"
  | .text fault => plain fault.message

end ConnectionFault

namespace Connection

/-- The ways to secure a connection. -/
def sslModes : List String :=
  ["disable", "allow", "prefer", "require", "verify-ca", "verify-full"]

/-- The options that take any text. -/
def textOptions : List String :=
  ["sslrootcert", "ssl-root-cert", "ssl-ca", "sslcert", "ssl-cert", "sslkey", "ssl-key", "host",
    "dbname", "user", "password", "application_name", "options"]

/-- An address as four numbers, or as an IPv6 address. -/
def isAddress (cs : List Char) : Bool :=
  (Url.ipv6Ending? cs).isSome || (Url.ipv6? cs).isSome

/-- Reads a number below a power of two. -/
def readNumber (bits : Nat) (value : List Char) : Except ConnectionFault Unit :=
  match Text.readInt (.unsigned bits) value with
  | .ok _ => .ok ()
  | .error e => .error (.number e)

/-- Reads an option, and says whether it is known. -/
def readOption (key : String) (value : List Char) : Except ConnectionFault Bool :=
  let known (x : Except ConnectionFault Unit) : Except ConnectionFault Bool := x.map fun _ => true
  match key with
  | "sslmode" | "ssl-mode" =>
    if sslModes.contains (String.ofList (value.map Char.toLower)) then .ok true
    else .error (.sslMode (String.ofList value))
  | "statement-cache-capacity" => known (readNumber 64 value)
  | "port" => known (readNumber 16 value)
  | "hostaddr" => if isAddress value then .ok true else .error .address
  | key => .ok (textOptions.contains key || "options[".toList.isPrefixOf key.toList)

/-- Reads options up to the first fault. The options that are not known come with it. -/
def readOptions : List (List Char × List Char) → List String × Option ConnectionFault
  | [] => ([], none)
  | (key, value) :: rest =>
    match readOption (String.ofList key) value with
    | .error fault => ([], some fault)
    | .ok known =>
      let (unknown, fault) := readOptions rest
      (if known then unknown else String.ofList key :: unknown, fault)

/-- Reads an escaped part of a URL as text. -/
def readPart (cs : List Char) : Except ConnectionFault Unit :=
  match Text.readUtf8 (Text.percentDecode cs) with
  | .ok _ => .ok ()
  | .error fault => .error (.text fault)

/-- Reads the user and the password. -/
def readUser (u : Url) : Except ConnectionFault Unit :=
  match u.place with
  | .hosted a _ => do
    readPart a.user
    readPart a.password
  | _ => .ok ()

/-- What a client finds in a URL before it connects: the options it does not know, and perhaps a
fault. -/
def review (u : Url) : List String × Option ConnectionFault :=
  match readUser u with
  | .error fault => ([], some fault)
  | .ok _ => readOptions u.fields

end Connection

end Salvage
