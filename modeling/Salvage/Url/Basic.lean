import Salvage.Url.Host
import Salvage.Url.Path

/-!
# URLs

A URL in its parts, each as it is written. `Url.print` puts them together, and the functions below
it replace one part and leave the others as they are. A password that is there is never empty, so a
URL with an empty password is one without.
-/

namespace Salvage

namespace Url

/-- Who is asked, and where. -/
structure Authority where
  user : List Char
  /-- The password, which is empty when there is none. -/
  password : List Char
  /-- The host, if it is not left empty. -/
  host : Option Host
  /-- The port, if it is not the usual one of the scheme. -/
  port : Option Nat
  deriving DecidableEq, Repr

/-- What a URL points to. -/
inductive Place where
  /-- A text that has no parts. -/
  | opaqueText (text : List Char)
  /-- A path alone. -/
  | rooted (path : Path)
  /-- A path at an authority. -/
  | hosted (authority : Authority) (path : Path)
  deriving DecidableEq, Repr

end Url

/-- A URL. -/
structure Url where
  /-- The scheme, in small letters. -/
  scheme : List Char
  place : Url.Place
  query : Option (List Char)
  fragment : Option (List Char)
  deriving DecidableEq, Repr

namespace Url

/-! ## Writing -/

/-- Writes the user and the password in front of a host. -/
def Authority.printUser (a : Authority) : List Char :=
  if a.user = [] ∧ a.password = [] then []
  else a.user ++ (if a.password = [] then [] else ':' :: a.password) ++ ['@']

/-- Writes the host and the port. -/
def Authority.printHost (a : Authority) : List Char :=
  (a.host.map Host.print).getD [] ++
    match a.port with
    | none => []
    | some port => ':' :: Nat.toDigits 10 port

/-- Writes an authority. -/
def Authority.print (a : Authority) : List Char :=
  a.printUser ++ a.printHost

/-- Writes what is behind the scheme. A path that could be taken for an authority gets a point. -/
def Place.print : Place → List Char
  | .opaqueText text => text
  | .rooted path =>
    match path with
    | [] :: _ :: _ => '/' :: '.' :: path.print
    | _ => path.print
  | .hosted authority path => '/' :: '/' :: authority.print ++ path.print

/-- Writes a part that may be missing behind its mark. -/
def printPart (mark : Char) : Option (List Char) → List Char
  | none => []
  | some part => mark :: part

/-- Writes a URL. -/
def print (u : Url) : List Char :=
  u.scheme ++ ':' :: u.place.print ++ printPart '?' u.query ++ printPart '#' u.fragment

/-- A URL as a text. -/
def text (u : Url) : String :=
  String.ofList u.print

/-! ## Replacing parts -/

/-- The authority, if there is one with a host. -/
def authority? (u : Url) : Option Authority :=
  match u.place with
  | .hosted a _ => if a.host.isSome then some a else none
  | _ => none

/-- The URL with its authority changed. Without a host nothing is changed. -/
def mapAuthority (f : Authority → Authority) (u : Url) : Url :=
  match u.place with
  | .hosted a path => if a.host.isSome then { u with place := .hosted (f a) path } else u
  | _ => u

/-- The URL with a user. -/
def withUser (user : List Char) : Url → Url :=
  mapAuthority fun a => { a with user := escapeUser user }

/-- The URL with a password. An empty one is none. -/
def withPassword (password : List Char) : Url → Url :=
  mapAuthority fun a => { a with password := escapeUser password }

/-- The URL with a path. -/
def withPath (path : List Char) (u : Url) : Url :=
  let path := path.filter fun c => !isIgnored c
  let path := if path.head? = some '?' ∨ path.head? = some '#' then [] else Path.read false path
  match u.place with
  | .hosted a _ => { u with place := .hosted a path }
  | _ => { u with place := .rooted path }

/-- The URL with one more field in its query. -/
def addField (key value : List Char) (u : Url) : Url :=
  let before :=
    match u.query with
    | none | some [] => []
    | some query => query ++ ['&']
  { u with query := some (before ++ escapeForm key ++ '=' :: escapeForm value) }

/-- The fields of the query. -/
def fields (u : Url) : List (List Char × List Char) :=
  let pieces := (Text.pieces '&' (u.query.getD [])).filter (· ≠ [])
  pieces.map fun piece =>
    let (key, value) := piece.span (· ≠ '=')
    (readForm key, readForm (value.drop 1))

/-- What stands for a password that is not shown. -/
def mask : List Char := ['*', '*', '*', '*']

/-- The URL with its password masked, if it has one. -/
def redacted (u : Url) : Url :=
  u.mapAuthority fun a => { a with password := if a.password = [] then [] else mask }

end Url

end Salvage
