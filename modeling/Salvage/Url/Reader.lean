import Salvage.Text.Decimal
import Salvage.Url.Basic

/-!
# Reading URLs

A URL is read from left to right. Blanks at its ends, tabs and line ends count as nothing. The
schemes of the web are special: they always have an authority, hosts are names on the internet, and
a backslash is a slash.
-/

namespace Salvage.Url

/-- The schemes that the web knows, each with its usual port. -/
def special : List (String × Option Nat) :=
  [("http", some 80), ("https", some 443), ("ws", some 80), ("wss", some 443), ("ftp", some 21),
    ("file", none)]

/-- The text without controls and spaces at its ends, and without tabs and line ends. -/
def cleaned (cs : List Char) : List Char :=
  let isOuter (c : Char) : Bool := c.toNat ≤ 0x20
  ((cs.dropWhile isOuter).reverse.dropWhile isOuter).reverse.filter fun c => !isIgnored c

/-- A scheme, and the text behind its colon. -/
def readScheme : List Char → Except Fault (List Char × List Char)
  | [] => .error .relative
  | c :: cs =>
    let isInScheme (c : Char) : Bool := c.isAlphanum || c = '+' || c = '-' || c = '.'
    match c.isAlpha, (c :: cs).span isInScheme with
    | true, (scheme, ':' :: rest) => .ok (scheme.map Char.toLower, rest)
    | _, _ => .error .relative

/-- A character that ends the text of an authority. -/
def endsAuthority (isSpecial : Bool) (c : Char) : Bool :=
  c = '/' || c = '?' || c = '#' || (isSpecial && c = '\\')

/-- A text cut at its last at-sign, if it has one. -/
def cutAtLastAt : List Char → Option (List Char × List Char)
  | [] => none
  | c :: cs =>
    match cutAtLastAt cs with
    | some (before, behind) => some (c :: before, behind)
    | none => if c = '@' then some ([], cs) else none

/-- The user, the password and the text behind them. Without a user the host must not be missing. -/
def readUser (isSpecial : Bool) (cs : List Char) :
    Except Fault (List Char × List Char × List Char) :=
  let (authority, rest) := cs.span fun c => !endsAuthority isSpecial c
  match cutAtLastAt authority with
  | none => .ok ([], [], cs)
  | some ([], []) => if rest = [] then .ok ([], [], []) else .error .emptyHost
  | some (credentials, host) =>
    let (user, password) := credentials.span (· ≠ ':')
    .ok (escapeUser user, escapeUser (password.drop 1), host ++ rest)

/-- The text of a host, and the text behind it. A colon between square brackets belongs to it. -/
def spanHost (isSpecial : Bool) : Bool → List Char → List Char × List Char
  | _, [] => ([], [])
  | inBrackets, c :: cs =>
    if endsAuthority isSpecial c || (c = ':' && !inBrackets) then ([], c :: cs)
    else
      let (host, rest) := spanHost isSpecial (c = '[' || (inBrackets && c ≠ ']')) cs
      (c :: host, rest)

/-- The digits of a port behind the value `n`, and the text behind them. -/
def readPort (n : Option Nat) : List Char → Except Fault (Option Nat × List Char)
  | [] => .ok (n, [])
  | c :: cs =>
    match Text.digit? c with
    | some d =>
      let n := n.getD 0 * 10 + d
      if n < Nat.pow 2 16 then readPort (some n) cs else .error .invalidPort
    | none => if endsAuthority true c then .ok (n, c :: cs) else .error .invalidPort

/-- Reads an authority behind its two slashes. -/
def readAuthority (usualPort : Option Nat) (isSpecial : Bool) (cs : List Char) :
    Except Fault (Authority × List Char) := do
  let (user, password, cs) ← readUser isSpecial cs
  let (hostText, cs) := spanHost isSpecial false cs
  if hostText = [] then
    if isSpecial ∨ user ≠ [] ∨ password ≠ [] ∨ cs.head? = some ':' then throw .emptyHost
    return (⟨user, password, none, none⟩, cs)
  let host ← if isSpecial then Host.readSpecial hostText else Host.readOpaque hostText
  match cs with
  | ':' :: cs =>
    let (port, cs) ← readPort none cs
    return (⟨user, password, host, if port = usualPort then none else port⟩, cs)
  | cs => return (⟨user, password, host, none⟩, cs)

/-- Reads the host of a file, which is not written when it is the machine itself. -/
def readFileHost (cs : List Char) : Except Fault (Option Host × List Char) := do
  let (hostText, rest) := cs.span fun c => !endsAuthority true c
  if hostText = [] then return (none, rest)
  else
    let host ← Host.readSpecial hostText
    return (if host = .name "localhost".toList then none else host, rest)

/-- Reads what is behind the scheme of a file. -/
def readFile (cs : List Char) : Except Fault (Option Host × List Char) :=
  match cs with
  | a :: b :: rest =>
    if Path.isSlash true a && Path.isSlash true b then readFileHost rest else .ok (none, cs)
  | cs => .ok (none, cs)

/-- The path of a file, which does not start with empty segments. -/
def filePath (cs : List Char) : Path :=
  match (Path.read true cs).dropWhile (· == []) with
  | [] => [[]]
  | path => path

/-- Reads what is behind a scheme, up to the query or the fragment. -/
def readPlace (scheme : List Char) (cs : List Char) : Except Fault (Place × List Char) := do
  let cut (cs : List Char) := cs.span fun c => c ≠ '?' ∧ c ≠ '#'
  match special.lookup (String.ofList scheme) with
  | some none =>
    let (host, cs) ← readFile cs
    let (path, cs) := cut cs
    return (.hosted ⟨[], [], host, none⟩ (filePath path), cs)
  | some usualPort =>
    let (authority, cs) ← readAuthority usualPort true (cs.dropWhile (Path.isSlash true))
    let (path, cs) := cut cs
    return (.hosted authority (Path.read true path), cs)
  | none =>
    match cs with
    | '/' :: '/' :: cs =>
      let (authority, cs) ← readAuthority none false cs
      let (path, cs) := cut cs
      return (.hosted authority (Path.read false path), cs)
    | '/' :: _ =>
      let (path, cs) := cut cs
      return (.rooted (Path.read false path), cs)
    | cs =>
      let (text, cs) := cut cs
      return (.opaqueText (escapeOpaque text), cs)

/-- Reads a URL. -/
def read (input : String) : Except Fault Url := do
  let (scheme, cs) ← readScheme (cleaned input.toList)
  let (place, cs) ← readPlace scheme cs
  let (query, cs) :=
    match cs with
    | '?' :: cs =>
      let (query, cs) := cs.span (· ≠ '#')
      let isSpecial := (special.lookup (String.ofList scheme)).isSome
      (some (escapeQuery isSpecial query), cs)
    | cs => (none, cs)
  let fragment :=
    match cs with
    | '#' :: cs => some (escapeFragment cs)
    | _ => none
  return ⟨scheme, place, query, fragment⟩

end Salvage.Url
