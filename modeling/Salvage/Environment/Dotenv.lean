import Salvage.Environment
import Salvage.Text.Blank

/-!
# Environment files

A file with one assignment per line, which adds variables to an environment. A variable that is set
already keeps its value. Values may be quoted, and may use variables that are set in front of them.
The first line that is no assignment ends the file.
-/

namespace Salvage.Environment

open Text

/-- Where the reader of a value is. -/
inductive ValueMode where
  /-- In a value, or behind the opening quote of a double-quoted part. -/
  | plain (inQuotes : Bool)
  /-- Between single quotes. -/
  | literal
  /-- Behind a backslash. -/
  | escaped (inQuotes : Bool)
  /-- In the name of a variable behind a dollar sign. -/
  | name (inQuotes : Bool) (read : List Char)
  /-- In the name of a variable between braces. -/
  | braced (inQuotes : Bool) (read : List Char)
  /-- Behind the value. -/
  | ended
  deriving DecidableEq, Repr

/-- The value of a variable whose name is kept from the last character to the first. -/
def valueOf (env : Environment) (name : List Char) : List Char :=
  ((env (String.ofList name.reverse)).getD "").toList

/-- A letter or a digit of the name of a variable. Characters outside ASCII are not told apart. -/
def isInName (c : Char) : Bool :=
  c.isAlphanum || 0x80 ≤ c.toNat

/-- Reads a value. -/
def readValue (env : Environment) : ValueMode → List Char → Option (List Char)
  | .plain inQuotes, [] => if inQuotes then none else some []
  | .literal, [] => none
  | .escaped inQuotes, [] => if inQuotes then none else some []
  | .name inQuotes read, [] => if inQuotes then none else some (valueOf env read)
  | .braced _ _, [] => none
  | .ended, [] => some []
  | .plain inQuotes, c :: cs =>
    if c = '$' then readValue env (.name inQuotes []) cs
    else if c = '\\' then readValue env (.escaped inQuotes) cs
    else if c = '"' then readValue env (.plain !inQuotes) cs
    else if inQuotes then (readValue env (.plain true) cs).map (c :: ·)
    else if c = '\'' then readValue env .literal cs
    else if c = ' ' ∨ c = '\t' then readValue env .ended cs
    else (readValue env (.plain false) cs).map (c :: ·)
  | .literal, c :: cs =>
    if c = '\'' then readValue env (.plain false) cs
    else (readValue env .literal cs).map (c :: ·)
  | .escaped inQuotes, c :: cs =>
    if ['\\', '\'', '"', '$', ' '].contains c then
      (readValue env (.plain inQuotes) cs).map (c :: ·)
    else if c = 'n' then (readValue env (.plain inQuotes) cs).map ('\n' :: ·)
    else none
  | .name inQuotes read, c :: cs =>
    if isInName c then readValue env (.name inQuotes (c :: read)) cs
    else if c = '\x7b' ∧ read = [] then readValue env (.braced inQuotes []) cs
    else if c = '$' then (readValue env (.name inQuotes []) cs).map (valueOf env read ++ ·)
    else (readValue env (.plain inQuotes) cs).map (valueOf env read ++ c :: ·)
  | .braced inQuotes read, c :: cs =>
    if c = '\x7d' then (readValue env (.plain inQuotes) cs).map (valueOf env read ++ ·)
    else readValue env (.braced inQuotes (c :: read)) cs
  | .ended, c :: cs =>
    if c = ' ' ∨ c = '\t' then readValue env .ended cs
    else if c = '#' then some []
    else none

/-- A key at the start of a text, and the text behind it. -/
def readKey : List Char → Option (List Char × List Char)
  | [] => none
  | c :: cs =>
    if c.isAlpha ∨ c = '_' then
      some ((c :: cs).span fun c => c.isAlphanum || c = '_' || c = '.')
    else none

/-- The text behind an equals sign. -/
def behindEqual : List Char → Option (List Char)
  | '=' :: cs => some cs
  | _ => none

/-- What a line says. -/
inductive Line where
  /-- It is empty or a comment. -/
  | blank
  | assignment (key value : String)
  /-- It is neither. -/
  | invalid
  deriving DecidableEq, Repr

/-- A key and the text behind its equals sign. The word `export` may stand in front of the key. -/
def readAssignment (cs : List Char) : Option (List Char × List Char) := do
  let (key, rest) ← readKey cs
  let rest := rest.dropWhile isBlank
  match behindEqual rest with
  | some rest => return (key, rest)
  | none =>
    if key ≠ "export".toList then none
    else
      let (key, rest) ← readKey rest
      return (key, ← behindEqual (rest.dropWhile isBlank))

/-- Reads a line. -/
def readLine (env : Environment) (line : List Char) : Line :=
  let cs := trimmed line
  let isEmpty (cs : List Char) : Bool := cs = [] || cs.head? = some '#'
  if isEmpty cs then .blank
  else
    match readAssignment cs with
    | none => .invalid
    | some (key, rest) =>
      let rest := rest.dropWhile isBlank
      let value := if isEmpty rest then some [] else readValue env (.plain false) rest
      match value with
      | none => .invalid
      | some value => .assignment (String.ofList key) (String.ofList value)

/-- The environment with a variable, unless that is set already. -/
def add (env : Environment) (key value : String) : Environment := fun name =>
  (env name).or (if name = key then some value else none)

/-- The environment behind lines of an environment file. -/
def addLines (env : Environment) : List String → Environment
  | [] => env
  | line :: lines =>
    match readLine env line.toList with
    | .blank => env.addLines lines
    | .assignment key value => (env.add key value).addLines lines
    | .invalid => env

/-- The environment behind an environment file. -/
def addFile (env : Environment) (content : String) : Environment :=
  env.addLines (content.splitOn "\n")

end Salvage.Environment
