import Salvage.Json.Scan

/-!
# Printing JSON

Values are printed without any space. In a string literal the quote, the backslash and the control
characters below the space are escaped, and every other character stands for itself.
-/

namespace Salvage.Json

/-- A hexadecimal digit in lower case. -/
def hexChar (n : Nat) : Char :=
  Char.ofNat (if n < 10 then '0'.toNat + n else 'a'.toNat + (n - 10))

/-- One character of a string literal. -/
def escapedChar (c : Char) : List Char :=
  if c = '"' ∨ c = '\\' then ['\\', c]
  else if c = '\x08' then ['\\', 'b']
  else if c = '\x0c' then ['\\', 'f']
  else if c = '\n' then ['\\', 'n']
  else if c = '\r' then ['\\', 'r']
  else if c = '\t' then ['\\', 't']
  else if c.toNat < 0x20 then
    ['\\', 'u', '0', '0', hexChar (c.toNat / 16), hexChar (c.toNat % 16)]
  else [c]

/-- A string literal. -/
def printText (s : String) : List Char :=
  '"' :: s.toList.flatMap escapedChar ++ ['"']

/-- An integer in decimal. -/
def printInt (n : Int) : List Char :=
  (toString n).toList

/-- Texts with commas between them. -/
def joined : List (List Char) → List Char
  | [] => []
  | [a] => a
  | a :: as => a ++ ',' :: joined as

/-- A list of printed values. -/
def printList (values : List (List Char)) : List Char :=
  '[' :: joined values ++ [']']

/-- An entry of an object. -/
def printEntry (key : String) (value : List Char) : List Char :=
  printText key ++ ':' :: value

/-- An object of printed values, in order. -/
def printObject (values : List (String × List Char)) : List Char :=
  '\x7b' :: joined (values.map fun e => printEntry e.1 e.2) ++ ['\x7d']

/-- A printed value, or `null` when there is none. -/
def printOption {α : Type} (print : α → List Char) : Option α → List Char
  | none => ['n', 'u', 'l', 'l']
  | some a => print a

/-- An entry that is left out when there is no value. -/
def entryIfSome {α : Type} (key : String) (print : α → List Char) :
    Option α → List (String × List Char)
  | none => []
  | some a => [(key, print a)]

end Salvage.Json
