import Salvage.Text.Shapeless

/-!
# Quoted texts in messages

A text inside a message is shown between double quotes. A quote and a backslash get a backslash,
four controls have a short name, and a character without a shape of its own is written as its code
point in hexadecimal.
-/

namespace Salvage.Text

/-- A number in lower case hexadecimal without leading zeros. -/
def hex (n : Nat) : List Char :=
  Nat.toDigits 16 n

/-- One character of a quoted text. -/
def quotedChar (c : Char) : List Char :=
  if c = '\x00' then ['\\', '0']
  else if c = '\t' then ['\\', 't']
  else if c = '\r' then ['\\', 'r']
  else if c = '\n' then ['\\', 'n']
  else if c = '"' ∨ c = '\\' then ['\\', c]
  else if isShapeless c then ['\\', 'u', '\x7b'] ++ hex c.toNat ++ ['\x7d']
  else [c]

/-- A text between double quotes, every character in its quoted form. -/
def quoted (s : String) : String :=
  String.ofList ('"' :: s.toList.flatMap quotedChar ++ ['"'])

end Salvage.Text
