import Salvage.Text.Percent

/-!
# Escapes in URLs

Which characters stand for themselves depends on the part of a URL they are in. From part to part
the list gets shorter: an opaque text keeps every ASCII character that can be printed, a user gives
up all that separates the parts around it, and a form field keeps little more than letters and
digits. The percent sign is plain everywhere but in a form field.
-/

namespace Salvage.Url

open Text

/-- Tabs and line ends, which count as nothing in most parts. -/
def isIgnored (c : Char) : Bool :=
  c = '\t' || c = '\n' || c = '\r'

/-- A character is printable when it is in ASCII and no control. -/
def isPrintable (c : Char) : Bool :=
  decide (0x20 ≤ c.toNat ∧ c.toNat ≤ 0x7e)

/-- The printable characters that are not on a list. -/
def printableBut (escaped : List Char) (c : Char) : Bool :=
  isPrintable c && !escaped.contains c

/-- What is escaped in a fragment. -/
def escapedInFragment : List Char := [' ', '"', '<', '>', '\x60']

/-- What is escaped in a query. -/
def escapedInQuery : List Char := [' ', '"', '#', '<', '>']

/-- What is escaped in a path. -/
def escapedInPath : List Char := ['#', '?', '\x7b', '\x7d'] ++ escapedInFragment

/-- What is escaped in a user and in a password. -/
def escapedInUser : List Char :=
  ['/', ':', ';', '=', '@', '[', '\\', ']', '^', '|'] ++ escapedInPath

/-- Writes an opaque text. -/
def escapeOpaque : List Char → List Char := percentEncode isPrintable

/-- Writes a fragment. -/
def escapeFragment : List Char → List Char := percentEncode (printableBut escapedInFragment)

/-- Writes a query. A special scheme keeps the single quote out of it. -/
def escapeQuery (special : Bool) : List Char → List Char :=
  percentEncode (printableBut (if special then '\'' :: escapedInQuery else escapedInQuery))

/-- Writes a segment of a path. -/
def escapeSegment : List Char → List Char := percentEncode (printableBut escapedInPath)

/-- Writes a user or a password. -/
def escapeUser : List Char → List Char := percentEncode (printableBut escapedInUser)

/-- A character is plain in a form field when it is a letter, a digit or one of four marks. -/
def isPlainInForm (c : Char) : Bool :=
  c.isAlphanum || ['*', '-', '.', '_'].contains c

/-- Writes a form field, in which a space becomes a plus sign. -/
def escapeForm (cs : List Char) : List Char :=
  cs.flatMap fun c => if c = ' ' then ['+'] else percentChar isPlainInForm c

/-- Reads a form field. -/
def readForm (cs : List Char) : List Char :=
  readUtf8Loosely 0 (percentDecode (cs.map fun c => if c = '+' then ' ' else c))

end Salvage.Url
