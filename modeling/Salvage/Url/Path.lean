import Salvage.Url.Escape

/-!
# Paths of URLs

A path is a list of segments. One that ends with a slash has an empty last segment. A segment of
one point stands for nothing, and one of two points takes back the segment before it.
-/

namespace Salvage.Url

/-- The segments of a path, as they are written. -/
abbrev Path := List (List Char)

namespace Path

/-- A character that separates segments. Under a special scheme the backslash is one too. -/
def isSlash (special : Bool) (c : Char) : Bool :=
  c = '/' || (special && c = '\\')

/-- A segment with its escaped points as points. -/
def unescapePoints : List Char → List Char
  | '%' :: '2' :: c :: cs =>
    if c = 'e' ∨ c = 'E' then '.' :: unescapePoints cs else '%' :: '2' :: c :: unescapePoints cs
  | c :: cs => c :: unescapePoints cs
  | [] => []

/-- Puts a segment behind a path. -/
def push (path : Path) (segment : List Char) (isLast : Bool) : Path :=
  let ending : Path := if isLast then [[]] else []
  match unescapePoints segment with
  | ['.', '.'] => path.dropLast ++ ending
  | ['.'] => path ++ ending
  | _ => path ++ [escapeSegment segment]

/-- Cuts a text into segments, and puts them behind a path. The characters of the segment at hand
are kept from the last to the first. -/
def readFrom (special : Bool) (path : Path) (segment : List Char) : List Char → Path
  | [] => path.push segment.reverse true
  | c :: cs =>
    if isSlash special c then readFrom special (path.push segment.reverse false) [] cs
    else readFrom special path (c :: segment) cs

/-- Reads a path, in which a slash at the start may be left out. Under a special scheme no path is
empty. -/
def read (special : Bool) (cs : List Char) : Path :=
  match cs with
  | [] => if special then [[]] else []
  | c :: rest => readFrom special [] [] (if isSlash special c then rest else cs)

/-- Writes a path. -/
def print (path : Path) : List Char :=
  path.flatMap ('/' :: ·)

end Path

end Salvage.Url
