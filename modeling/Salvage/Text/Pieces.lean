/-!
# Cutting texts

A text cut at every separator, and at nothing else.
-/

namespace Salvage.Text

/-- The pieces of a text between separators. There is always one. -/
def pieces (separator : Char) : List Char → List (List Char)
  | [] => [[]]
  | c :: cs =>
    if c = separator then [] :: pieces separator cs
    else
      match pieces separator cs with
      | [] => [[c]]
      | piece :: rest => (c :: piece) :: rest

end Salvage.Text
