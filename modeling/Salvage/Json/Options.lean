import Salvage.Json.Reader

/-!
# Records of options

A record all of whose fields may be left out or be `null`. The draft of such a record is the record
itself, with the names of the fields that were given.
-/

namespace Salvage.Json

/-- The options read so far, behind the names of the fields that were given. -/
abbrev Draft (σ : Type) := List String × σ

/-- A field that may be left out or be `null`. -/
def field {σ α : Type} (name : String) (r : Reader α) (set : Option α → σ → σ) :
    FieldReader (Draft σ) where
  name := name
  given := fun d => d.1.contains name
  mayEnd := false
  read := fun d depth cs => (optional r depth cs).map fun p => ((name :: d.1, set p.1 d.2), p.2)

/-- Reads options, which messages call by their title. -/
def options {σ : Type} (title : String) (empty : σ) (fields : List (FieldReader (Draft σ))) :
    Reader σ :=
  record ⟨title, fields, ([], empty), fun d => .ok d.2⟩

end Salvage.Json
