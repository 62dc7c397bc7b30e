import Salvage.Text.Decimal
import Salvage.Json.Skip
import Salvage.Json.Shortest

/-!
# Typed readers

A reader takes a value of one type from the start of a text. Brackets may nest to a fixed depth,
except inside values that are skipped. A reader stops at the first fault it meets on its way from
left to right, so a value of the wrong type is reported even when the text breaks off behind it.

A record is written as an object with one entry per field, or as a list of its fields in order. Its
`Layout` says which fields there are; the fields read so far are kept in a draft.
-/

namespace Salvage.Json

/-- Reads a value from the start of a text. The number is the count of brackets that may still be
opened, plus one. -/
abbrev Reader (α : Type) := Nat → List Char → Except Stop (α × List Char)

/-- The depth at which reading starts. -/
def startDepth : Nat := 128

/-- Applies a function to what a reader reads. -/
def Reader.map {α β : Type} (f : α → β) (r : Reader α) : Reader β :=
  fun depth cs => (r depth cs).map fun p => (f p.1, p.2)

/-- What a numeral is when no number is wanted. -/
def Numeral.found (n : Numeral) : Found :=
  match n.integer? with
  | some i => .integer i
  | none => .decimal n.shortest

/-- Scans a numeral behind its sign and refuses one that is not finite. -/
def scanNumber (negative : Bool) (cs : List Char) : Except Stop (Numeral × List Char) := do
  let (n, cs) ← scanNumeral negative cs
  if n.integer?.isSome || n.isFinite then return (n, cs) else stopAt .numberOutOfRange cs

/-- Stops at a value of the wrong type. A scalar is read first, and its own faults win. -/
def wrongType {α : Type} (expected : String) (cs : List Char) : Except Stop α :=
  match cs with
  | [] => stopIn .expectedValue []
  | 'n' :: cs => do
    let (_, cs) ← scanWord ['u', 'l', 'l'] cs
    stopAt (.wrongType .null expected) cs
  | 't' :: cs => do
    let (_, cs) ← scanWord ['r', 'u', 'e'] cs
    stopAt (.wrongType (.bool true) expected) cs
  | 'f' :: cs => do
    let (_, cs) ← scanWord ['a', 'l', 's', 'e'] cs
    stopAt (.wrongType (.bool false) expected) cs
  | '-' :: cs => do
    let (n, cs) ← scanNumber true cs
    stopAt (.wrongType n.found expected) cs
  | '"' :: cs => do
    let (s, cs) ← scanText .plain cs
    stopAt (.wrongType (.text (String.ofList s)) expected) cs
  | '[' :: cs => stopAt (.wrongType .list expected) ('[' :: cs)
  | '\x7b' :: cs => stopAt (.wrongType .object expected) ('\x7b' :: cs)
  | c :: cs =>
    if (Text.digit? c).isSome then do
      let (n, cs) ← scanNumber false (c :: cs)
      stopAt (.wrongType n.found expected) cs
    else stopIn .expectedValue (c :: cs)

/-- Reads a string literal as a text. -/
def readText (expected : String) : Reader String := fun _ cs =>
  match skipSpaces cs with
  | [] => stopAt .endInValue []
  | '"' :: cs => (scanText .plain cs).map fun p => (String.ofList p.1, p.2)
  | cs => wrongType expected cs

/-- Reads a text. -/
def text : Reader String := readText "a string"

/-- Reads a truth value. -/
def bool : Reader Bool := fun _ cs =>
  match skipSpaces cs with
  | [] => stopAt .endInValue []
  | 't' :: cs => (scanWord ['r', 'u', 'e'] cs).map fun p => (true, p.2)
  | 'f' :: cs => (scanWord ['a', 'l', 's', 'e'] cs).map fun p => (false, p.2)
  | cs => wrongType "a boolean" cs

/-- Turns a numeral into an integer of a range. -/
def integerOf (range : Text.IntRange) (name : String) (p : Numeral × List Char) :
    Except Stop (Int × List Char) :=
  match p.1.integer? with
  | none => stopAt (.wrongType p.1.found name) p.2
  | some n => if range.contains n then .ok (n, p.2) else stopAt (.wrongValue (.integer n) name) p.2

/-- Reads an integer of a range, which messages call by its name. -/
def integer (range : Text.IntRange) (name : String) : Reader Int := fun _ cs =>
  match skipSpaces cs with
  | [] => stopAt .endInValue []
  | '-' :: cs => do integerOf range name (← scanNumber true cs)
  | c :: cs =>
    if (Text.digit? c).isSome then do integerOf range name (← scanNumber false (c :: cs))
    else wrongType name (c :: cs)

/-- The integers of 64 bits. -/
def int64 : Reader Int := integer .bits64 "i64"

/-- The integers of 32 bits. -/
def int32 : Reader Int := integer .bits32 "i32"

/-- The natural numbers below a power of two. -/
def unsigned (bits : Nat) : Reader Int := integer (.unsigned bits) s!"u{bits}"

/-- The natural numbers that count things in memory. -/
def size : Reader Int := integer (.unsigned 64) "usize"

/-- Reads `null` as nothing and leaves every other value to a reader. -/
def optional {α : Type} (r : Reader α) : Reader (Option α) := fun depth cs =>
  match skipSpaces cs with
  | 'n' :: cs => (scanWord ['u', 'l', 'l'] cs).map fun p => (none, p.2)
  | _ => (r depth cs).map fun p => (some p.1, p.2)

/-- Goes to the next element of a list, if there is one. -/
def nextElement (first : Bool) (cs : List Char) : Except Stop (Bool × List Char) :=
  match skipSpaces cs with
  | [] => stopAt .endInList []
  | ']' :: cs => .ok (false, ']' :: cs)
  | c :: cs =>
    if first then .ok (true, c :: cs)
    else if c = ',' then
      match skipSpaces cs with
      | [] => stopAt .endInValue []
      | ']' :: cs => stopIn .trailingComma (']' :: cs)
      | cs => .ok (true, cs)
    else stopIn .expectedCommaOrBracket (c :: cs)

/-- Reads the end of a list of which all wanted elements are read. -/
def endList (cs : List Char) : Except Stop (List Char) :=
  match skipSpaces cs with
  | [] => stopAt .endInList []
  | ']' :: cs => .ok cs
  | ',' :: cs =>
    match skipSpaces cs with
    | ']' :: cs => stopIn .trailingComma (']' :: cs)
    | cs => stopIn .trailingCharacters cs
  | cs => stopIn .trailingCharacters cs

/-- Reads the elements of a list up to its closing bracket. Every element takes a character, so as
many rounds as there are characters, and one more, suffice. -/
def elements {α : Type} (r : Reader α) (depth : Nat) :
    Nat → Bool → List Char → Except Stop (List α × List Char)
  | 0, _, cs => stopAt .endInList cs
  | n + 1, first, cs => do
    match ← nextElement first cs with
    | (false, cs) => return ([], cs)
    | (true, cs) =>
      let (a, cs) ← r depth cs
      let (as, cs) ← elements r depth n false cs
      return (a :: as, cs)

/-- Opens one more bracket, in front of the text behind it. -/
def descend {α : Type} (r : Reader α) : Reader α := fun depth cs =>
  if depth ≤ 1 then stopIn .tooDeep cs else r (depth - 1) (cs.drop 1)

/-- Reads a list. -/
def list {α : Type} (r : Reader α) : Reader (List α) := fun depth cs =>
  match skipSpaces cs with
  | [] => stopAt .endInValue []
  | '[' :: cs =>
    descend (fun depth cs => do
      let (as, cs) ← elements r depth (cs.length + 1) true cs
      return (as, ← endList cs)) depth ('[' :: cs)
  | cs => wrongType "a sequence" cs

/-- Goes to the key of the next entry of an object, if there is one. -/
def nextKey (first : Bool) (cs : List Char) : Except Stop (Option String × List Char) :=
  let key (cs : List Char) := (scanText .plain cs).map fun p => (some (String.ofList p.1), p.2)
  match skipSpaces cs with
  | [] => stopAt .endInObject []
  | '\x7d' :: cs => .ok (none, '\x7d' :: cs)
  | c :: cs =>
    if first then if c = '"' then key cs else stopIn .keyNotText (c :: cs)
    else if c = ',' then
      match skipSpaces cs with
      | [] => stopAt .endInValue []
      | '"' :: cs => key cs
      | '\x7d' :: cs => stopIn .trailingComma ('\x7d' :: cs)
      | cs => stopIn .keyNotText cs
    else stopIn .expectedCommaOrBrace (c :: cs)

/-- Reads the colon behind a key. -/
def colon (cs : List Char) : Except Stop (List Char) :=
  match skipSpaces cs with
  | [] => stopAt .endInObject []
  | ':' :: cs => .ok cs
  | cs => stopIn .expectedColon cs

/-- One field of a record, as it is kept in a draft of type `σ`. -/
structure FieldReader (σ : Type) where
  name : String
  /-- Whether the draft has the field already. -/
  given : σ → Bool
  /-- Whether the field may be absent at the end of a list. -/
  mayEnd : Bool
  /-- Reads the value of the field into the draft. -/
  read : σ → Reader σ

/-- A record of type `α` whose fields are kept in a draft of type `σ` until all are read. -/
structure Layout (σ α : Type) where
  /-- What messages call the record. -/
  title : String
  fields : List (FieldReader σ)
  /-- The draft without any field. -/
  empty : σ
  /-- The record, or the first field that is missing. -/
  finish : σ → Except Cause α

/-- A field with a value that must be there. -/
def FieldReader.ofReader {σ α : Type} (name : String) (get : σ → Option α) (set : α → σ → σ)
    (r : Reader α) : FieldReader σ :=
  ⟨name, fun s => (get s).isSome, false, fun s depth cs =>
    (r depth cs).map fun p => (set p.1 s, p.2)⟩

/-- A field that may be absent at the end of a list. -/
def FieldReader.orAbsent {σ : Type} (f : FieldReader σ) : FieldReader σ :=
  { f with mayEnd := true }

/-- The value of a field that must be there. -/
def require {α : Type} (name : String) (a : Option α) : Except Cause α :=
  match a with
  | some a => .ok a
  | none => .error (.missingField name)

/-- Reads the entries of an object up to its closing brace. Every entry takes a character. -/
def entries {σ : Type} (fields : List (FieldReader σ)) (depth : Nat) :
    Nat → Bool → σ → List Char → Except Stop (σ × List Char)
  | 0, _, _, cs => stopAt .endInObject cs
  | n + 1, first, s, cs => do
    match ← nextKey first cs with
    | (none, cs) => return (s, cs)
    | (some key, cs) =>
      match fields.find? fun f => f.name == key with
      | none =>
        let cs ← skipValue (← colon cs)
        entries fields depth n false s cs
      | some f =>
        if f.given s then stopAt (.duplicateField key) cs
        else do
          let (s, cs) ← f.read s depth (← colon cs)
          entries fields depth n false s cs

/-- The plural ending of a count. -/
def plural (n : Nat) : String :=
  if n = 1 then "" else "s"

/-- Stops at a list that ends in front of field number `n`. -/
def Layout.tooShort {σ α β : Type} (l : Layout σ α) (n : Nat) (cs : List Char) : Except Stop β :=
  let count := l.fields.length
  let cs :=
    match endList cs with
    | .ok rest => rest
    | .error _ => cs
  stopAt (.wrongLength n s!"struct {l.title} with {count} element{plural count}") cs

/-- Reads the fields of a record from the elements of a list, in order. -/
def Layout.positional {σ α : Type} (l : Layout σ α) (depth : Nat) :
    Nat → List (FieldReader σ) → Bool → σ → List Char → Except Stop (σ × List Char)
  | _, [], _, s, cs => .ok (s, cs)
  | n, f :: fs, first, s, cs => do
    match ← nextElement first cs with
    | (false, cs) =>
      if f.mayEnd then l.positional depth (n + 1) fs first s cs else l.tooShort n cs
    | (true, cs) =>
      let (s, cs) ← f.read s depth cs
      l.positional depth (n + 1) fs false s cs

/-- Turns a complete draft into the record behind its closing bracket. -/
def Layout.close {σ α : Type} (l : Layout σ α) (s : σ) (cs : List Char) :
    Except Stop (α × List Char) :=
  match l.finish s with
  | .ok a => .ok (a, cs)
  | .error cause => stopAt cause cs

/-- Reads a record. -/
def record {σ α : Type} (l : Layout σ α) : Reader α := fun depth cs =>
  match skipSpaces cs with
  | [] => stopAt .endInValue []
  | '[' :: cs =>
    descend (fun depth cs => do
      let (s, cs) ← l.positional depth 0 l.fields true l.empty cs
      l.close s (← endList cs)) depth ('[' :: cs)
  | '\x7b' :: cs =>
    descend (fun depth cs => do
      let (s, cs) ← entries l.fields depth (cs.length + 1) true l.empty cs
      l.close s (cs.drop 1)) depth ('\x7b' :: cs)
  | cs => wrongType s!"struct {l.title}" cs

/-- Reads the name of a variant. -/
def variantName {α : Type} (variants : List (String × α)) : Reader α := fun depth cs => do
  let (name, cs) ← readText "variant identifier" depth cs
  match variants.lookup name with
  | some a => return (a, cs)
  | none => stopAt (.unknownVariant name (variants.map Prod.fst)) cs

/-- Reads `null`. -/
def unit : Reader Unit := fun _ cs =>
  match skipSpaces cs with
  | [] => stopAt .endInValue []
  | 'n' :: cs => scanWord ['u', 'l', 'l'] cs
  | cs => wrongType "unit" cs

/-- Reads a variant without data: its name, or an object that maps its name to `null`. -/
def variant {α : Type} (variants : List (String × α)) : Reader α := fun depth cs =>
  match skipSpaces cs with
  | [] => stopAt .endInValue []
  | '"' :: cs => variantName variants depth ('"' :: cs)
  | '\x7b' :: cs =>
    descend (fun depth cs => do
      let (a, cs) ← variantName variants depth cs
      let (_, cs) ← unit depth (← colon cs)
      match skipSpaces cs with
      | [] => stopAt .endInObject []
      | '\x7d' :: cs => return (a, cs)
      | cs => stopAt .expectedValue cs) depth ('\x7b' :: cs)
  | cs => stopIn .expectedValue cs

/-- Reads a text that holds one value and nothing else. -/
def Reader.readAll {α : Type} (r : Reader α) (input : String) : Except Fault α :=
  let scanned : Except Stop α := do
    let (a, cs) ← r startDepth input.toList
    match skipSpaces cs with
    | [] => return a
    | cs => stopIn .trailingCharacters cs
  scanned.mapError (·.locate input)

/-- Reads a value of any kind, with the same limits on depth and numbers as wanted values, and
forgets it. -/
def anything : Nat → Reader Unit
  | 0, _, cs => stopAt .endInValue cs
  | n + 1, depth, cs =>
    match skipSpaces cs with
    | [] => stopAt .endInValue []
    | 'n' :: cs => scanWord ['u', 'l', 'l'] cs
    | 't' :: cs => scanWord ['r', 'u', 'e'] cs
    | 'f' :: cs => scanWord ['a', 'l', 's', 'e'] cs
    | '-' :: cs => (scanNumber true cs).map fun p => ((), p.2)
    | '"' :: cs => (scanText .plain cs).map fun p => ((), p.2)
    | '[' :: cs =>
      descend (fun depth cs => do
        let (_, cs) ← elements (anything n) depth (cs.length + 1) true cs
        return ((), ← endList cs)) depth ('[' :: cs)
    | '\x7b' :: cs =>
      descend (fun depth cs => do
        let (_, cs) ← members n depth (cs.length + 1) true cs
        return ((), cs.drop 1)) depth ('\x7b' :: cs)
    | c :: cs =>
      if (Text.digit? c).isSome then (scanNumber false (c :: cs)).map fun p => ((), p.2)
      else stopIn .expectedValue (c :: cs)
where
  /-- Reads the entries of an object up to its closing brace. -/
  members (n depth : Nat) : Nat → Bool → List Char → Except Stop (Unit × List Char)
    | 0, _, cs => stopAt .endInObject cs
    | m + 1, first, cs => do
      match ← nextKey first cs with
      | (none, cs) => return ((), cs)
      | (some _, cs) =>
        let (_, cs) ← anything n depth (← colon cs)
        members n depth m false cs

end Salvage.Json
