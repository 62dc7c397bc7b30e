import Salvage.Error
import Salvage.Records
import Salvage.Text.Blank
import Salvage.Text.Decimal

/-!
# Items of a record service

A record service keeps items: attributes by name. A delete record is read from an item with four
text attributes and a size, which may be written as a text or as a number, or may be unknown.
Attributes with other names do not matter.
-/

namespace Salvage

/-- The value of an attribute. -/
inductive Attribute where
  | text (value : String)
  | number (digits : String)
  | bool (value : Bool)
  | null (value : Bool)
  | binary (bytes : List UInt8)
  | texts (values : List String)
  | numbers (values : List String)
  | binaries (values : List (List UInt8))
  | list (values : List Attribute)
  | map (entries : List (String × Attribute))
  deriving Repr

namespace Attribute

/-- Texts with a comma and a space between them. -/
def commaSeparated (parts : List String) : String :=
  ", ".intercalate parts

/-- How a message shows bytes. -/
def describeBytes (bytes : List UInt8) : String :=
  "Blob \x7b inner: [" ++ commaSeparated (bytes.map fun b => toString b.toNat) ++ "] \x7d"

mutual

/-- How a message shows an attribute: its kind, and its value in parentheses. -/
def describe : Attribute → String
  | .text s => "S(" ++ Text.quoted s ++ ")"
  | .number s => "N(" ++ Text.quoted s ++ ")"
  | .bool b => s!"Bool({b})"
  | .null b => s!"Null({b})"
  | .binary bytes => "B(" ++ describeBytes bytes ++ ")"
  | .texts ss => "Ss([" ++ commaSeparated (ss.map Text.quoted) ++ "])"
  | .numbers ss => "Ns([" ++ commaSeparated (ss.map Text.quoted) ++ "])"
  | .binaries bss => "Bs([" ++ commaSeparated (bss.map describeBytes) ++ "])"
  | .list as => "L([" ++ commaSeparated (describeList as) ++ "])"
  | .map es => "M(\x7b" ++ commaSeparated (describeEntries es) ++ "\x7d)"

/-- `describe` for each attribute of a list. -/
def describeList : List Attribute → List String
  | [] => []
  | a :: as => a.describe :: describeList as

/-- `describe` for each entry of a map, behind its name. -/
def describeEntries : List (String × Attribute) → List String
  | [] => []
  | (k, a) :: es => (Text.quoted k ++ ": " ++ a.describe) :: describeEntries es

end

end Attribute

/-- Attributes by name. -/
abbrev Item := List (String × Attribute)

namespace Item

/-- The name of the attribute with the node id. -/
def nodeIdName : String := "NodeId"

/-- The attributes by which an item is looked up. -/
def keyOf (nodeId : String) : Item :=
  [(nodeIdName, .text nodeId)]

/-- The node id of an item, if it has one that is a text. -/
def nodeId? (item : Item) : Option String :=
  match item.lookup nodeIdName with
  | some (.text s) => some s
  | _ => none

/-- An attribute is of a kind that is not wanted. -/
def unexpected (name : String) (a : Attribute) : Error :=
  .recordStore s!"attribute {name} has unexpected type: {a.describe}"

/-- The text of an attribute that must be one. -/
def text (item : Item) (name : String) : Except Error String :=
  match item.lookup name with
  | some (.text s) => .ok s
  | some other => .error (unexpected name other)
  | none => .error (.recordStore s!"attribute {name} missing")

/-- Reads a size. A text without anything but blanks is an unknown size. -/
def parseSize (raw : String) : Except Error (Option Int) :=
  match Text.trimmed raw.toList with
  | [] => .ok none
  | cs =>
    match Text.readInt .bits64 cs with
    | .ok n => .ok (some n)
    | .error e =>
      .error (.recordStore s!"invalid ObjectSize {Text.quoted (String.ofList cs)}: {e.message}")

/-- The size on an item, if it is known. -/
def size (item : Item) : Except Error (Option Int) :=
  match item.lookup "ObjectSize" with
  | some (.text s) | some (.number s) => parseSize s
  | some (.null _) | none => .ok none
  | some other => .error (unexpected "ObjectSize" other)

end Item

/-- Reads a delete record from an item. -/
def DeleteRecord.ofItem (item : Item) : Except Error DeleteRecord := do
  let nodeId ← item.text Item.nodeIdName
  let bucket ← item.text "S3Bucket"
  let key ← item.text "S3Key"
  let versionId ← item.text "S3ObjectVersion"
  let size ← item.size
  return ⟨nodeId, bucket, key, versionId, size⟩

end Salvage
