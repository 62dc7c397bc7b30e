import Salvage.Text.Quoted

/-!
# Faults in JSON texts

Why a text could not be read, in three categories: it ends too early, it is no JSON, or it is JSON
that does not hold what the reader wants. A fault also knows the line and the column at which the
reader stopped. `Cause.category` and `Cause.message` are the only places that know categories and
wording.
-/

namespace Salvage.Json

/-- What stands where a reader wanted something else. -/
inductive Found where
  | null
  | bool (value : Bool)
  | integer (value : Int)
  /-- A number with a fraction or an exponent, or beyond 64 bits, in its shortest form. -/
  | decimal (shortest : String)
  | text (value : String)
  | list
  | object
  deriving DecidableEq, Repr

/-- Why a JSON text could not be read. -/
inductive Cause where
  | endInList
  | endInObject
  | endInText
  | endInValue
  | expectedColon
  | expectedCommaOrBracket
  | expectedCommaOrBrace
  | expectedWord
  | expectedValue
  | invalidEscape
  | invalidNumber
  | numberOutOfRange
  | controlCharacter
  | keyNotText
  | loneSurrogate
  | brokenSurrogatePair
  | trailingComma
  | trailingCharacters
  | tooDeep
  /-- A value of another type. -/
  | wrongType (found : Found) (expected : String)
  /-- A value of the right type that is not allowed. -/
  | wrongValue (found : Found) (expected : String)
  /-- A list in place of a record that ends too early. -/
  | wrongLength (length : Nat) (expected : String)
  | unknownVariant (name : String) (expected : List String)
  | missingField (name : String)
  | duplicateField (name : String)
  /-- A value that its own reader refuses, in that reader's words. -/
  | refused (text : String)
  deriving DecidableEq, Repr

/-- The three ways in which a text can be unreadable. -/
inductive Category where
  /-- The text ends too early. -/
  | truncated
  /-- The text is no JSON. -/
  | malformed
  /-- The text is JSON so far, but not what is wanted. -/
  | mismatch
  deriving DecidableEq, Repr

/-- The category of a cause. -/
def Cause.category : Cause → Category
  | .endInList | .endInObject | .endInText | .endInValue => .truncated
  | .wrongType .. | .wrongValue .. | .wrongLength .. | .unknownVariant .. | .missingField ..
  | .duplicateField .. | .refused .. => .mismatch
  | _ => .malformed

/-- How a message names what was found. -/
def Found.describe : Found → String
  | .null => "null"
  | .bool b => s!"boolean `{b}`"
  | .integer n => s!"integer `{n}`"
  | .decimal shortest => s!"floating point `{shortest}`"
  | .text s => "string " ++ Text.quoted s
  | .list => "sequence"
  | .object => "map"

/-- A name between backquotes. -/
def backquoted (name : String) : String :=
  s!"`{name}`"

/-- How a message lists the variants that are allowed. -/
def oneOf : List String → String
  | [] => "there are no variants"
  | [a] => "expected " ++ backquoted a
  | [a, b] => "expected " ++ backquoted a ++ " or " ++ backquoted b
  | names => "expected one of " ++ ", ".intercalate (names.map backquoted)

/-- The wording of a cause. -/
def Cause.message : Cause → String
  | .endInList => "EOF while parsing a list"
  | .endInObject => "EOF while parsing an object"
  | .endInText => "EOF while parsing a string"
  | .endInValue => "EOF while parsing a value"
  | .expectedColon => "expected `:`"
  | .expectedCommaOrBracket => "expected `,` or `]`"
  | .expectedCommaOrBrace => "expected `,` or `" ++ "\x7d`"
  | .expectedWord => "expected ident"
  | .expectedValue => "expected value"
  | .invalidEscape => "invalid escape"
  | .invalidNumber => "invalid number"
  | .numberOutOfRange => "number out of range"
  | .controlCharacter => "control character (\\u0000-\\u001F) found while parsing a string"
  | .keyNotText => "key must be a string"
  | .loneSurrogate => "lone leading surrogate in hex escape"
  | .brokenSurrogatePair => "unexpected end of hex escape"
  | .trailingComma => "trailing comma"
  | .trailingCharacters => "trailing characters"
  | .tooDeep => "recursion limit exceeded"
  | .wrongType found expected => s!"invalid type: {found.describe}, expected {expected}"
  | .wrongValue found expected => s!"invalid value: {found.describe}, expected {expected}"
  | .wrongLength length expected => s!"invalid length {length}, expected {expected}"
  | .unknownVariant name expected => s!"unknown variant `{name}`, {oneOf expected}"
  | .missingField name => s!"missing field `{name}`"
  | .duplicateField name => s!"duplicate field `{name}`"
  | .refused text => text

/-- A cause and the place where the reader stopped, lines counted from one and columns in bytes. -/
structure Fault where
  cause : Cause
  line : Nat
  column : Nat
  deriving DecidableEq, Repr

/-- The category of a fault. -/
def Fault.category (f : Fault) : Category :=
  f.cause.category

/-- The wording of a fault. -/
def Fault.message (f : Fault) : String :=
  s!"{f.cause.message} at line {f.line} column {f.column}"

end Salvage.Json
