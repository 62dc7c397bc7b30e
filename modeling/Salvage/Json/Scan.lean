import Salvage.Json.Fault
import Salvage.Text.Hexadecimal

/-!
# Scanning JSON texts

The pieces below values: blanks, words and string literals. A scanner takes the characters not yet
read and returns the rest. Where it stops it says why and how many bytes it left unread, from which
`Stop.locate` gets the line and the column.
-/

namespace Salvage.Json

/-- Why a scanner stopped, and the number of bytes behind the place where it did. -/
structure Stop where
  cause : Cause
  left : Nat
  deriving DecidableEq, Repr

/-- What a scanner returns: a value and the characters behind it. -/
abbrev Scanned (α : Type) := Except Stop (α × List Char)

/-- The number of bytes of a text in UTF-8. -/
def byteCount (cs : List Char) : Nat :=
  cs.foldl (fun n c => n + c.utf8Size) 0

/-- Stops in front of the rest. -/
def stopAt {α : Type} (cause : Cause) (rest : List Char) : Except Stop α :=
  .error ⟨cause, byteCount rest⟩

/-- Stops behind the first byte of the rest, if it has one. -/
def stopIn {α : Type} (cause : Cause) (rest : List Char) : Except Stop α :=
  .error ⟨cause, byteCount rest - 1⟩

/-- The line and the column behind some bytes: a line feed starts a new line. -/
def position (bytes : List UInt8) : Nat × Nat :=
  bytes.foldl (fun p b => if b = 10 then (p.1 + 1, 0) else (p.1, p.2 + 1)) (1, 0)

/-- The fault that a stop stands for in a whole text. -/
def Stop.locate (s : Stop) (text : String) : Fault :=
  let bytes := text.toUTF8.toList
  let p := position (bytes.take (bytes.length - s.left))
  ⟨s.cause, p.1, p.2⟩

/-- The characters that may stand between the parts of a value. -/
def isSpace (c : Char) : Bool :=
  c == ' ' || c == '\n' || c == '\t' || c == '\r'

/-- The text behind leading spaces. -/
def skipSpaces (cs : List Char) : List Char :=
  cs.dropWhile isSpace

/-- Expects the characters of a word, one after another. -/
def scanWord : List Char → List Char → Scanned Unit
  | [], cs => .ok ((), cs)
  | _ :: _, [] => stopAt .endInValue []
  | w :: ws, c :: cs =>
    if c = w then scanWord ws cs else .error ⟨.expectedWord, byteCount (c :: cs) - 1⟩

/-- The character that a one-letter escape stands for. -/
def escaped? (c : Char) : Option Char :=
  match c with
  | '"' => some '"'
  | '\\' => some '\\'
  | '/' => some '/'
  | 'b' => some '\x08'
  | 'f' => some '\x0c'
  | 'n' => some '\n'
  | 'r' => some '\r'
  | 't' => some '\t'
  | _ => none

/-- Where the scanner of a string literal is. -/
inductive TextMode where
  | plain
  /-- Behind a backslash. -/
  | escape
  /-- Inside a code unit of which `missing` digits are still to come, behind a first half of a pair
  if there is one. -/
  | unit (value missing : Nat) (first : Option Nat)
  /-- Behind the first half of a pair, in front of the backslash of the second. -/
  | pairBackslash (first : Nat)
  /-- Behind that backslash. -/
  | pairLetter (first : Nat)
  deriving DecidableEq, Repr

/-- The first halves of pairs of code units. -/
def isFirstHalf (n : Nat) : Bool :=
  decide (0xd800 ≤ n ∧ n ≤ 0xdbff)

/-- The second halves of pairs of code units. -/
def isSecondHalf (n : Nat) : Bool :=
  decide (0xdc00 ≤ n ∧ n ≤ 0xdfff)

/-- Puts a character in front of a scanned text. -/
def Scanned.push (c : Char) (s : Scanned (List Char)) : Scanned (List Char) :=
  s.map fun p => (c :: p.1, p.2)

/-- Scans a string literal behind its opening quote, up to and with its closing quote. Escaped
halves of pairs must come together. -/
def scanText : TextMode → List Char → Scanned (List Char)
  | _, [] => stopAt .endInText []
  | .plain, c :: cs =>
    if c = '"' then .ok ([], cs)
    else if c = '\\' then scanText .escape cs
    else if c.toNat < 0x20 then stopIn .controlCharacter (c :: cs)
    else Scanned.push c (scanText .plain cs)
  | .escape, c :: cs =>
    if c = 'u' then scanText (.unit 0 4 none) cs
    else
      match escaped? c with
      | some e => Scanned.push e (scanText .plain cs)
      | none => stopIn .invalidEscape (c :: cs)
  | .unit value missing first, c :: cs =>
    match Text.hexValue? c with
    | none =>
      if byteCount (c :: cs) < missing then stopAt .endInText []
      else .error ⟨.invalidEscape, byteCount (c :: cs) - missing⟩
    | some d =>
      let value := value * 16 + d
      if 1 < missing then scanText (.unit value (missing - 1) first) cs
      else
        match first with
        | none =>
          if isSecondHalf value then stopAt .loneSurrogate cs
          else if isFirstHalf value then scanText (.pairBackslash value) cs
          else Scanned.push (Char.ofNat value) (scanText .plain cs)
        | some half =>
          if isSecondHalf value then
            Scanned.push (Char.ofNat ((half - 0xd800) * 0x400 + (value - 0xdc00) + 0x10000))
              (scanText .plain cs)
          else stopAt .loneSurrogate cs
  | .pairBackslash first, c :: cs =>
    if c = '\\' then scanText (.pairLetter first) cs else stopIn .brokenSurrogatePair (c :: cs)
  | .pairLetter first, c :: cs =>
    if c = 'u' then scanText (.unit 0 4 (some first)) cs
    else stopIn .brokenSurrogatePair (c :: cs)

/-- Where the scanner of a skipped string literal is. -/
inductive SkipMode where
  | plain
  /-- Behind a backslash. -/
  | escape
  /-- Inside a code unit of which `missing` digits are still to come. -/
  | unit (missing : Nat)
  deriving DecidableEq, Repr

/-- Skips a string literal behind its opening quote. Code units need not form pairs. -/
def skipText : SkipMode → List Char → Except Stop (List Char)
  | _, [] => stopAt .endInText []
  | .plain, c :: cs =>
    if c = '"' then .ok cs
    else if c = '\\' then skipText .escape cs
    else if c.toNat < 0x20 then stopAt .controlCharacter (c :: cs)
    else skipText .plain cs
  | .escape, c :: cs =>
    if c = 'u' then skipText (.unit 4) cs
    else if (escaped? c).isSome then skipText .plain cs
    else stopIn .invalidEscape (c :: cs)
  | .unit missing, c :: cs =>
    match Text.hexValue? c with
    | none =>
      if byteCount (c :: cs) < missing then stopAt .endInText []
      else .error ⟨.invalidEscape, byteCount (c :: cs) - missing⟩
    | some _ => if 1 < missing then skipText (.unit (missing - 1)) cs else skipText .plain cs

end Salvage.Json
