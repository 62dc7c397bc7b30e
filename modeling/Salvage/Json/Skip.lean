import Salvage.Json.Numeral

/-!
# Skipping a value

A value nobody wants is skipped without being built: any depth of nesting, numbers of any size. The
skipper keeps the brackets that are still open on a list, innermost first.
-/

namespace Salvage.Json

/-- An open bracket. -/
inductive Bracket where
  | list
  | object
  deriving DecidableEq, Repr

/-- The fault of a text that ends inside a bracket. -/
def Bracket.endCause : Bracket → Cause
  | .list => .endInList
  | .object => .endInObject

/-- The fault of a bracket in which neither a comma nor its end follows a value. -/
def Bracket.commaCause : Bracket → Cause
  | .list => .expectedCommaOrBracket
  | .object => .expectedCommaOrBrace

/-- The character that closes a bracket. -/
def Bracket.close : Bracket → Char
  | .list => ']'
  | .object => '\x7d'

/-- Skips the digits behind the letter of an exponent. -/
def skipExponent (cs : List Char) : Except Stop (List Char) :=
  let cs :=
    match cs with
    | '+' :: cs | '-' :: cs => cs
    | cs => cs
  match scanDigits cs with
  | ([], _) => stopIn .invalidNumber cs
  | (_, rest) => .ok rest

/-- Skips a numeral behind its sign. -/
def skipNumeral (cs : List Char) : Except Stop (List Char) := do
  let cs ←
    match cs with
    | [] => stopAt .invalidNumber []
    | c :: rest =>
      match Text.digit? c with
      | none => stopIn .invalidNumber (c :: rest)
      | some 0 =>
        if (rest.head?.bind Text.digit?).isSome then stopIn .invalidNumber rest else .ok rest
      | some _ => .ok (scanDigits rest).2
  match cs with
  | '.' :: cs =>
    match scanDigits cs with
    | ([], _) => stopIn .invalidNumber cs
    | (_, 'e' :: cs) | (_, 'E' :: cs) => skipExponent cs
    | (_, cs) => .ok cs
  | 'e' :: cs | 'E' :: cs => skipExponent cs
  | cs => .ok cs

/-- What the skipper does next. -/
inductive SkipState where
  /-- Reads a value. -/
  | value
  /-- Stands in the innermost bracket, behind a value or, if `fresh`, right behind its opening. -/
  | inside (fresh : Bool)
  deriving DecidableEq, Repr

/-- Skips the key of an entry and the colon behind it. -/
def skipKey (cs : List Char) : Except Stop (List Char) :=
  match skipSpaces cs with
  | [] => stopAt .endInObject []
  | '"' :: cs => do
    let cs ← skipText .plain cs
    match skipSpaces cs with
    | [] => stopAt .endInObject []
    | ':' :: cs => .ok cs
    | cs => stopIn .expectedColon cs
  | cs => stopIn .keyNotText cs

/-- Skips the start of a value: all of a scalar, or an opening bracket. -/
def skipStart (cs : List Char) : Except Stop (Option Bracket × List Char) :=
  match skipSpaces cs with
  | [] => stopAt .endInValue []
  | 'n' :: cs => (scanWord ['u', 'l', 'l'] cs).map fun p => (none, p.2)
  | 't' :: cs => (scanWord ['r', 'u', 'e'] cs).map fun p => (none, p.2)
  | 'f' :: cs => (scanWord ['a', 'l', 's', 'e'] cs).map fun p => (none, p.2)
  | '-' :: cs => (skipNumeral cs).map fun cs => (none, cs)
  | '"' :: cs => (skipText .plain cs).map fun cs => (none, cs)
  | '[' :: cs => .ok (some .list, cs)
  | '\x7b' :: cs => .ok (some .object, cs)
  | c :: cs =>
    if (Text.digit? c).isSome then (skipNumeral (c :: cs)).map fun cs => (none, cs)
    else stopIn .expectedValue (c :: cs)

/-- Goes to the next value of the innermost bracket. -/
def skipToValue (b : Bracket) (cs : List Char) : Except Stop (List Char) :=
  match b with
  | .list => .ok cs
  | .object => skipKey cs

/-- Skips values until no bracket is open. Of two rounds in a row one reads a character, so twice as
many rounds as there are characters suffice. -/
def skipRounds : Nat → SkipState → List Bracket → List Char → Except Stop (List Char)
  | 0, _, _, cs => stopAt .endInValue cs
  | n + 1, .value, opened, cs => do
    match ← skipStart cs with
    | (some b, cs) => skipRounds n (.inside true) (b :: opened) cs
    | (none, cs) =>
      match opened with
      | [] => .ok cs
      | _ => skipRounds n (.inside false) opened cs
  | _ + 1, .inside _, [], cs => .ok cs
  | n + 1, .inside fresh, b :: opened, cs =>
    match skipSpaces cs with
    | [] => stopAt b.endCause []
    | c :: rest =>
      if c = ',' ∧ !fresh then do
        let cs ← skipToValue b rest
        skipRounds n .value (b :: opened) cs
      else if c = b.close then
        match opened with
        | [] => .ok rest
        | _ => skipRounds n (.inside false) opened rest
      else if fresh then do
        let cs ← skipToValue b (c :: rest)
        skipRounds n .value (b :: opened) cs
      else stopIn b.commaCause (c :: rest)

/-- Skips a value of any kind. -/
def skipValue (cs : List Char) : Except Stop (List Char) :=
  skipRounds (2 * cs.length + 1) .value [] cs

end Salvage.Json
