import Salvage.Json.Scan
import Salvage.Text.Decimal

/-!
# Numerals

A numeral is scanned as digits: a whole part, a fraction and an exponent. A numeral without
fraction and exponent that fits 64 bits is an integer. Every other numeral is a decimal, which must
be finite when it is rounded to 53 significant bits; `Numeral.isFinite` decides that on natural
numbers.
-/

namespace Salvage.Json

/-- The digits of a number as they are written. -/
structure Numeral where
  negative : Bool
  whole : List Nat
  /-- The digits behind the point, if there is one. -/
  fraction : List Nat
  /-- Whether the exponent is below zero, and its digits, if there is one. -/
  exponent : Option (Bool × List Nat)
  deriving DecidableEq, Repr

/-- The digits at the start of a text, and the text behind them. -/
def scanDigits : List Char → List Nat × List Char
  | [] => ([], [])
  | c :: cs =>
    match Text.digit? c with
    | none => ([], c :: cs)
    | some d => (d :: (scanDigits cs).1, (scanDigits cs).2)

/-- Scans what follows the whole part of a numeral behind the letter of an exponent. -/
def scanExponent (cs : List Char) : Scanned (Bool × List Nat) :=
  let (negative, cs) :=
    match cs with
    | '+' :: cs => (false, cs)
    | '-' :: cs => (true, cs)
    | cs => (false, cs)
  match scanDigits cs, cs with
  | ([], _), [] => stopAt .endInValue []
  | ([], _), c :: cs => stopIn .invalidNumber (c :: cs)
  | (ds, rest), _ => .ok ((negative, ds), rest)

/-- Scans an exponent, if there is one. -/
def scanExponent? (cs : List Char) : Scanned (Option (Bool × List Nat)) :=
  match cs with
  | 'e' :: cs | 'E' :: cs => (scanExponent cs).map fun p => (some p.1, p.2)
  | cs => .ok (none, cs)

/-- Scans a fraction, if there is one. A point needs a digit behind it. -/
def scanFraction (cs : List Char) : Scanned (List Nat) :=
  match cs with
  | '.' :: cs =>
    match scanDigits cs, cs with
    | ([], _), [] => stopAt .endInValue []
    | ([], _), c :: cs => stopIn .invalidNumber (c :: cs)
    | (ds, rest), _ => .ok (ds, rest)
  | cs => .ok ([], cs)

/-- Scans a whole part. A leading zero stands alone. -/
def scanWhole (cs : List Char) : Scanned (List Nat) :=
  match cs with
  | [] => stopAt .endInValue []
  | c :: rest =>
    match Text.digit? c with
    | none => stopIn .invalidNumber (c :: rest)
    | some 0 =>
      match rest.head?.bind Text.digit? with
      | some _ => stopIn .invalidNumber rest
      | none => .ok ([0], rest)
    | some d => .ok (d :: (scanDigits rest).1, (scanDigits rest).2)

/-- Scans a numeral behind its sign. -/
def scanNumeral (negative : Bool) (cs : List Char) : Except Stop (Numeral × List Char) := do
  let (whole, cs) ← scanWhole cs
  let (fraction, cs) ← scanFraction cs
  let (exponent, cs) ← scanExponent? cs
  return (⟨negative, whole, fraction, exponent⟩, cs)

/-- Appends digits to a number as long as it fits 64 bits; also the digits that are left. -/
def takeDigits : Nat → List Nat → Nat × List Nat
  | n, [] => (n, [])
  | n, d :: ds => if n * 10 + d < Nat.pow 2 64 then takeDigits (n * 10 + d) ds else (n, d :: ds)

/-- The number written by some digits. -/
def ofDigits (ds : List Nat) : Nat :=
  ds.foldl (fun n d => n * 10 + d) 0

/-- The leading digits of a numeral that fit 64 bits, as one number. -/
def Numeral.significand (n : Numeral) : Nat :=
  (takeDigits (takeDigits 0 n.whole).1 n.fraction).1

/-- The greatest size of an exponent that is told apart from larger ones. -/
def exponentLimit : Nat := Nat.pow 2 31 - 1

/-- The power of ten that the significand has to be scaled by. -/
def Numeral.scale (n : Numeral) : Int :=
  let w := takeDigits 0 n.whole
  let written : Int :=
    match n.exponent with
    | none => 0
    | some (negative, ds) => if negative then -(ofDigits ds : Int) else ofDigits ds
  (w.2.length : Int) - (n.fraction.length - (takeDigits w.1 n.fraction).2.length : Nat) + written

/-- A natural number rounded to 53 significant bits, a tie to the even neighbour. -/
def roundToDouble (n : Nat) : Nat :=
  let unit := Nat.pow 2 (n.log2 + 1 - 53)
  let q := n / unit
  let r := n % unit
  (if 2 * r < unit ∨ (2 * r = unit ∧ q % 2 = 0) then q else q + 1) * unit

/-- A numeral is finite when it stays below the least number that rounds to infinity. -/
def Numeral.isFinite (n : Numeral) : Bool :=
  let endless :=
    match n.exponent with
    | some (false, ds) => decide (exponentLimit < ofDigits ds)
    | _ => false
  n.significand = 0 ||
    (!endless && (n.scale < 0 ||
      (n.scale ≤ 308 &&
        decide (roundToDouble n.significand * roundToDouble (Nat.pow 10 n.scale.toNat)
          < (Nat.pow 2 54 - 1) * Nat.pow 2 970))))

/-- The integer a numeral stands for, if it is one: no fraction, no exponent, at most 64 bits, and
not a negative zero. -/
def Numeral.integer? (n : Numeral) : Option Int :=
  let w := takeDigits 0 n.whole
  if n.fraction ≠ [] ∨ n.exponent ≠ none ∨ w.2 ≠ [] then none
  else if n.negative then
    if 0 < w.1 ∧ w.1 ≤ Nat.pow 2 63 then some (-(w.1 : Int)) else none
  else some w.1

end Salvage.Json
