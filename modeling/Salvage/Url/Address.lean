import Salvage.Text.Hexadecimal
import Salvage.Text.Pieces

/-!
# Addresses of hosts

IPv4 and IPv6 addresses as they stand in URLs. An IPv4 address may be written with fewer than four
numbers, and its numbers in octal or hexadecimal; an IPv6 address is eight pieces, of which one run
of zeros may be left out, and the last two may be written as an IPv4 address.
-/

namespace Salvage.Url

open Text

/-- The number that digits of a base stand for. -/
def ofDigits? (base : Nat) (cs : List Char) : Option Nat :=
  cs.foldlM (fun n c => do
    let d ← hexValue? c
    if d < base then return n * base + d else none) 0

/-- One number of an IPv4 address: hexadecimal behind `0x`, octal behind `0`, else decimal. -/
def ipv4Number? : List Char → Option Nat
  | [] => none
  | ['0'] => some 0
  | '0' :: 'x' :: cs => ofDigits? 16 cs
  | '0' :: 'X' :: cs => ofDigits? 16 cs
  | '0' :: cs => ofDigits? 8 cs
  | cs => ofDigits? 10 cs

/-- The pieces of a name between its points, without an empty piece at the end. -/
def labels (cs : List Char) : List (List Char) :=
  let pieces := pieces '.' cs
  if 1 < pieces.length && pieces.getLast? == some [] then pieces.dropLast else pieces

/-- Whether a name has to be an IPv4 address. -/
def endsInNumber (cs : List Char) : Bool :=
  match (labels cs).getLast? with
  | none | some [] => false
  | some piece => piece.all (fun c => '0' ≤ c && c ≤ '9') || (ipv4Number? piece).isSome

/-- Reads an IPv4 address. The last number fills all bytes that the others leave. -/
def ipv4? (cs : List Char) : Option Nat := do
  let numbers ← (labels cs).mapM ipv4Number?
  let last ← numbers.getLast?
  let firsts := numbers.dropLast
  if numbers.length ≤ 4 && firsts.all (· ≤ 255) && last < Nat.pow 256 (4 - firsts.length) then
    return firsts.zipIdx.foldl (fun n p => n + p.1 * Nat.pow 256 (3 - p.2)) last
  else none

/-- Writes an IPv4 address. -/
def printIpv4 (n : Nat) : List Char :=
  (".".intercalate ([3, 2, 1, 0].map fun i => toString (n / Nat.pow 256 i % 256))).toList

/-- One piece of an IPv6 address. -/
def ipv6Piece? (cs : List Char) : Option Nat :=
  if cs = [] ∨ 4 < cs.length then none else ofDigits? 16 cs

/-- The four decimal numbers at the end of an IPv6 address, as two pieces. -/
def ipv6Ending? (cs : List Char) : Option (List Nat) := do
  let number? (piece : List Char) : Option Nat := do
    if piece = [] ∨ (1 < piece.length ∧ piece.head? = some '0') then none
    else
      let n ← ofDigits? 10 piece
      if n ≤ 255 then return n else none
  match ← (pieces '.' cs).mapM number? with
  | [a, b, c, d] => return [a * 256 + b, c * 256 + d]
  | _ => none

/-- The pieces of one side of an IPv6 address. -/
def ipv6Side? (mayEndInIpv4 : Bool) (cs : List Char) : Option (List Nat) :=
  if cs = [] then some []
  else do
    let texts := pieces ':' cs
    let last ← texts.getLast?
    let firsts ← texts.dropLast.mapM ipv6Piece?
    if mayEndInIpv4 && last.contains '.' then return firsts ++ (← ipv6Ending? last)
    else return firsts ++ [← ipv6Piece? last]

/-- A text cut at its first double colon, if there is one. -/
def cutAtGap : List Char → Option (List Char × List Char)
  | ':' :: ':' :: cs => some ([], cs)
  | c :: cs => (cutAtGap cs).map fun p => (c :: p.1, p.2)
  | [] => none

/-- Reads an IPv6 address as its eight pieces. -/
def ipv6? (cs : List Char) : Option (List Nat) :=
  match cutAtGap cs with
  | none => do
    let pieces ← ipv6Side? true cs
    if pieces.length = 8 then return pieces else none
  | some (left, right) => do
    let left ← ipv6Side? false left
    let right ← ipv6Side? true right
    let gap := 8 - (left.length + right.length)
    if 0 < gap then return left ++ List.replicate gap 0 ++ right else none

/-- The start and the length of the first of the longest runs of zeros. -/
def longestGap (pieces : List Nat) : Nat × Nat :=
  let runs := (List.range pieces.length).map fun i =>
    (i, ((pieces.drop i).takeWhile (· == 0)).length)
  runs.foldl (fun best run => if best.2 < run.2 then run else best) (0, 0)

/-- Writes an IPv6 address. A run of two zeros or more is left out. -/
def printIpv6 (pieces : List Nat) : List Char :=
  let printAll (pieces : List Nat) : List Char :=
    [':'].intercalate (pieces.map (Nat.toDigits 16))
  let (start, length) := longestGap pieces
  if length < 2 then printAll pieces
  else printAll (pieces.take start) ++ [':', ':'] ++ printAll (pieces.drop (start + length))

end Salvage.Url
