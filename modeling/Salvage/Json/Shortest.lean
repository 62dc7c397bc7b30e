import Salvage.Json.Numeral
import Salvage.Text.Shortest

/-!
# Decimals in messages

A message shows a decimal by the fewest digits that tell it from its neighbours: positionally while
the point is among the first sixteen digits or at most four zeros stand in front of them, and with
an exponent otherwise.
-/

namespace Salvage.Json

/-- Text with a point behind its first character, unless that is all. -/
def pointBehindFirst : List Char → List Char
  | c :: d :: cs => c :: '.' :: d :: cs
  | cs => cs

/-- How a decimal is shown. -/
def showDecimal (d : Text.Decimal) : List Char :=
  let digits := Nat.toDigits 10 d.digits
  let magnitude := (digits.length : Int) + d.exponent
  if 0 ≤ d.exponent ∧ magnitude ≤ 16 then
    digits ++ List.replicate d.exponent.toNat '0' ++ ['.', '0']
  else if 0 < magnitude ∧ magnitude ≤ 16 then
    digits.take magnitude.toNat ++ '.' :: digits.drop magnitude.toNat
  else if -5 < magnitude ∧ magnitude ≤ 0 then
    '0' :: '.' :: List.replicate (-magnitude).toNat '0' ++ digits
  else pointBehindFirst digits ++ 'e' :: (toString (magnitude - 1)).toList

/-- Divides a number by a power of ten, at most `10 ^ 308` at a time. -/
def divideByPower (x : Float) : Nat → Nat → Float
  | 0, _ => x
  | fuel + 1, n =>
    if n ≤ 308 then x / Float.ofNat (Nat.pow 10 n)
    else divideByPower (x / Float.ofNat (Nat.pow 10 308)) fuel (n - 308)

/-- The size of a finite numeral, rounded to 53 significant bits after each step. -/
def Numeral.size (n : Numeral) : Float :=
  let x := Float.ofNat n.significand
  if n.significand = 0 then x
  else if 0 ≤ n.scale then x * Float.ofNat (Nat.pow 10 n.scale.toNat)
  else divideByPower x 4 (min (-n.scale).toNat 1000)

/-- A finite numeral in its shortest form. -/
def Numeral.shortest (n : Numeral) : String :=
  let b := Text.Binary.ofBits n.size.toBits.toNat
  let digits := if b.significand = 0 then "0.0".toList else showDecimal b.shortest
  String.ofList (if n.negative then '-' :: digits else digits)

end Salvage.Json
