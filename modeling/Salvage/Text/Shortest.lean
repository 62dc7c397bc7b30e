/-!
# Shortest decimals

The fewest decimal digits that tell a binary number from its neighbours. A number is `m * 2 ^ q`;
the decimals that round to it fill an interval around it. Grids of one digit, two digits and so on
are tried; on each grid only the two points next to the number can be in the interval, because a
point further away has one of them between itself and the number.
-/

namespace Salvage.Text

/-- A positive number `significand * 2 ^ exponent` and the interval of what rounds to it. -/
structure Binary where
  significand : Nat
  exponent : Int
  /-- Whether the next number below is only half as far away as the one above. -/
  isPowerOfTwo : Bool
  deriving DecidableEq, Repr

/-- A decimal `digits * 10 ^ exponent`. -/
structure Decimal where
  digits : Nat
  exponent : Int
  deriving DecidableEq, Repr

/-- The number of 53 significant bits that 64 bits stand for, without its sign. -/
def Binary.ofBits (bits : Nat) : Binary :=
  let fraction : Nat := bits % Nat.pow 2 52
  let field : Nat := bits / Nat.pow 2 52 % Nat.pow 2 11
  if field = 0 then ⟨fraction, -1074, false⟩
  else ⟨fraction + Nat.pow 2 52, (field : Int) - 1075, fraction = 0 && 1 < field⟩

/-- Natural numbers over one denominator: a value and the ends of the interval around it. -/
structure Scaled where
  value : Nat
  low : Nat
  high : Nat
  denominator : Nat
  /-- Whether the ends belong to the interval. -/
  isClosed : Bool
  deriving DecidableEq, Repr

/-- A number in quarters of its last bit. -/
def Binary.scaled (b : Binary) : Scaled :=
  let e := b.exponent - 2
  let factor := Nat.pow 2 e.toNat
  { value := 4 * b.significand * factor
    low := (4 * b.significand - (if b.isPowerOfTwo then 1 else 2)) * factor
    high := (4 * b.significand + 2) * factor
    denominator := Nat.pow 2 (-e).toNat
    isClosed := b.significand % 2 = 0 }

/-- The multiple of `10 ^ e` in the interval that is nearest to the value, if there is one next to
the value. Of two at the same distance the even one is taken. -/
def Scaled.onGrid? (s : Scaled) (e : Int) : Option Nat :=
  let factor := Nat.pow 10 (-e).toNat
  let step := Nat.pow 10 e.toNat * s.denominator
  let value := s.value * factor
  let isInside (n : Nat) : Bool :=
    if s.isClosed then s.low * factor ≤ n * step && n * step ≤ s.high * factor
    else s.low * factor < n * step && n * step < s.high * factor
  let n := value / step
  let rest := value % step
  if isInside n && isInside (n + 1) then
    if 2 * rest < step || (2 * rest = step && n % 2 = 0) then some n else some (n + 1)
  else if isInside n then some n
  else if isInside (n + 1) then some (n + 1)
  else none

/-- The number of digits in front of the point. It is below one where a value starts with zeros. -/
def Scaled.magnitude (s : Scaled) : Int :=
  let whole := s.value / s.denominator
  if 0 < whole then (Nat.toDigits 10 whole).length
  else
    let zeros := (List.range 400).find? fun z => decide (s.denominator ≤ s.value * Nat.pow 10 z)
    1 - (zeros.getD 0 : Int)

/-- A decimal without zeros at its end. -/
def Decimal.trimmed : Nat → Decimal → Decimal
  | 0, d => d
  | fuel + 1, d =>
    if d.digits % 10 = 0 ∧ d.digits ≠ 0 then trimmed fuel ⟨d.digits / 10, d.exponent + 1⟩ else d

/-- The shortest decimal that rounds to a number. Seventeen digits always suffice. -/
def Binary.shortest (b : Binary) : Decimal :=
  let s := b.scaled
  let magnitude := s.magnitude
  let found := (List.range 17).findSome? fun n =>
    let e := magnitude - (n + 1 : Nat)
    (s.onGrid? e).map fun digits => (⟨digits, e⟩ : Decimal)
  (found.getD ⟨0, 0⟩).trimmed 20

end Salvage.Text
