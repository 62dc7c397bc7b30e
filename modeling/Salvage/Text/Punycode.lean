/-!
# Punycode

A text as ASCII letters, digits and hyphens: first its ASCII characters, then where the others go,
the least of them first. A place is counted as the number of insertions tried since the last one,
and written with digits of base 36 whose thresholds follow the sizes of the numbers before.
-/

namespace Salvage.Text.Punycode

/-- The digit of a number below 36: letters, then decimal digits. -/
def digit (n : Nat) : Char :=
  Char.ofNat (if n < 26 then 'a'.toNat + n else '0'.toNat + (n - 26))

/-- The threshold of the digit in place `k`, counted in steps of the base. -/
def threshold (bias k : Nat) : Nat :=
  if k ≤ bias then 1 else if bias + 26 ≤ k then 26 else k - bias

/-- Every threshold is positive. -/
theorem threshold_pos (bias k : Nat) : 0 < threshold bias k := by
  unfold threshold
  split
  · omega
  · split <;> omega

/-- Writes a number, its lowest digit first. -/
def digits (bias : Nat) (n k : Nat) : List Char :=
  let t := threshold bias k
  if n < t then [digit n]
  else digit (t + (n - t) % (36 - t)) :: digits bias ((n - t) / (36 - t)) (k + 36)
termination_by n
decreasing_by
  have := threshold_pos bias k
  exact Nat.lt_of_le_of_lt (Nat.div_le_self _ _) (by omega)

/-- Divides a number until it is small, and counts the steps of the base. -/
def shrink (n k : Nat) : Nat :=
  if 455 < n then shrink (n / 35) (k + 36) else k + 36 * n / (n + 38)
termination_by n
decreasing_by omega

/-- The bias behind the number `delta`, with which `count` characters are placed. -/
def adapt (delta count : Nat) (first : Bool) : Nat :=
  let n := if first then delta / 700 else delta / 2
  shrink (n + n / count) 0

/-- How far the encoder has come. -/
structure Progress where
  /-- The next code point to place. -/
  next : Nat
  /-- The number of insertions tried since the last one. -/
  delta : Nat
  bias : Nat
  /-- How many characters are placed. -/
  placed : Nat
  /-- Whether a number was written. -/
  started : Bool
  /-- What was written, in pieces from the last to the first. -/
  written : List (List Char)

/-- Passes one character of the text, and places it if it is the code point `m`. -/
def pass (m : Nat) (p : Progress) (c : Char) : Progress :=
  if c.toNat < m then { p with delta := p.delta + 1 }
  else if c.toNat = m then
    { p with
      delta := 0
      bias := adapt p.delta (p.placed + 1) !p.started
      placed := p.placed + 1
      started := true
      written := digits p.bias p.delta 36 :: p.written }
  else p

/-- Places all characters with the code point `m`. -/
def place (cs : List Char) (p : Progress) (m : Nat) : Progress :=
  let p := { p with delta := p.delta + (m - p.next) * (p.placed + 1) }
  let p := cs.foldl (pass m) p
  { p with delta := p.delta + 1, next := m + 1 }

/-- Writes a text. -/
def encode (cs : List Char) : List Char :=
  let isBasic (c : Char) : Bool := c.toNat < 128
  let basic := cs.filter isBasic
  let others := ((cs.filter fun c => !isBasic c).map Char.toNat).eraseDups.mergeSort
  let start : Progress := ⟨128, 0, 72, basic.length, false, []⟩
  let p := others.foldl (place cs) start
  basic ++ (if basic = [] then [] else ['-']) ++ p.written.reverse.flatten

end Salvage.Text.Punycode
