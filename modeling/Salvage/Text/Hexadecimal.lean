/-!
# Hexadecimal digits

Digits in both cases are read; `hexValue?_capitalHex` says that a capital digit reads back.
-/

namespace Salvage.Text

/-- The value of a hexadecimal digit. -/
def hexValue? (c : Char) : Option Nat :=
  if '0' ≤ c ∧ c ≤ '9' then some (c.toNat - '0'.toNat)
  else if 'a' ≤ c ∧ c ≤ 'f' then some (c.toNat - 'a'.toNat + 10)
  else if 'A' ≤ c ∧ c ≤ 'F' then some (c.toNat - 'A'.toNat + 10)
  else none

/-- The capital hexadecimal digit of a number below sixteen. -/
def capitalHex (n : Nat) : Char :=
  Char.ofNat (if n < 10 then '0'.toNat + n else 'A'.toNat + (n - 10))

/-- Writing a digit and reading it gives the number back. -/
theorem hexValue?_capitalHex {n : Nat} (h : n < 16) : hexValue? (capitalHex n) = some n := by
  have all : ∀ m ∈ List.range 16, hexValue? (capitalHex m) = some m := by decide
  exact all n (List.mem_range.2 h)

end Salvage.Text
