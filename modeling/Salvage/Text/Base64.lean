/-!
# Base 64

Bytes as text. Three bytes are written as four digits of six bits each; what is missing at the end is
filled up with equals signs.
-/

namespace Salvage.Text

/-- The digits of base 64, in the order of their values. -/
def base64Digits : List Char :=
  "ABCDEFGHIJKLMNOPQRSTUVWXYZabcdefghijklmnopqrstuvwxyz0123456789+/".toList

/-- The digit of a number below 64. -/
def base64Digit (n : Nat) : Char :=
  base64Digits.getD n '='

/-- The digits of some bytes. -/
def base64Chars : List UInt8 → List Char
  | [] => []
  | [a] => [base64Digit (a.toNat / 4), base64Digit (a.toNat % 4 * 16), '=', '=']
  | [a, b] =>
    [base64Digit (a.toNat / 4), base64Digit (a.toNat % 4 * 16 + b.toNat / 16),
      base64Digit (b.toNat % 16 * 4), '=']
  | a :: b :: c :: rest =>
    base64Digit (a.toNat / 4) :: base64Digit (a.toNat % 4 * 16 + b.toNat / 16) ::
      base64Digit (b.toNat % 16 * 4 + c.toNat / 64) :: base64Digit (c.toNat % 64) :: base64Chars rest

/-- Bytes as text. -/
def base64 (bytes : List UInt8) : String :=
  String.ofList (base64Chars bytes)

end Salvage.Text
