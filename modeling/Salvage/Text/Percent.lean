import Salvage.Text.Hexadecimal
import Salvage.Text.Utf8

/-!
# Percent encoding

A text written with few characters. A character that is plain stands for itself; of any other one
each UTF-8 byte becomes a percent sign and two hexadecimal digits. A percent sign may be plain
itself, and then what is written does not always read back as the text that was meant.
-/

namespace Salvage.Text

/-- A byte as a percent sign and two digits. -/
def percentByte (b : UInt8) : List Char :=
  ['%', capitalHex (b.toNat / 16), capitalHex (b.toNat % 16)]

/-- How a character is written. -/
def percentChar (plain : Char → Bool) (c : Char) : List Char :=
  if plain c then [c] else (String.utf8EncodeChar c).flatMap percentByte

/-- Writes a text in which the characters that satisfy `plain` stand for themselves. -/
def percentEncode (plain : Char → Bool) (cs : List Char) : List Char :=
  cs.flatMap (percentChar plain)

/-- Reads the bytes of a text. A percent sign that no two digits follow stands for itself. -/
def percentDecode : List Char → List UInt8
  | [] => []
  | '%' :: a :: b :: cs =>
    match hexValue? a, hexValue? b with
    | some m, some n => UInt8.ofNat (m * 16 + n) :: percentDecode cs
    | _, _ => '%'.toUInt8 :: percentDecode (a :: b :: cs)
  | c :: cs => String.utf8EncodeChar c ++ percentDecode cs

/-- A written byte reads back. -/
theorem percentDecode_percentByte (b : UInt8) (cs : List Char) :
    percentDecode (percentByte b ++ cs) = b :: percentDecode cs := by
  have hb : b.toNat < 256 := b.toNat_lt
  have h₁ := hexValue?_capitalHex (n := b.toNat / 16) (by omega)
  have h₂ := hexValue?_capitalHex (n := b.toNat % 16) (by omega)
  have h : UInt8.ofNat (b.toNat / 16 * 16 + b.toNat % 16) = b := by
    rw [Nat.div_add_mod']
    exact UInt8.ofNat_toNat
  simp [percentByte, percentDecode, h₁, h₂, h]

/-- Written bytes read back. -/
theorem percentDecode_flatMap (bytes : List UInt8) (cs : List Char) :
    percentDecode (bytes.flatMap percentByte ++ cs) = bytes ++ percentDecode cs := by
  induction bytes with
  | nil => rfl
  | cons b bytes ih =>
    rw [List.flatMap_cons, List.append_assoc, percentDecode_percentByte, ih, List.cons_append]

/-- A character other than the percent sign reads as itself. -/
theorem percentDecode_cons {c : Char} (h : c ≠ '%') (cs : List Char) :
    percentDecode (c :: cs) = String.utf8EncodeChar c ++ percentDecode cs := by
  rw [percentDecode.eq_def]
  split
  · contradiction
  · rename_i heq
    exact absurd (List.cons.inj heq).1 h
  · rename_i heq
    rw [(List.cons.inj heq).1, (List.cons.inj heq).2]

/-- A written character reads as its bytes, unless it is a percent sign that stands for itself. -/
theorem percentDecode_percentChar {plain : Char → Bool} {c : Char} (h : plain c = true → c ≠ '%')
    (cs : List Char) :
    percentDecode (percentChar plain c ++ cs) = String.utf8EncodeChar c ++ percentDecode cs := by
  by_cases hc : plain c = true
  · rw [percentChar, if_pos hc]
    exact percentDecode_cons (h hc) cs
  · rw [percentChar, if_neg hc, percentDecode_flatMap]

end Salvage.Text
