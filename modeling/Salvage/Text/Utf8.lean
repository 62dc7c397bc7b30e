/-!
# Reading UTF-8

Bytes as characters. A reader goes from left to right and stops at the first place where no
character is written, and says where that is and how many bytes there cannot be read.
-/

namespace Salvage.Text

/-- A place where bytes are not UTF-8. -/
structure Utf8Fault where
  /-- How many bytes in front of it are UTF-8. -/
  index : Nat
  /-- How many bytes are at fault, or nothing when the bytes break off inside a character. -/
  length : Option Nat
  deriving DecidableEq, Repr

/-- The wording of a fault. -/
def Utf8Fault.message (f : Utf8Fault) : String :=
  match f.length with
  | some n => s!"invalid utf-8 sequence of {n} bytes from index {f.index}"
  | none => s!"incomplete utf-8 byte sequence from index {f.index}"

/-- What a byte says about the character that starts with it. -/
structure Lead where
  /-- How many bytes follow. -/
  more : Nat
  /-- The least second byte. -/
  low : Nat
  /-- The greatest second byte. -/
  high : Nat
  /-- The bits of the character that are in the first byte. -/
  bits : Nat
  deriving DecidableEq, Repr

/-- The first byte of a character of several bytes. Second bytes are limited so that a character
has only one form, is no surrogate, and is at most `0x10ffff`. -/
def lead? (b : Nat) : Option Lead :=
  if 0xc2 ≤ b ∧ b ≤ 0xdf then some ⟨1, 0x80, 0xbf, b - 0xc0⟩
  else if b = 0xe0 then some ⟨2, 0xa0, 0xbf, 0⟩
  else if b = 0xed then some ⟨2, 0x80, 0x9f, 0xd⟩
  else if 0xe1 ≤ b ∧ b ≤ 0xef then some ⟨2, 0x80, 0xbf, b - 0xe0⟩
  else if b = 0xf0 then some ⟨3, 0x90, 0xbf, 0⟩
  else if 0xf1 ≤ b ∧ b ≤ 0xf3 then some ⟨3, 0x80, 0xbf, b - 0xf0⟩
  else if b = 0xf4 then some ⟨3, 0x80, 0x8f, 4⟩
  else none

/-- Reads the `more` last bytes of a character, of which `seen` bytes with the value `bits` are
read. Without a character it gives the number of bytes at fault. -/
def readTail : Nat → Nat → Nat → List UInt8 → Except (Option Nat) (Char × Nat)
  | 0, seen, bits, _ => .ok (Char.ofNat bits, seen)
  | _ + 1, _, _, [] => .error none
  | more + 1, seen, bits, b :: bytes =>
    if 0x80 ≤ b.toNat ∧ b.toNat ≤ 0xbf then
      readTail more (seen + 1) (bits * 64 + (b.toNat - 0x80)) bytes
    else .error (some seen)

/-- Reads one character from its first byte and the bytes behind it. With the character comes the
number of its bytes. -/
def readChar (b : UInt8) (bytes : List UInt8) : Except (Option Nat) (Char × Nat) :=
  if b.toNat < 0x80 then .ok (Char.ofNat b.toNat, 1)
  else
    match lead? b.toNat, bytes with
    | none, _ => .error (some 1)
    | some _, [] => .error none
    | some l, c :: rest =>
      if l.low ≤ c.toNat ∧ c.toNat ≤ l.high then
        readTail (l.more - 1) 2 (l.bits * 64 + (c.toNat - 0x80)) rest
      else .error (some 1)

/-- Reads bytes of which the first `index` are read, and `skip` more belong to the character in
front of them. -/
def readUtf8From : Nat → Nat → List UInt8 → Except Utf8Fault (List Char)
  | _, _, [] => .ok []
  | index, skip + 1, _ :: bytes => readUtf8From (index + 1) skip bytes
  | index, 0, b :: bytes =>
    match readChar b bytes with
    | .ok (c, n) => (readUtf8From (index + 1) (n - 1) bytes).map (c :: ·)
    | .error length => .error ⟨index, length⟩

/-- Reads bytes as text. -/
def readUtf8 (bytes : List UInt8) : Except Utf8Fault (List Char) :=
  readUtf8From 0 0 bytes

/-- Reads bytes as text, with a mark for every place that is not UTF-8. -/
def readUtf8Loosely : Nat → List UInt8 → List Char
  | _, [] => []
  | skip + 1, _ :: bytes => readUtf8Loosely skip bytes
  | 0, b :: bytes =>
    match readChar b bytes with
    | .ok (c, n) => c :: readUtf8Loosely (n - 1) bytes
    | .error (some n) => Char.ofNat 0xfffd :: readUtf8Loosely (n - 1) bytes
    | .error none => [Char.ofNat 0xfffd]

/-- The bytes of a text. -/
def utf8 (cs : List Char) : List UInt8 :=
  cs.flatMap String.utf8EncodeChar

end Salvage.Text
