/-!
# Reading decimal integers

An optional sign and one or more ASCII digits, in a range fixed by the caller. The reader goes from
left to right and reports what it meets first: a character that is no digit, or a value that has
left the range. `FormatError.message` has the wording.
-/

namespace Salvage.Text

/-- Why a text is not an integer of the range asked for. -/
inductive FormatError where
  /-- The text has no character. -/
  | empty
  /-- The text is a lone sign, or holds something else than digits. -/
  | invalidDigit
  /-- The value is above the range. -/
  | tooLarge
  /-- The value is below the range. -/
  | tooSmall
  deriving DecidableEq, Repr

/-- The wording of a format error. -/
def FormatError.message : FormatError → String
  | .empty => "cannot parse integer from empty string"
  | .invalidDigit => "invalid digit found in string"
  | .tooLarge => "number too large to fit in target type"
  | .tooSmall => "number too small to fit in target type"

/-- The value of an ASCII digit. -/
def digit? (c : Char) : Option Nat :=
  if '0' ≤ c ∧ c ≤ '9' then some (c.toNat - '0'.toNat) else none

/-- Reads digits after a value `n` read so far, which must stay at most `max`. -/
def readUp (max : Nat) : Nat → List Char → Except FormatError Nat
  | n, [] => .ok n
  | n, c :: rest =>
    match digit? c with
    | none => .error .invalidDigit
    | some d => if n * 10 + d ≤ max then readUp max (n * 10 + d) rest else .error .tooLarge

/-- Reads digits after a value `-n` read so far, where `n` must stay at most `max`. -/
def readDown (max : Nat) : Nat → List Char → Except FormatError Nat
  | n, [] => .ok n
  | n, c :: rest =>
    match digit? c with
    | none => .error .invalidDigit
    | some d => if n * 10 + d ≤ max then readDown max (n * 10 + d) rest else .error .tooSmall

/-- A range of integers that contains zero. -/
structure IntRange where
  /-- The greatest value below zero is `-below`. -/
  below : Nat
  /-- The greatest value. -/
  above : Nat
  deriving DecidableEq, Repr

/-- The integers of 32 bits. -/
def IntRange.bits32 : IntRange := ⟨Nat.pow 2 31, Nat.pow 2 31 - 1⟩

/-- The integers of 64 bits. -/
def IntRange.bits64 : IntRange := ⟨Nat.pow 2 63, Nat.pow 2 63 - 1⟩

/-- The natural numbers below `2 ^ bits`. -/
def IntRange.unsigned (bits : Nat) : IntRange := ⟨0, Nat.pow 2 bits - 1⟩

/-- Membership in a range. -/
def IntRange.contains (r : IntRange) (n : Int) : Bool :=
  decide (-(r.below : Int) ≤ n ∧ n ≤ r.above)

/-- Reads an integer of a range. A minus sign is a sign only where the range goes below zero. -/
def readInt (r : IntRange) : List Char → Except FormatError Int
  | [] => .error .empty
  | ['+'] | ['-'] => .error .invalidDigit
  | '+' :: rest => (readUp r.above 0 rest).map Int.ofNat
  | '-' :: rest =>
    if r.below = 0 then .error .invalidDigit
    else (readDown r.below 0 rest).map fun n => -(n : Int)
  | cs => (readUp r.above 0 cs).map Int.ofNat

end Salvage.Text
