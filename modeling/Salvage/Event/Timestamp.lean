import Salvage.Text.Blank

/-!
# Timestamps

A moment in universal time, to the nanosecond, with the calendar extended to all years. A leap
second is told apart from the second before it by its nanoseconds, which go on above a billion.
Timestamps are written as date, time and `Z`, with as many digits behind the point as are needed, in
groups of three. They are read more freely: with blanks between their parts, any number of digits
behind the point, and any offset from universal time.
-/

namespace Salvage

/-- A date of the calendar. -/
structure Date where
  year : Int
  month : Nat
  day : Nat
  deriving DecidableEq, Repr

/-- A moment in universal time. -/
structure Timestamp where
  /-- Seconds since the start of 1970, leap seconds not counted. -/
  seconds : Int
  /-- Nanoseconds into the second; a billion or more in a leap second. -/
  nanos : Nat
  deriving DecidableEq, Repr

namespace Date

/-- A year of 366 days. -/
def isLeapYear (year : Int) : Bool :=
  year % 4 == 0 && (year % 100 != 0 || year % 400 == 0)

/-- The number of days of a month. -/
def monthLength (year : Int) (month : Nat) : Nat :=
  if month = 2 then if isLeapYear year then 29 else 28
  else if month = 4 ∨ month = 6 ∨ month = 9 ∨ month = 11 then 30
  else 31

/-- The date exists and its year is one the calendar reaches. -/
def isValid (d : Date) : Bool :=
  decide (-262143 ≤ d.year ∧ d.year ≤ 262142 ∧ 1 ≤ d.month ∧ d.month ≤ 12 ∧ 1 ≤ d.day ∧
    d.day ≤ monthLength d.year d.month)

/-- The number of days from the start of 1970 to a date. Years are counted from March, so that a
leap day is the last day of its year. -/
def toDays (d : Date) : Int :=
  let year := if d.month ≤ 2 then d.year - 1 else d.year
  let month := if d.month ≤ 2 then d.month + 9 else d.month - 3
  let era := year / 400
  let yearOfEra := year % 400
  let dayOfYear := (153 * month + 2) / 5 + d.day - 1
  era * 146097 + yearOfEra * 365 + yearOfEra / 4 - yearOfEra / 100 + dayOfYear - 719468

/-- The date a number of days after the start of 1970. -/
def ofDays (days : Int) : Date :=
  let shifted := days + 719468
  let era := shifted / 146097
  let day := (shifted % 146097).toNat
  let yearOfEra := (day - day / 1460 + day / 36524 - day / 146096) / 365
  let dayOfYear := day - (365 * yearOfEra + yearOfEra / 4 - yearOfEra / 100)
  let month := (5 * dayOfYear + 2) / 153
  let year := yearOfEra + era * 400
  let dayOfMonth := dayOfYear - (153 * month + 2) / 5 + 1
  if month < 10 then ⟨year, month + 3, dayOfMonth⟩ else ⟨year + 1, month - 9, dayOfMonth⟩

end Date

namespace Timestamp

/-- A number in decimal with at least `width` digits. -/
def padded (width n : Nat) : List Char :=
  let digits := Nat.toDigits 10 n
  List.replicate (width - digits.length) '0' ++ digits

/-- A year. One of more than four digits or below zero has a sign. -/
def printYear (year : Int) : List Char :=
  if 0 ≤ year ∧ year ≤ 9999 then padded 4 year.toNat
  else (if year < 0 then '-' else '+') :: padded 4 year.natAbs

/-- The digits behind the point, in groups of three. -/
def printNanos (nanos : Nat) : List Char :=
  if nanos = 0 then []
  else if nanos % 1000000 = 0 then '.' :: padded 3 (nanos / 1000000)
  else if nanos % 1000 = 0 then '.' :: padded 6 (nanos / 1000)
  else '.' :: padded 9 nanos

/-- Writes a timestamp. -/
def print (t : Timestamp) : List Char :=
  let date := Date.ofDays (t.seconds / 86400)
  let second := (t.seconds % 86400).toNat
  let leap := t.nanos / 1000000000
  printYear date.year ++ '-' :: padded 2 date.month ++ '-' :: padded 2 date.day ++
    'T' :: padded 2 (second / 3600) ++ ':' :: padded 2 (second / 60 % 60) ++
    ':' :: padded 2 (second % 60 + leap) ++ printNanos (t.nanos % 1000000000) ++ ['Z']

/-- The text behind leading blanks. -/
def skipBlanks (cs : List Char) : List Char :=
  cs.dropWhile Text.isBlank

/-- The value of an ASCII digit. -/
def digit? (c : Char) : Option Nat :=
  if c.isDigit then some (c.toNat - '0'.toNat) else none

/-- Reads up to `width` digits after a number read so far. -/
def readMore : Nat → Nat → List Char → Nat × List Char
  | 0, n, cs => (n, cs)
  | _, n, [] => (n, [])
  | width + 1, n, c :: cs =>
    match digit? c with
    | some d => readMore width (n * 10 + d) cs
    | none => (n, c :: cs)

/-- Reads a number of one to `width` digits behind blanks. -/
def readNumber (width : Nat) (cs : List Char) : Option (Nat × List Char) :=
  let cs := skipBlanks cs
  if (cs.head?.bind digit?).isSome then some (readMore width 0 cs) else none

/-- Reads a year: up to four digits, or any number of them behind a sign. -/
def readYear (cs : List Char) : Option (Int × List Char) :=
  match skipBlanks cs with
  | '-' :: cs =>
    if (cs.head?.bind digit?).isSome then
      let (n, cs) := readMore cs.length 0 cs
      some (-(n : Int), cs)
    else none
  | '+' :: cs =>
    if (cs.head?.bind digit?).isSome then
      let (n, cs) := readMore cs.length 0 cs
      some ((n : Int), cs)
    else none
  | cs => (readNumber 4 cs).map fun p => ((p.1 : Int), p.2)

/-- Expects a character behind blanks. -/
def expect (c : Char) (cs : List Char) : Option (List Char) :=
  match skipBlanks cs with
  | d :: cs => if d = c then some cs else none
  | [] => none

/-- Reads a date. -/
def readDate (cs : List Char) : Option (Date × List Char) := do
  let (year, cs) ← readYear cs
  let (month, cs) ← readNumber 2 (← expect '-' cs)
  let (day, cs) ← readNumber 2 (← expect '-' cs)
  let date : Date := ⟨year, month, day⟩
  if date.isValid then some (date, cs) else none

/-- Reads the nanoseconds behind a point, if there is one. Digits after the ninth are ignored. -/
def readNanos (cs : List Char) : Option (Nat × List Char) :=
  match cs with
  | '.' :: cs =>
    if (cs.head?.bind digit?).isSome then
      let (n, rest) := readMore 9 0 cs
      some (n * Nat.pow 10 (9 - (cs.length - rest.length)), rest.dropWhile Char.isDigit)
    else none
  | cs => some (0, cs)

/-- Reads a time of day as seconds and nanoseconds. The second after the 59th is a leap second. -/
def readTime (cs : List Char) : Option ((Nat × Nat) × List Char) := do
  let (hour, cs) ← readNumber 2 cs
  let (minute, cs) ← readNumber 2 (← expect ':' cs)
  let (second, cs) ← readNumber 2 (← expect ':' cs)
  let (nanos, cs) ← readNanos cs
  if hour < 24 ∧ minute < 60 ∧ second ≤ 60 then
    let ofDay := hour * 3600 + minute * 60
    if second = 60 then some ((ofDay + 59, nanos + 1000000000), cs)
    else some ((ofDay + second, nanos), cs)
  else none

/-- Reads two digits. -/
def readPair : List Char → Option (Nat × List Char)
  | a :: b :: cs => do return ((← digit? a) * 10 + (← digit? b), cs)
  | _ => none

/-- Reads hours and minutes of an offset behind its sign, as seconds. -/
def readHours (cs : List Char) : Option (Nat × List Char) := do
  let (hours, cs) ← readPair cs
  let (minutes, cs) ← readPair (cs.dropWhile fun c => c == ':' || Text.isBlank c)
  if minutes < 60 then some (hours * 3600 + minutes * 60, cs) else none

/-- Reads an offset from universal time in seconds. -/
def readOffset (cs : List Char) : Option (Int × List Char) :=
  match skipBlanks cs with
  | 'Z' :: cs | 'z' :: cs => some (0, cs)
  | '+' :: cs => (readHours cs).map fun p => ((p.1 : Int), p.2)
  | '-' :: cs | '−' :: cs => (readHours cs).map fun p => (-(p.1 : Int), p.2)
  | u :: t :: c :: cs =>
    if [u, t, c].map Char.toUpper = ['U', 'T', 'C'] then some (0, cs) else none
  | _ => none

/-- Reads a timestamp. -/
def ofText (cs : List Char) : Option Timestamp := do
  let (date, cs) ← readDate cs
  let cs ←
    match cs with
    | 't' :: cs | 'T' :: cs | ' ' :: cs => some cs
    | _ => none
  let ((second, nanos), cs) ← readTime cs
  let (offset, cs) ← readOffset cs
  let seconds := date.toDays * 86400 + second - offset
  if skipBlanks cs = [] ∧ offset.natAbs < 86400 ∧ (Date.ofDays (seconds / 86400)).isValid then
    some ⟨seconds, nanos⟩
  else none

/-- A moment that the calendar reaches; a leap second is the last of its minute. -/
def isValid (t : Timestamp) : Bool :=
  (Date.ofDays (t.seconds / 86400)).isValid && decide (t.nanos < 2000000000) &&
    (decide (t.nanos < 1000000000) || t.seconds % 60 == 59)

end Timestamp

end Salvage
