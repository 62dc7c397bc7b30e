import Salvage.Text.Blank
import Salvage.Text.Decimal
import Salvage.Text.Pieces

/-!
# The log

What the program notes about itself, and which notes are let through. A filter is a list of
directives, each a source, a limit or both. The directive with the longest source that fits decides
about a note.
-/

namespace Salvage.Log

/-- How grave a note is. -/
inductive Level where
  | error
  | warn
  | info
  | debug
  | trace
  deriving DecidableEq, Repr

/-- The name of a level. -/
def Level.name : Level → String
  | .error => "ERROR"
  | .warn => "WARN"
  | .info => "INFO"
  | .debug => "DEBUG"
  | .trace => "TRACE"

/-- The limit from which on notes of a level are let through. -/
def Level.rank : Level → Nat
  | .error => 1
  | .warn => 2
  | .info => 3
  | .debug => 4
  | .trace => 5

/-- A note. -/
structure Note where
  level : Level
  message : String
  deriving DecidableEq, Repr

/-- The source of the notes of this program. -/
def source : List Char := "package_restore".toList

/-- One rule of a filter. -/
structure Directive where
  /-- The start of the sources it is about. -/
  target : List Char
  /-- The greatest rank that is let through. -/
  limit : Nat
  /-- Whether it is only about notes inside a span, of which this program has none. -/
  isInSpan : Bool := false
  deriving DecidableEq, Repr

/-- A list of directives. -/
abbrev Filter := List Directive

/-- The limits by name. -/
def limits : List (String × Nat) :=
  [("off", 0), ("error", 1), ("warn", 2), ("info", 3), ("debug", 4), ("trace", 5)]

/-- The limit that lets everything through. -/
def everything : Nat := Level.trace.rank

/-- Reads a limit: a name in any case, or its number. -/
def limit? (cs : List Char) : Option Nat :=
  match Text.readInt (.unsigned 64) cs with
  | .ok n => if n ≤ everything then some n.toNat else none
  | .error _ => limits.lookup (String.ofList (cs.map Char.toLower))

/-- Reads the limit behind an equals sign, which may be left out. -/
def limitBehind? : List Char → Option Nat
  | [] => some everything
  | ['='] => some everything
  | '=' :: cs => limit? cs
  | _ => none

/-- Reads what is behind the opening bracket of a span, up to the closing one. -/
def behindSpan? (cs : List Char) : Option (List Char) :=
  match (cs.dropWhile fun c => c ≠ ']' ∧ c ≠ '\x7b') with
  | ']' :: rest => some rest
  | '\x7b' :: rest =>
    match rest.takeWhile (· ≠ '\x7d'), rest.dropWhile (· ≠ '\x7d') with
    | _ :: _, '\x7d' :: ']' :: rest => some rest
    | _, _ => none
  | _ => none

/-- Reads a directive. One with blanks around it is taken for a source, which no note has. -/
def directive? (cs : List Char) : Option Directive := do
  let trimmed := Text.trimmed cs
  let c ← trimmed.head?
  let (target, rest) := trimmed.span fun c => c ≠ '=' ∧ c ≠ '['
  if target ≠ [] ∧ !(c.isAlphanum || ['-', ':', '_'].contains c || 0x80 ≤ c.toNat) then none
  else
    match rest with
    | '[' :: rest => return ⟨target, ← limitBehind? (← behindSpan? rest), true⟩
    | [] =>
      if trimmed ≠ cs then return ⟨cs, everything, false⟩
      else
        match limit? cs with
        | some limit => return ⟨[], limit, false⟩
        | none => return ⟨cs, everything, false⟩
    | rest =>
      if trimmed ≠ cs ∨ target = [] then none else return ⟨target, ← limitBehind? rest, false⟩

/-- Reads a filter. One without directives lets only errors through. -/
def Filter.read? (text : String) : Option Filter :=
  match (Text.pieces ',' text.toList).filter (· ≠ []) with
  | [] => some [⟨[], Level.error.rank, false⟩]
  | pieces => pieces.mapM directive?

/-- The filter of a program that was told nothing else. -/
def Filter.standard : Filter := [⟨[], Level.info.rank, false⟩]

/-- The directive that decides about the notes of this program. Of two with the same source the
later one counts. -/
def Filter.deciding? (f : Filter) : Option Directive :=
  let fitting := f.filter fun d => !d.isInSpan && d.target.isPrefixOf source
  fitting.foldl (fun best d =>
    match best with
    | none => some d
    | some b => if b.target.length ≤ d.target.length then some d else some b) none

/-- Whether a filter lets a note through. -/
def Filter.lets (f : Filter) (n : Note) : Bool :=
  match f.deciding? with
  | none => false
  | some d => decide (n.level.rank ≤ d.limit)

end Salvage.Log
