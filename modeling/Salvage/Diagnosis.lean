import Salvage.Json.Fault

/-!
# Diagnoses

Why the program could not do what it was told, for its user: a chain of reasons, from what was
attempted down to what was in the way.
-/

namespace Salvage

/-- One reason of a diagnosis. -/
inductive Reason where
  | text (message : String)
  /-- A JSON text could not be read. -/
  | json (fault : Json.Fault)
  deriving DecidableEq, Repr

/-- The wording of a reason. -/
def Reason.message : Reason → String
  | .text message => message
  | .json fault => fault.message

/-- Why something failed: a reason, and the reasons behind it, outermost first. -/
structure Diagnosis where
  first : Reason
  behind : List Reason
  deriving DecidableEq, Repr

namespace Diagnosis

/-- A diagnosis of a single text. -/
def of (message : String) : Diagnosis := ⟨.text message, []⟩

/-- All reasons, outermost first. -/
def chain (d : Diagnosis) : List Reason := d.first :: d.behind

/-- A diagnosis as the cause of another one. -/
def context (message : String) (d : Diagnosis) : Diagnosis :=
  ⟨.text message, d.chain⟩

/-- A line of a report and the lines behind it, which are indented. -/
def indented (indent : String) (message : String) : String :=
  ("\n" ++ indent).intercalate (message.splitOn "\n")

/-- A number right-aligned in five columns. -/
def aligned (n : Nat) : String :=
  let digits := toString n
  "".pushn ' ' (5 - digits.length) ++ digits

/-- The report of a diagnosis: its first reason, and behind it the others, which are numbered when
there are several. -/
def report (d : Diagnosis) : String :=
  d.first.message ++
    match d.behind with
    | [] => ""
    | [r] => "\n\nCaused by:\n    " ++ indented "    " r.message
    | rs =>
      "\n\nCaused by:" ++ String.join (rs.zipIdx.map fun (r, i) =>
        "\n" ++ aligned i ++ ": " ++ indented "       " r.message)

end Diagnosis

end Salvage
