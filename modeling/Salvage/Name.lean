import Salvage.Error
import Salvage.Package.State

/-!
# Names of trashed packages

A package in the trash carries its old name behind a prefix with its node id, so it never stands in
the way of a package that is alive. When it comes back it gets the first free name of a list of
candidates: its old name, the old name with one of a hundred numbers, and last the old name with a
token that no other package has.
-/

namespace Salvage.Name

/-- The prefix of the name of a trashed package. -/
def deletedPrefix (nodeId : String) : String :=
  s!"__{Package.State.deleted.name}__{nodeId}_"

/-- What is behind a prefix of a text, if the text starts with it. -/
def behind? : List Char → List Char → Option (List Char)
  | [], cs => some cs
  | _ :: _, [] => none
  | a :: as, c :: cs => if a = c then behind? as cs else none

/-- The name that a trashed package had before. -/
def former (deletedName nodeId : String) : Except Error String :=
  let expected := deletedPrefix nodeId
  match behind? expected.toList deletedName.toList with
  | some cs => .ok (String.ofList cs)
  | none => .error (.invalidDeletedName deletedName expected)

/-- A name cut in front of its last point, if it has one. -/
def splitExtension : List Char → List Char × List Char
  | [] => ([], [])
  | c :: cs =>
    let (base, extension) := splitExtension cs
    if c = '.' ∧ extension = [] then ([], c :: cs) else (c :: base, extension)

/-- A name with a mark between its base and its extension. -/
def marked (name mark : String) : String :=
  let (base, extension) := splitExtension name.toList
  String.ofList base ++ "-restored_" ++ mark ++ String.ofList extension

/-- How many numbered candidates there are. -/
def numberLimit : Nat := 100

/-- The names to try for a package, in order. -/
def candidates (name token : String) : List String :=
  name :: (List.range numberLimit).map (fun n => marked name (toString (n + 1))) ++
    [marked name token]

/-- How many names are tried for a package at most: the old one, the numbered ones and the last. -/
def attemptLimit : Nat := numberLimit + 2

/-- All candidates may be tried. -/
theorem length_candidates (name token : String) :
    (candidates name token).length = attemptLimit := by
  simp [candidates, attemptLimit]

/-- The candidates for a package that were not handed out yet. They are made on demand, one after
another. -/
structure Candidates where
  /-- The old name, until it is handed out. -/
  former : Option String
  base : String
  extension : String
  /-- The number of the next numbered candidate. -/
  next : Nat
  /-- The last candidate was handed out. -/
  finished : Bool
  deriving DecidableEq, Repr

namespace Candidates

/-- No candidate for a name was handed out yet. -/
def start (name : String) : Candidates :=
  let (base, extension) := splitExtension name.toList
  ⟨some name, String.ofList base, String.ofList extension, 1, false⟩

/-- The candidate with a mark. -/
def withMark (c : Candidates) (mark : String) : String :=
  c.base ++ "-restored_" ++ mark ++ c.extension

/-- Hands out the next candidate, if there is one. -/
def draw (token : String) (c : Candidates) : Option String × Candidates :=
  match c.former with
  | some name => (some name, { c with former := none })
  | none =>
    if c.next ≤ numberLimit then (some (c.withMark (toString c.next)), { c with next := c.next + 1 })
    else if !c.finished then (some (c.withMark token), { c with finished := true })
    else (none, c)

/-- What is handed out after a number of candidates were asked for before. -/
def drawn (token : String) : Nat → Candidates → Option String
  | 0, c => (c.draw token).1
  | k + 1, c => drawn token k (c.draw token).2

end Candidates

/-- A package has a name again. -/
structure Restored where
  /-- The name the package has now. -/
  name : String
  /-- The name it had before it was trashed. -/
  former : String
  deriving DecidableEq, Repr

/-- The old name of a package that got another one. -/
def Restored.displaced (r : Restored) : Option String :=
  if r.name ≠ r.former then some r.former else none

/-- Cutting a name loses nothing. -/
theorem splitExtension_append (cs : List Char) :
    (splitExtension cs).1 ++ (splitExtension cs).2 = cs := by
  induction cs with
  | nil => rfl
  | cons c cs ih =>
    simp only [splitExtension]
    split <;> simp_all

/-- Where a name has a point, its extension starts with one and has no other; a name without a point
has no extension. -/
theorem splitExtension_snd (cs : List Char) :
    (splitExtension cs).2 = [] ∧ '.' ∉ cs ∨
      ∃ rest, (splitExtension cs).2 = '.' :: rest ∧ '.' ∉ rest := by
  induction cs with
  | nil => exact .inl ⟨rfl, List.not_mem_nil⟩
  | cons c cs ih =>
    rcases ih with ⟨hnone, habsent⟩ | ⟨rest, hsome, habsent⟩
    · by_cases hpoint : c = '.'
      · refine .inr ⟨cs, ?_, habsent⟩
        simp [splitExtension, hnone, hpoint]
      · refine .inl ⟨?_, ?_⟩
        · simp [splitExtension, hnone, hpoint]
        · simp [habsent, Ne.symm hpoint]
    · refine .inr ⟨rest, ?_, habsent⟩
      simp [splitExtension, hsome]

/-- Behind the first part of a text is the rest. -/
theorem behind?_append (cs ds : List Char) : behind? cs (cs ++ ds) = some ds := by
  induction cs with
  | nil => cases ds <;> rfl
  | cons c cs ih =>
    rw [List.cons_append, behind?, if_pos rfl]
    exact ih

/-- A name behind the prefix of its node id is found again. -/
theorem former_deletedPrefix (nodeId old : String) :
    former (deletedPrefix nodeId ++ old) nodeId = .ok old := by
  rw [former]
  simp only [String.toList_append, behind?_append, String.ofList_toList]

/-- A text that has something behind its first part is made of both. -/
theorem eq_append_of_behind? {cs ds es : List Char} (h : behind? cs ds = some es) :
    ds = cs ++ es := by
  induction cs generalizing ds with
  | nil =>
    rw [behind?, Option.some.injEq] at h
    exact h
  | cons c cs ih =>
    cases ds with
    | nil => cases h
    | cons d ds =>
      rw [behind?] at h
      split at h
      · rename_i heq
        rw [ih h, heq, List.cons_append]
      · cases h

/-- What is found of a name stood behind the prefix of its node id. -/
theorem eq_append_of_former {deletedName nodeId old : String}
    (h : former deletedName nodeId = .ok old) : deletedName = deletedPrefix nodeId ++ old := by
  rw [former] at h
  split at h
  · rename_i cs hbehind
    cases h
    rw [← String.toList_inj, String.toList_append, String.toList_ofList]
    exact eq_append_of_behind? hbehind
  · cases h

/-- A name that does not start with the prefix of its node id is refused. -/
theorem former_of_no_prefix {deletedName nodeId : String}
    (h : ¬ ∃ old, deletedName = deletedPrefix nodeId ++ old) :
    former deletedName nodeId = .error (.invalidDeletedName deletedName (deletedPrefix nodeId)) := by
  cases hformer : former deletedName nodeId with
  | ok old => exact absurd ⟨old, eq_append_of_former hformer⟩ h
  | error e =>
    rw [former] at hformer
    split at hformer
    · cases hformer
    · cases hformer
      rfl

end Salvage.Name
