import Salvage.Text.Decimal

/-!
# Storage totals

Totals of sizes, one per number of an owner. A row exists once something was added to it, even
zero; an absent row counts as zero. Sizes and totals are integers of 64 bits, and a sum that would
leave that range is not formed.
-/

namespace Salvage

/-- The sum of two sizes, unless it leaves the range of 64 bits. -/
def sum? (a b : Int) : Option Int :=
  if Text.IntRange.bits64.contains (a + b) then some (a + b) else none

/-- Totals by the number of their owner, each number once. -/
structure Totals where
  rows : List (Int × Int)
  deriving DecidableEq, Repr

namespace Totals

/-- No totals at all. -/
def empty : Totals := ⟨[]⟩

/-- The row of an owner, if there is one. -/
def find? (t : Totals) (id : Int) : Option Int :=
  t.rows.lookup id

/-- The total of an owner. -/
def get (t : Totals) (id : Int) : Int :=
  (t.find? id).getD 0

/-- Sets the first row of an owner, or appends one. -/
def putRow (id size : Int) : List (Int × Int) → List (Int × Int)
  | [] => [(id, size)]
  | row :: rows => if row.1 = id then (id, size) :: rows else row :: putRow id size rows

/-- Sets the total of an owner. -/
def put (t : Totals) (id size : Int) : Totals :=
  ⟨putRow id size t.rows⟩

/-- Adds to the total of an owner. -/
def add (t : Totals) (id delta : Int) : Option Totals := do
  return t.put id (← sum? (t.get id) delta)

/-- The rows in the order of their owners. -/
def sorted (t : Totals) : List (Int × Int) :=
  t.rows.mergeSort fun a b => decide (a.1 ≤ b.1)

/-- Looking up a row behind another one. -/
theorem lookup_row (id size : Int) (rows : List (Int × Int)) (other : Int) :
    ((id, size) :: rows).lookup other = if other = id then some size else rows.lookup other := by
  rw [List.lookup_cons]
  by_cases h : other = id
  · simp [h]
  · simp [h, beq_eq_false_iff_ne.2 h]

/-- Looking up a row that was just set. -/
theorem lookup_putRow (id size : Int) (rows : List (Int × Int)) (other : Int) :
    (putRow id size rows).lookup other = if other = id then some size else rows.lookup other := by
  induction rows with
  | nil => rw [putRow, lookup_row]
  | cons row rows ih =>
    obtain ⟨a, b⟩ := row
    by_cases hr : a = id
    · simp only [putRow, hr, if_true, lookup_row]
      split <;> rfl
    · simp only [putRow, hr, if_false, lookup_row, ih]
      by_cases ha : other = a <;> simp [ha, hr]

/-- Setting a total sets that total and no other. -/
theorem get_put (t : Totals) (id size other : Int) :
    (t.put id size).get other = if other = id then size else t.get other := by
  simp only [get, find?, put, lookup_putRow]
  split <;> rfl

end Totals

end Salvage
