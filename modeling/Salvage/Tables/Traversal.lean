import Salvage.Tables
import Salvage.Text.Blank
import Salvage.Text.Quoted

/-!
# Walking the tree of packages

Changes of state that go down from a package or up from it, and totals that grow on the way up.
Going down, the packages are taken level by level, each level in the order of its numbers, so a
parent always comes before its children.
-/

namespace Salvage

/-- How far a change of state goes below a package. -/
inductive Traversal where
  /-- Only through packages that are in the expected state themselves. -/
  | bounded
  /-- Through every package. -/
  | entireSubtree
  deriving DecidableEq, Repr

namespace Traversal

/-- The names of the two ways; each has two. -/
def named : List (String × Traversal) :=
  [("stop_at_non_matching", .bounded), ("bounded", .bounded), ("entire_subtree", .entireSubtree),
    ("unbounded", .entireSubtree)]

/-- Reads the name of a way, in any case and with blanks around it. -/
def ofName (s : String) : Except String Traversal :=
  let name := String.ofList ((Text.trimmed s.toList).map Char.toLower)
  match named.lookup name with
  | some t => .ok t
  | none => .error ("unknown descendant traversal mode " ++ Text.quoted name)

end Traversal

namespace Tables

/-- The packages below a frontier that satisfy `wanted`, parents first, when the walk goes on below
the packages that satisfy `through`. Only the packages of the first level have to satisfy
`first`. -/
def below (t : Tables) (wanted through : Package → Bool) :
    Nat → (Package → Bool) → List Int → List Package
  | 0, _, _ => []
  | n + 1, first, frontier =>
    let level := t.packages.filter fun p => p.parentId.any frontier.contains && first p
    let next := level.filter through
    if next.isEmpty then level.filter wanted
    else level.filter wanted ++ below t wanted through n (fun _ => true) (next.map Package.id)

/-- A number of levels below which there is no package. -/
def depth (t : Tables) : Nat := t.packages.length + 1

/-- The descendants of a package that are to move. -/
def descendants (t : Tables) (way : Traversal) (datasetId id : Int) (expected : Package.State) :
    List Package :=
  let wanted (p : Package) := p.state == expected
  let through (p : Package) := way == .entireSubtree || wanted p
  t.below wanted through t.depth (fun p => p.datasetId == datasetId) [id]

/-- Moves the descendants of a package that are in the expected state, and returns them. -/
def moveDescendants (t : Tables) (way : Traversal) (datasetId id : Int)
    (expected target : Package.State) : List Package × Tables :=
  let found := t.descendants way datasetId id expected
  let ids := found.map Package.id
  (found.map (·.moveTo target), t.change (fun p => ids.contains p.id) (·.moveTo target))

/-- The package in another state, with the update time it had. -/
def setState (target : Package.State) (p : Package) : Package :=
  { p with state := target }

/-- Moves the collections from a package upwards as long as they are in the expected state, and
returns them. Update times stay. -/
def moveUpwards (expected target : Package.State) :
    Nat → Option Int → Tables → List Package × Tables
  | 0, _, t => ([], t)
  | _, none, t => ([], t)
  | n + 1, some id, t =>
    match t.package? id with
    | none => ([], t)
    | some p =>
      if p.kind.isCollection && p.state == expected then
        let r := moveUpwards expected target n p.parentId (t.changeId id (setState target))
        (setState target p :: r.1, r.2)
      else ([], t)

/-- Moves a collection and the collections above it. A moved package is no longer in the expected
state, so there are no more rounds than packages. -/
def moveAncestors (t : Tables) (id : Int) (expected target : Package.State) :
    List Package × Tables :=
  moveUpwards expected target t.depth (some id) t

/-- Adds to the totals of a package and of every package above it. A walk of more rounds than there
are packages has no end, and its totals leave their range. -/
def addUpwards (delta : Int) : Nat → Option Int → Tables → Option Tables
  | _, none, t => some t
  | 0, some _, _ => none
  | n + 1, some id, t =>
    match t.package? id with
    | none => some t
    | some p => do
      let totals ← t.packageStorage.add id delta
      addUpwards delta n p.parentId { t with packageStorage := totals }

/-- Adds to the totals of a package and of every package above it. -/
def addToAncestors (t : Tables) (id delta : Int) : Option Tables :=
  addUpwards delta t.depth (some id) t

end Tables

end Salvage
