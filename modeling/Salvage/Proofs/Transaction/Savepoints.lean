import Salvage.Proofs.Transaction

/-!
# Savepoints nest

Between making a savepoint and going back to it a transaction may do anything, as long as it goes back
to and releases only savepoints that it has made itself in between. Savepoints are found by their names,
newest first, and names may repeat, also those of older savepoints. The names of the savepoints made in
between that are still live say which operations are allowed, and no other part of the stack is looked
at: it lies below them, unchanged, as long as none of them has the name that is looked for.
-/

namespace Salvage.Transaction

/-! ## Operations -/

/-- An operation on the tables of a transaction. To read its organization is no operation of its own. -/
inductive TableOperation where
  | dataset (nodeId : String)
  | package (datasetId : Int) (nodeId : String)
  | move (datasetId : Int) (nodeId : String) (expected target : Package.State)
  | moveDescendants (datasetId id : Int) (expected target : Package.State)
  | moveAncestors (id : Int) (expected target : Package.State)
  | rename (id : Int) (name : String)
  | fileSizes (ids : List Int)
  | addToPackage (id delta : Int)
  | addToAncestors (id delta : Int)
  | addToDataset (id delta : Int)
  | addToOrganization (id delta : Int)
  deriving DecidableEq, Repr

/-- What an operation on tables makes of a transaction, however it ends. -/
def TableOperation.apply : TableOperation → Transaction → Transaction
  | .dataset nodeId, tx => (Transaction.dataset nodeId tx).2
  | .package datasetId nodeId, tx => (Transaction.package datasetId nodeId tx).2
  | .move datasetId nodeId expected target, tx =>
    (Transaction.move datasetId nodeId expected target tx).2
  | .moveDescendants datasetId id expected target, tx =>
    (Transaction.moveDescendants datasetId id expected target tx).2
  | .moveAncestors id expected target, tx => (Transaction.moveAncestors id expected target tx).2
  | .rename id name, tx => (Transaction.rename id name tx).2
  | .fileSizes ids, tx => (Transaction.fileSizes ids tx).2
  | .addToPackage id delta, tx => (Transaction.addToPackage id delta tx).2
  | .addToAncestors id delta, tx => (Transaction.addToAncestors id delta tx).2
  | .addToDataset id delta, tx => (Transaction.addToDataset id delta tx).2
  | .addToOrganization id delta, tx => (Transaction.addToOrganization id delta tx).2

/-- An operation of a transaction. -/
inductive Operation where
  | onTables (operation : TableOperation)
  | savepoint (name : String)
  | rollbackTo (name : String)
  | release (name : String)
  deriving DecidableEq, Repr

/-- What an operation makes of a transaction. After one that fails the transaction goes on. -/
def Operation.apply : Operation → Transaction → Transaction
  | .onTables operation, tx => operation.apply tx
  | .savepoint name, tx => (Transaction.savepoint name tx).2
  | .rollbackTo name, tx => (Transaction.rollbackTo name tx).2
  | .release name, tx => (Transaction.release name tx).2

/-- What operations one after another make of a transaction. -/
def afterAll (operations : List Operation) (tx : Transaction) : Transaction :=
  operations.foldl (fun tx operation => operation.apply tx) tx

/-- An operation is allowed while savepoints with some names are live, newest first, and leaves
savepoints with other names: only the newest live savepoint with a name can be gone back to or
released. -/
inductive Operation.Allowed : Operation → List String → List String → Prop where
  | onTables (operation : TableOperation) (live : List String) :
    Allowed (.onTables operation) live live
  | savepoint (name : String) (live : List String) :
    Allowed (.savepoint name) live (name :: live)
  | rollbackTo {name : String} {newer : List String} (older : List String)
    (hnewest : name ∉ newer) :
    Allowed (.rollbackTo name) (newer ++ name :: older) (name :: older)
  | release {name : String} {newer : List String} (older : List String)
    (hnewest : name ∉ newer) :
    Allowed (.release name) (newer ++ name :: older) older

/-- Operations are allowed one after another, from the names of some live savepoints to others. -/
inductive Nested : List Operation → List String → List String → Prop where
  | nil (live : List String) : Nested [] live live
  | cons {operation : Operation} {operations : List Operation} {live live' live'' : List String}
    (hfirst : operation.Allowed live live') (hrest : Nested operations live' live'') :
    Nested (operation :: operations) live live''

/-! ## Operations on tables leave savepoints alone -/

/-- Nothing of a transaction differs but its tables. -/
def TablesOnly (tx tx' : Transaction) : Prop :=
  tx' = { tx with working := tx'.working }

instance : IsPreorder Transaction TablesOnly where
  refl _ := rfl
  trans _ _ _ h h' := by rw [TablesOnly, h', h]

/-- Writing changes the tables only. -/
theorem within_write (t : Tables) : Action.Within TablesOnly (write t) :=
  fun _ => rfl

/-- An addition to totals changes the tables only. -/
theorem within_orAbort_write {α : Type} (sum : Transaction → Option α)
    (put : Transaction → α → Tables) :
    Action.Within TablesOnly (do
      let tx ← Action.get
      let a ← Action.orAbort (sum tx)
      write (put tx a)) :=
  Action.within_get.bind fun _ => (Action.within_orAbort _).bind fun _ => within_write _

/-- An operation on tables changes the tables only, however it ends. -/
theorem TableOperation.tablesOnly_apply (operation : TableOperation) (tx : Transaction) :
    TablesOnly tx (operation.apply tx) := by
  cases operation with
  | dataset nodeId =>
    refine Action.within_get.bind (fun s => ?_) tx
    split
    · exact Action.within_pure _
    · exact Action.within_fail _
  | package datasetId nodeId =>
    refine Action.within_get.bind (fun s => ?_) tx
    split
    · exact Action.within_pure _
    · exact Action.within_fail _
  | move datasetId nodeId expected target =>
    refine Action.within_get.bind (fun s => ?_) tx
    dsimp only
    split
    · exact (within_write _).bind fun _ => Action.within_pure _
    · exact Action.within_fail _
  | moveDescendants datasetId id expected target =>
    exact Action.within_get.bind (fun _ => (within_write _).bind fun _ => Action.within_pure _) tx
  | moveAncestors id expected target =>
    exact Action.within_get.bind (fun _ => (within_write _).bind fun _ => Action.within_pure _) tx
  | rename id name =>
    refine Action.within_get.bind (fun s => ?_) tx
    split
    · exact Action.within_fail _
    · split
      · exact Action.within_fail _
      · exact within_write _
  | fileSizes ids => exact Action.within_get.bind (fun _ => Action.within_orAbort _) tx
  | addToPackage id delta =>
    exact within_orAbort_write (fun tx => tx.working.packageStorage.add id delta)
      (fun tx totals => { tx.working with packageStorage := totals }) tx
  | addToAncestors id delta =>
    exact within_orAbort_write (fun tx => tx.working.addToAncestors id delta) (fun _ t => t) tx
  | addToDataset id delta =>
    exact within_orAbort_write (fun tx => tx.working.datasetStorage.add id delta)
      (fun tx totals => { tx.working with datasetStorage := totals }) tx
  | addToOrganization id delta =>
    exact within_orAbort_write (fun tx => tx.working.organizationStorage.add id delta)
      (fun tx totals => { tx.working with organizationStorage := totals }) tx

/-! ## What operations leave of the stack -/

variable {tx start : Transaction} {name : String}

/-- A transaction has come from an earlier one by operations, and the savepoints made since then that
are still live have these names and lie on top of those of the earlier one. -/
structure Above (start : Transaction) (live : List String) (tx : Transaction) : Prop where
  rest : tx = { start with working := tx.working, savepoints := tx.savepoints }
  savepoints : ∃ made : List (String × Tables),
    made.map Prod.fst = live ∧ tx.savepoints = made ++ start.savepoints

/-- No savepoints were made yet. -/
theorem above_refl (start : Transaction) : Above start [] start :=
  ⟨rfl, [], rfl, rfl⟩

/-- The newest live savepoint with a name is one of those made since then. -/
theorem Above.split {newer older : List String}
    (h : Above start (newer ++ name :: older) tx) :
    ∃ newer' t older', newer'.map Prod.fst = newer ∧ older'.map Prod.fst = older ∧
      tx.savepoints = newer' ++ (name, t) :: (older' ++ start.savepoints) := by
  obtain ⟨made, hnames, hsaved⟩ := h.savepoints
  obtain ⟨newer', others, rfl, hnewer, hothers⟩ := List.map_eq_append_iff.1 hnames
  obtain ⟨⟨_, t⟩, older', rfl, rfl, holder⟩ := List.map_eq_cons_iff.1 hothers
  exact ⟨newer', t, older', hnewer, holder, by rw [hsaved, List.append_assoc]; rfl⟩

/-- An allowed operation leaves the savepoints of the earlier transaction below the live ones. -/
theorem Above.apply {operation : Operation} {live live' : List String} (h : Above start live tx)
    (hallowed : operation.Allowed live live') : Above start live' (operation.apply tx) := by
  cases hallowed with
  | onTables operation =>
    have hrest : TablesOnly tx (operation.apply tx) := operation.tablesOnly_apply tx
    change Above start live (operation.apply tx)
    rw [hrest]
    exact ⟨by rw [h.rest], h.savepoints⟩
  | savepoint name =>
    obtain ⟨made, rfl, hsaved⟩ := h.savepoints
    refine ⟨by rw [h.rest]; rfl, (name, tx.working) :: made, rfl, ?_⟩
    exact congrArg ((name, tx.working) :: ·) hsaved
  | rollbackTo older hnewest =>
    obtain ⟨newer', t, older', rfl, rfl, hsaved⟩ := h.split
    have hdone := rollbackTo_of_savepoints hsaved hnewest
    rw [Operation.apply, hdone]
    exact ⟨by rw [h.rest], _ :: older', rfl, rfl⟩
  | release older hnewest =>
    obtain ⟨newer', t, older', rfl, rfl, hsaved⟩ := h.split
    have hdone := release_of_savepoints hsaved hnewest
    rw [Operation.apply, hdone]
    exact ⟨by rw [h.rest], older', rfl, rfl⟩

/-- Allowed operations one after another leave the savepoints of the earlier transaction below the live
ones. -/
theorem Above.afterAll {operations : List Operation} {live live' : List String}
    (hnested : Nested operations live live') (h : Above start live tx) :
    Above start live' (Transaction.afterAll operations tx) := by
  induction hnested generalizing tx with
  | nil => exact h
  | cons hfirst _ ih => exact ih (h.apply hfirst)

/-- After operations that go back to and release only live savepoints of their own, going back to a
savepoint made before them gives the transaction as it was right after the savepoint was made, with its
tables, and releasing it keeps the tables and leaves the savepoints that were there before it. No live
savepoint of the operations may hide it. -/
theorem savepoints_nest (tx : Transaction) (name : String) {operations : List Operation}
    {live : List String} (hnested : Nested operations [] live) (hvisible : name ∉ live) :
    ∃ tx₀ tx₁, savepoint name tx = (.done (), tx₀) ∧ afterAll operations tx₀ = tx₁ ∧
      rollbackTo name tx₁ = (.done (), tx₀) ∧
      tx₀.working = tx.working ∧ tx₀.savepoints = (name, tx.working) :: tx.savepoints ∧
      release name tx₁ = (.done (), { tx₁ with savepoints := tx.savepoints }) := by
  have habove := (above_refl (savepoint name tx).2).afterAll hnested
  obtain ⟨made, rfl, hsaved⟩ := habove.savepoints
  refine ⟨_, _, rfl, rfl, (rollbackTo_of_savepoints hsaved hvisible).trans ?_, rfl, rfl,
    release_of_savepoints hsaved hvisible⟩
  rw [habove.rest]
  rfl

/-- A transaction with an older savepoint. -/
def underSavepoint : Transaction where
  org := 1
  way := .bounded
  working := Tables.empty
  savepoints := [("s", { Tables.empty with lastId := 9 })]

/-- Operations under a savepoint with the name `s`. Two of their own savepoints have that name too, the
renaming fails, and going back to the newer of the two forgets the one with the name `t`. -/
def shadowing : List Operation :=
  [.onTables (.addToDataset 1 5), .savepoint "s", .onTables (.addToDataset 1 7), .savepoint "s",
    .savepoint "t", .onTables (.rename 3 "a"), .rollbackTo "s", .release "s", .release "s",
    .savepoint "u", .onTables (.addToDataset 1 2)]

/-- The names of the operations' own savepoints hide the savepoint for a while only: at the end it is
found again, above the older one of the same name. -/
theorem savepoints_nest_shadowed :
    Nested shadowing [] ["u"] ∧ "s" ∉ ["u"] ∧
      ∃ tx₁, afterAll shadowing (savepoint "s" underSavepoint).2 = tx₁ ∧
        tx₁.working.datasetStorage.get 1 = 14 ∧
        rollbackTo "s" tx₁ = savepoint "s" underSavepoint ∧
        release "s" tx₁ = (.done (), { tx₁ with savepoints := underSavepoint.savepoints }) := by
  have hnested : Nested shadowing [] ["u"] :=
    .cons (.onTables _ _) <| .cons (.savepoint "s" _) <| .cons (.onTables _ _) <|
      .cons (.savepoint "s" _) <| .cons (.savepoint "t" _) <| .cons (.onTables _ _) <|
      .cons (.rollbackTo ["s"] (by decide : "s" ∉ ["t"])) <|
      .cons (.release ["s"] (by decide : "s" ∉ [])) <|
      .cons (.release [] (by decide : "s" ∉ [])) <|
      .cons (.savepoint "u" _) <| .cons (.onTables _ _) <| .nil _
  have hvisible : "s" ∉ ["u"] := by decide
  obtain ⟨tx₀, tx₁, hmade, hafter, hback, -, -, hrelease⟩ :=
    savepoints_nest underSavepoint "s" hnested hvisible
  cases hmade
  exact ⟨hnested, hvisible, tx₁, hafter, hafter ▸ by decide, hback, hrelease⟩

end Salvage.Transaction
