import Salvage.Proofs.Action
import Salvage.Proofs.Tables.Rows
import Salvage.Transaction.Guarded

/-!
# What operations of a transaction do

For each operation one statement of everything it does when it is done. A search for a free name
works under a savepoint; it leaves no savepoint behind, and the only change that is left is that of
the name that was free.
-/

namespace Salvage.Transaction

variable {tx tx' : Transaction} {id : Int}

/-- Writing replaces the working tables. -/
@[simp] theorem write_eq_done {t : Tables} {u : Unit} :
    write t tx = (.done u, tx') ↔ tx' = { tx with working := t } :=
  Action.modify_eq_done

/-- A move that is done changes the first row that fits, and returns it as it is then. -/
theorem move_eq_done {datasetId : Int} {nodeId : String} {expected target : Package.State}
    {moved : Package} :
    move datasetId nodeId expected target tx = (.done moved, tx') ↔
      ∃ p, (tx.working.packages.find? fun p =>
          p.datasetId == datasetId && p.nodeId == nodeId && p.state == expected) = some p ∧
        moved = p.moveTo target ∧
        tx' = { tx with working := tx.working.changeId p.id (·.moveTo target) } := by
  simp only [move, Action.bind_eq_done, Action.get_eq_done]
  cases hfound : tx.working.packages.find? fun p =>
    p.datasetId == datasetId && p.nodeId == nodeId && p.state == expected with
  | none =>
    simp [hfound]
  | some p =>
    constructor
    · intro hgiven
      obtain ⟨_, _, ⟨rfl, rfl⟩, h⟩ := hgiven
      simp only [hfound, Action.bind_eq_done, write_eq_done, Action.pure_eq_done] at h
      obtain ⟨_, _, rfl, rfl, rfl⟩ := h
      exact ⟨p, rfl, rfl, rfl⟩
    · intro hgiven
      obtain ⟨_, ⟨⟩, rfl, rfl⟩ := hgiven
      exact ⟨tx, tx, ⟨rfl, rfl⟩, by simp [hfound]⟩

/-- A move of a row that is in the expected state is done. -/
theorem move_of_mem {datasetId : Int} {nodeId : String} {expected : Package.State} {p : Package}
    (target : Package.State) (hp : p ∈ tx.working.packages) (hdataset : p.datasetId = datasetId)
    (hnode : p.nodeId = nodeId) (hstate : p.state = expected) :
    ∃ moved tx', move datasetId nodeId expected target tx = (.done moved, tx') := by
  obtain ⟨row, hrow⟩ : ∃ row, (tx.working.packages.find? fun p =>
      p.datasetId == datasetId && p.nodeId == nodeId && p.state == expected) = some row := by
    rw [← Option.isSome_iff_exists, List.find?_isSome]
    exact ⟨p, hp, by simp [hdataset, hnode, hstate]⟩
  exact ⟨_, _, move_eq_done.2 ⟨row, hrow, rfl, rfl⟩⟩

/-- A move without a row that fits fails and changes nothing. -/
theorem move_of_none {datasetId : Int} {nodeId : String} {expected target : Package.State}
    (h : (tx.working.packages.find? fun p =>
      p.datasetId == datasetId && p.nodeId == nodeId && p.state == expected) = none) :
    move datasetId nodeId expected target tx =
      (.failed (tx.packageNotFound (some datasetId) (.nodeId nodeId)), tx) := by
  rw [move, Action.get_bind_apply]
  simp only [h]
  rfl

/-- A move of descendants is always done. -/
theorem moveDescendants_eq_done {datasetId : Int} {expected target : Package.State}
    {moved : List Package} :
    moveDescendants datasetId id expected target tx = (.done moved, tx') ↔
      moved = (tx.working.moveDescendants tx.way datasetId id expected target).1 ∧
      tx' = { tx with
        working := (tx.working.moveDescendants tx.way datasetId id expected target).2 } := by
  simp only [moveDescendants, Action.bind_eq_done, Action.get_eq_done, write_eq_done,
    Action.pure_eq_done]
  constructor
  · intro hgiven
    obtain ⟨_, _, ⟨rfl, rfl⟩, _, _, rfl, rfl, rfl⟩ := hgiven
    exact ⟨rfl, rfl⟩
  · intro hgiven
    obtain ⟨rfl, rfl⟩ := hgiven
    exact ⟨tx, tx, ⟨rfl, rfl⟩, (), _, rfl, rfl, rfl⟩

/-- A move upwards is always done. -/
theorem moveAncestors_eq_done {expected target : Package.State} {moved : List Package} :
    moveAncestors id expected target tx = (.done moved, tx') ↔
      moved = (tx.working.moveAncestors id expected target).1 ∧
      tx' = { tx with working := (tx.working.moveAncestors id expected target).2 } := by
  simp only [moveAncestors, Action.bind_eq_done, Action.get_eq_done, write_eq_done,
    Action.pure_eq_done]
  constructor
  · intro hgiven
    obtain ⟨_, _, ⟨rfl, rfl⟩, _, _, rfl, rfl, rfl⟩ := hgiven
    exact ⟨rfl, rfl⟩
  · intro hgiven
    obtain ⟨rfl, rfl⟩ := hgiven
    exact ⟨tx, tx, ⟨rfl, rfl⟩, (), _, rfl, rfl, rfl⟩

/-! ## Names -/

/-- A renaming that is done found the name free. -/
theorem rename_eq_done {name : String} {u : Unit} :
    rename id name tx = (.done u, tx') ↔
      ∃ p, tx.working.package? id = some p ∧ tx.working.siblingHasName p name = false ∧
        tx' = { tx with working := tx.working.changeId id (·.rename name) } := by
  simp only [rename, Action.bind_eq_done, Action.get_eq_done]
  cases hfound : tx.working.package? id with
  | none => simp [hfound]
  | some p =>
    constructor
    · intro hgiven
      obtain ⟨_, _, ⟨rfl, rfl⟩, h⟩ := hgiven
      simp only [hfound] at h
      split at h
      · simp at h
      · rename_i hfree
        exact ⟨p, rfl, Bool.eq_false_iff.2 hfree, write_eq_done.1 h⟩
    · intro hgiven
      obtain ⟨_, ⟨⟩, hfree, rfl⟩ := hgiven
      exact ⟨tx, tx, ⟨rfl, rfl⟩, by simp [hfound, hfree]⟩

/-- A renaming that fails changes nothing. -/
theorem rename_failed {name : String} {e : Error} (h : rename id name tx = (.failed e, tx')) :
    tx' = tx := by
  rw [rename, Action.get_bind_apply] at h
  cases hfound : tx.working.package? id with
  | none =>
    rw [hfound] at h
    cases h
    rfl
  | some p =>
    rw [hfound] at h
    dsimp only at h
    split at h <;> cases h
    rfl

/-! ## Savepoints -/

/-- The search for a name passes over newer savepoints with other names. -/
theorem dropWhile_newer {name : String} {t : Tables} {newer older : List (String × Tables)}
    (hnewer : name ∉ newer.map Prod.fst) :
    (newer ++ (name, t) :: older).dropWhile (fun s => s.1 != name) = (name, t) :: older := by
  have hother : ∀ s ∈ newer, (s.1 != name) = true := by
    intro s hs
    rw [bne_iff_ne]
    rintro rfl
    exact hnewer (List.mem_map_of_mem hs)
  rw [List.dropWhile_append_of_pos hother]
  simp

/-- Going back to the newest savepoint with a name puts its tables back and forgets the newer ones. -/
theorem rollbackTo_of_savepoints {name : String} {t : Tables} {newer older : List (String × Tables)}
    (hsaved : tx.savepoints = newer ++ (name, t) :: older) (hnewer : name ∉ newer.map Prod.fst) :
    rollbackTo name tx =
      (.done (), { tx with working := t, savepoints := (name, t) :: older }) := by
  rw [rollbackTo, Action.get_bind_apply]
  simp only [hsaved, dropWhile_newer hnewer]
  rfl

/-- Releasing the newest savepoint with a name forgets it and the newer ones. -/
theorem release_of_savepoints {name : String} {t : Tables} {newer older : List (String × Tables)}
    (hsaved : tx.savepoints = newer ++ (name, t) :: older) (hnewer : name ∉ newer.map Prod.fst) :
    release name tx = (.done (), { tx with savepoints := older }) := by
  rw [release, Action.get_bind_apply]
  simp only [hsaved, dropWhile_newer hnewer]
  rfl

/-- Going back to the newest savepoint puts its tables back. -/
theorem rollbackTo_newest {name : String} {t : Tables} {older : List (String × Tables)}
    (h : tx.savepoints = (name, t) :: older) :
    rollbackTo name tx = (.done (), { tx with working := t }) := by
  have hnone : name ∉ ([] : List (String × Tables)).map Prod.fst := List.not_mem_nil
  rw [rollbackTo_of_savepoints h hnone, ← h]

/-- Going back to a savepoint changes nothing when nothing has changed since it was made. -/
theorem rollbackTo_eq_done {name : String} {older : List (String × Tables)} {u : Unit}
    (hsaved : tx.savepoints = (name, tx.working) :: older) :
    rollbackTo name tx = (.done u, tx') ↔ tx' = tx := by
  have hsame : rollbackTo name tx = (.done (), tx) := rollbackTo_newest hsaved
  simp [hsame, eq_comm]

/-- Releasing the newest savepoint forgets it. -/
theorem release_eq_done {name : String} {t : Tables} {older : List (String × Tables)} {u : Unit}
    (hsaved : tx.savepoints = (name, t) :: older) :
    release name tx = (.done u, tx') ↔ tx' = { tx with savepoints := older } := by
  have hnone : name ∉ ([] : List (String × Tables)).map Prod.fst := List.not_mem_nil
  rw [release_of_savepoints hsaved hnone]
  simp [eq_comm]

/-! ## Searches for a free name -/

/-- A search for a free name among candidates comes down to renaming to the one it found. -/
theorem tryEach_rename_done {savepoint : String} {retryable : Error → Bool} {tried : Nat}
    {candidates : List String} {older : List (String × Tables)} {found : Guarded Unit}
    (hsaved : tx.savepoints = (savepoint, tx.working) :: older)
    (h : tryEach savepoint retryable (rename id) tried candidates tx = (.done found, tx')) :
    found.candidate ∈ candidates ∧
      rename id found.candidate { tx with savepoints := older } = (.done (), tx') := by
  induction candidates generalizing tried with
  | nil => simp [tryEach] at h
  | cons candidate rest ih =>
    simp only [tryEach, Action.bind_eq_done, Action.attempt_eq_done] at h
    obtain ⟨outcome, tx₁, hrename, h⟩ := h
    cases outcome with
    | done u =>
      obtain ⟨p, hfound, hfree, rfl⟩ := rename_eq_done.1 hrename
      simp only [Action.bind_eq_done, Action.pure_eq_done] at h
      obtain ⟨_, _, hrelease, rfl, rfl⟩ := h
      have hforgot := (release_eq_done (by exact hsaved)).1 hrelease
      exact ⟨List.mem_cons_self, rename_eq_done.2 ⟨p, hfound, hfree, hforgot⟩⟩
    | failed e =>
      obtain rfl := rename_failed hrename
      dsimp only at h
      split at h
      · simp only [Action.bind_eq_done, rollbackTo_eq_done hsaved] at h
        obtain ⟨_, _, rfl, hrest⟩ := h
        obtain ⟨hmem, hdone⟩ := ih hrest
        exact ⟨List.mem_cons_of_mem _ hmem, hdone⟩
      · simp at h
    | aborted => simp at h

/-- A guarded search for a free name comes down to renaming to the one it found. -/
theorem guarded_rename_done {savepoint : String} {limit : Nat} {retryable : Error → Bool}
    {candidates : List String} {found : Guarded Unit}
    (h : guarded savepoint limit retryable candidates (rename id) tx = (.done found, tx')) :
    found.candidate ∈ candidates ∧ rename id found.candidate tx = (.done (), tx') := by
  simp only [guarded, Transaction.savepoint, Action.bind_eq_done, Action.modify_eq_done] at h
  obtain ⟨_, _, rfl, h⟩ := h
  obtain ⟨hmem, hdone⟩ := tryEach_rename_done rfl h
  exact ⟨List.mem_of_mem_take hmem, hdone⟩

variable {p : Package}

/-- A renaming to a name that is taken fails and changes nothing. -/
theorem rename_of_taken {name : String} (hp : tx.working.package? id = some p)
    (htaken : tx.working.siblingHasName p name = true) :
    ∃ e, e.isNameConflict ∧ rename id name tx = (.failed e, tx) := by
  rw [rename, Action.get_bind_apply]
  simp only [hp, htaken, if_true]
  exact ⟨_, rfl, rfl⟩

/-- A search ends with the first candidate if the package can be renamed to that. -/
theorem tryEach_of_rename_done {savepoint candidate : String} {retryable : Error → Bool}
    {tried : Nat} {rest : List String} {older : List (String × Tables)} {tx₁ : Transaction}
    (hsaved : tx.savepoints = (savepoint, tx.working) :: older)
    (h : rename id candidate tx = (.done (), tx₁)) :
    tryEach savepoint retryable (rename id) tried (candidate :: rest) tx =
      (.done ⟨(), candidate, tried + 1⟩, { tx₁ with savepoints := older }) := by
  have hsaved₁ : tx₁.savepoints = (savepoint, tx.working) :: older := by
    obtain ⟨_, -, -, hrenamed⟩ := rename_eq_done.1 h
    rw [hrenamed]
    exact hsaved
  have hrelease : release savepoint tx₁ = (.done (), { tx₁ with savepoints := older }) :=
    (release_eq_done hsaved₁).2 rfl
  rw [tryEach, Action.attempt_bind_apply, h]
  exact Action.bind_of_done hrelease

/-- A search for a free name ends with the first candidate that is free. -/
theorem tryEach_rename_of_find? {savepoint name : String} {tried : Nat} {candidates : List String}
    {older : List (String × Tables)} (hsaved : tx.savepoints = (savepoint, tx.working) :: older)
    (hp : tx.working.package? id = some p)
    (hname : (candidates.find? fun c => !tx.working.siblingHasName p c) = some name) :
    ∃ attempts, tryEach savepoint Error.isNameConflict (rename id) tried candidates tx =
      (.done ⟨(), name, attempts⟩,
        { tx with working := tx.working.changeId id (·.rename name), savepoints := older }) := by
  induction candidates generalizing tried with
  | nil => cases hname
  | cons candidate rest ih =>
    rw [List.find?_cons] at hname
    cases hfree : tx.working.siblingHasName p candidate with
    | false =>
      rw [hfree] at hname
      cases hname
      exact ⟨_, tryEach_of_rename_done hsaved (rename_eq_done.2 ⟨p, hp, hfree, rfl⟩)⟩
    | true =>
      rw [hfree] at hname
      obtain ⟨e, hconflict, hfailed⟩ := rename_of_taken hp hfree
      have hrest : rest ≠ [] := by
        rintro rfl
        cases hname
      have hmore : (e.isNameConflict && !rest.isEmpty) = true := by
        simp [hconflict, hrest]
      have hback : rollbackTo savepoint tx = (.done (), tx) := (rollbackTo_eq_done hsaved).2 rfl
      rw [tryEach, Action.attempt_bind_apply, hfailed]
      simp only [hmore, if_true]
      rw [Action.bind_of_done hback]
      exact ih hname

/-- A guarded search for a free name ends with the first candidate that is free, if the limit lets it
get that far. -/
theorem guarded_rename_of_find? (savepoint : String) {name : String} {limit : Nat}
    {candidates : List String} (hlimit : candidates.length ≤ limit)
    (hp : tx.working.package? id = some p)
    (hname : (candidates.find? fun c => !tx.working.siblingHasName p c) = some name) :
    ∃ attempts, guarded savepoint limit Error.isNameConflict candidates (rename id) tx =
      (.done ⟨(), name, attempts⟩,
        { tx with working := tx.working.changeId id (·.rename name) }) := by
  rw [guarded, List.take_of_length_le hlimit, Transaction.savepoint]
  exact tryEach_rename_of_find? rfl hp hname

/-- A guarded search for a free name that is done has found the first candidate that is free. -/
theorem find?_of_guarded_rename_done {savepoint : String} {limit : Nat} {candidates : List String}
    {found : Guarded Unit} (hlimit : candidates.length ≤ limit)
    (hp : tx.working.package? id = some p)
    (h : guarded savepoint limit Error.isNameConflict candidates (rename id) tx =
      (.done found, tx')) :
    (candidates.find? fun c => !tx.working.siblingHasName p c) = some found.candidate := by
  cases hname : candidates.find? fun c => !tx.working.siblingHasName p c with
  | some name =>
    obtain ⟨attempts, hsearch⟩ := guarded_rename_of_find? savepoint hlimit hp hname
    rw [h] at hsearch
    cases hsearch
    rfl
  | none =>
    obtain ⟨hmem, hrename⟩ := guarded_rename_done h
    obtain ⟨q, hq, hfree, -⟩ := rename_eq_done.1 hrename
    obtain rfl := Option.some.inj (hp.symm.trans hq)
    have htaken := List.find?_eq_none.1 hname found.candidate hmem
    simp [hfree] at htaken

/-! ## Changes of packages -/

/-- The working tables differ in their packages only, row by row in the way of a relation, and
nothing else of the transaction differs. -/
structure Evolves (R : Package → Package → Prop) (tx tx' : Transaction) : Prop where
  working : tx.working.Evolves R tx'.working
  rest : tx' = { tx with working := tx'.working }

variable {R S : Package → Package → Prop} {tx'' : Transaction}

/-- Changes one after another compose row by row. -/
theorem Evolves.trans (h : tx.Evolves R tx') (h' : tx'.Evolves S tx'') :
    tx.Evolves (Relation.Comp R S) tx'' :=
  ⟨h.working.trans h'.working, by rw [h'.rest, h.rest]⟩

/-- What a relation says of the rows may be said in another way. -/
theorem Evolves.imp (h : tx.Evolves R tx') (hRS : ∀ p ∈ tx.working.packages, ∀ q, R p q → S p q) :
    tx.Evolves S tx' :=
  ⟨h.working.imp hRS, h.rest⟩

/-- Nothing is done to the packages, or only their names, states and update times are changed. -/
instance : IsPreorder Transaction (Evolves Package.Retouched) where
  refl _ := ⟨Tables.evolves_refl _ fun _ => rfl, rfl⟩
  trans _ _ _ h h' := (h.trans h').imp fun _ _ _ ⟨_, hpq, hqr⟩ => hqr.trans hpq

/-- A change of the package with a number changes it and no other. -/
theorem evolves_changeId (tx : Transaction) (id : Int) (f : Package → Package) :
    tx.Evolves (fun p q => q = if p.id = id then f p else p)
      { tx with working := tx.working.changeId id f } := by
  refine ⟨(Tables.evolves_change _ _ _).imp fun p _ q hq => ?_, rfl⟩
  simpa using hq

/-! ## Storage -/

/-- Sums of source files are read off the working tables. -/
theorem fileSizes_eq_done {ids : List Int} {sums : Totals} :
    fileSizes ids tx = (.done sums, tx') ↔
      tx.working.fileSizes ids = some sums ∧ tx' = tx := by
  simp only [fileSizes, Action.bind_eq_done, Action.get_eq_done, Action.orAbort_eq_done]
  constructor
  · intro hgiven
    obtain ⟨_, _, ⟨rfl, rfl⟩, h⟩ := hgiven
    exact h
  · exact fun h => ⟨tx, tx, ⟨rfl, rfl⟩, h⟩

variable {delta : Int} {u : Unit}

/-- An addition that stays in range replaces the working tables. -/
theorem orAbort_write_eq_done {α : Type} (sum : Transaction → Option α)
    (put : Transaction → α → Tables) :
    (do
      let tx ← Action.get
      let a ← Action.orAbort (sum tx)
      write (put tx a) : Action Transaction Unit) tx = (.done u, tx') ↔
      ∃ a, sum tx = some a ∧ tx' = { tx with working := put tx a } := by
  simp only [Action.bind_eq_done, Action.get_eq_done, Action.orAbort_eq_done, write_eq_done]
  constructor
  · intro hgiven
    obtain ⟨_, _, ⟨rfl, rfl⟩, a, _, ⟨hsum, rfl⟩, rfl⟩ := hgiven
    exact ⟨a, hsum, rfl⟩
  · intro hgiven
    obtain ⟨a, hsum, rfl⟩ := hgiven
    exact ⟨tx, tx, ⟨rfl, rfl⟩, a, tx, ⟨hsum, rfl⟩, rfl⟩

/-- Adding to the total of a package. -/
theorem addToPackage_eq_done :
    addToPackage id delta tx = (.done u, tx') ↔
      ∃ totals, tx.working.packageStorage.add id delta = some totals ∧
        tx' = { tx with working := { tx.working with packageStorage := totals } } :=
  orAbort_write_eq_done (fun tx => tx.working.packageStorage.add id delta)
    fun tx totals => { tx.working with packageStorage := totals }

/-- Adding to the totals of a package and of every package above it. -/
theorem addToAncestors_eq_done :
    addToAncestors id delta tx = (.done u, tx') ↔
      ∃ t, tx.working.addToAncestors id delta = some t ∧ tx' = { tx with working := t } :=
  orAbort_write_eq_done (fun tx => tx.working.addToAncestors id delta) fun _ t => t

/-- Adding to the total of a dataset. -/
theorem addToDataset_eq_done :
    addToDataset id delta tx = (.done u, tx') ↔
      ∃ totals, tx.working.datasetStorage.add id delta = some totals ∧
        tx' = { tx with working := { tx.working with datasetStorage := totals } } :=
  orAbort_write_eq_done (fun tx => tx.working.datasetStorage.add id delta)
    fun tx totals => { tx.working with datasetStorage := totals }

/-- Adding to the total of an organization. -/
theorem addToOrganization_eq_done :
    addToOrganization id delta tx = (.done u, tx') ↔
      ∃ totals, tx.working.organizationStorage.add id delta = some totals ∧
        tx' = { tx with working := { tx.working with organizationStorage := totals } } :=
  orAbort_write_eq_done (fun tx => tx.working.organizationStorage.add id delta)
    fun tx totals => { tx.working with organizationStorage := totals }

/-- An addition is done unless its sum leaves the range. -/
theorem doneUnless_orAbort_write {α : Type} (sum : Transaction → Option α)
    (put : Transaction → α → Tables) (tx : Transaction) :
    Action.DoneUnless (sum tx = none) (do
      let tx ← Action.get
      let a ← Action.orAbort (sum tx)
      write (put tx a)) tx :=
  Action.doneUnless_bind_of_done rfl
    ((Action.doneUnless_orAbort _ _).bind fun _ _ _ => Action.doneUnless_of_done rfl)

/-- Adding to the total of a package does not fail. -/
theorem doneUnless_addToPackage (id delta : Int) (tx : Transaction) :
    Action.DoneUnless True (addToPackage id delta) tx :=
  (doneUnless_orAbort_write (fun tx => tx.working.packageStorage.add id delta)
    (fun tx totals => { tx.working with packageStorage := totals }) tx).mono fun _ => trivial

/-- Adding to the totals of a package and of every package above it does not fail. -/
theorem doneUnless_addToAncestors (id delta : Int) (tx : Transaction) :
    Action.DoneUnless True (addToAncestors id delta) tx :=
  (doneUnless_orAbort_write (fun tx => tx.working.addToAncestors id delta) (fun _ t => t) tx).mono
    fun _ => trivial

/-- Adding to the total of a dataset does not fail. -/
theorem doneUnless_addToDataset (id delta : Int) (tx : Transaction) :
    Action.DoneUnless True (addToDataset id delta) tx :=
  (doneUnless_orAbort_write (fun tx => tx.working.datasetStorage.add id delta)
    (fun tx totals => { tx.working with datasetStorage := totals }) tx).mono fun _ => trivial

/-- Adding to the total of an organization does not fail. -/
theorem doneUnless_addToOrganization (id delta : Int) (tx : Transaction) :
    Action.DoneUnless True (addToOrganization id delta) tx :=
  (doneUnless_orAbort_write (fun tx => tx.working.organizationStorage.add id delta)
    (fun tx totals => { tx.working with organizationStorage := totals }) tx).mono fun _ => trivial

end Transaction

end Salvage
