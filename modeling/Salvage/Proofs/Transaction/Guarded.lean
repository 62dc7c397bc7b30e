import Salvage.Proofs.Transaction

/-!
# Failed attempts leave no trace

A guarded search tries its candidates in order, each from the tables of the start, until one attempt
does not fail in a way that allows another. Which attempts those are can be said from single attempts
on the tables of the start, and the tables and the savepoints that a search leaves are those of its
last attempt alone. A savepoint holds the tables only, so an attempt that marks anything else in the
transaction shows that it was made; the statement covers such attempts too, and says with that which
ones a search makes, and in which order.
-/

namespace Salvage.Transaction

variable {α : Type} {attempt : String → Action Transaction α} {savepoint : String}
  {retryable : Error → Bool} {tx : Transaction}

/-- What an attempt returns and the tables that it leaves depend on the tables that it finds, and it
uses no savepoints. What it does to the rest of the transaction is left open. -/
structure OnTables (x : Action Transaction α) : Prop where
  outcome : ∀ s t : Transaction, s.working = t.working → (x s).1 = (x t).1
  working : ∀ s t : Transaction, s.working = t.working → (x s).2.working = (x t).2.working
  savepoints : ∀ s : Transaction, (x s).2.savepoints = s.savepoints

/-- An attempt on a transaction fails in a way that allows another one. -/
def AllowsAnother (retryable : Error → Bool) (x : Action Transaction α) (tx : Transaction) : Prop :=
  ∃ e, (x tx).1 = .failed e ∧ retryable e = true

/-- A transaction back at the tables of the start, under a savepoint that holds them. -/
def backAt (savepoint : String) (start tx : Transaction) : Transaction :=
  { tx with working := start.working, savepoints := (savepoint, start.working) :: start.savepoints }

/-- What becomes of a transaction when candidates are tried one after another, each from the tables of
the start. -/
def tryAll (savepoint : String) (attempt : String → Action Transaction α) (start : Transaction)
    (candidates : List String) (tx : Transaction) : Transaction :=
  candidates.foldl (fun tx c => (attempt c (backAt savepoint start tx)).2) tx

/-- A transaction under the savepoint of the start is back at the start when it has its tables. -/
theorem eq_backAt {start : Transaction}
    (h : tx.savepoints = (savepoint, start.working) :: start.savepoints) :
    { tx with working := start.working } = backAt savepoint start tx := by
  rw [backAt, ← h]

section OnTables

variable (hattempt : ∀ c, OnTables (attempt c)) (c : String) (s : Transaction)
include hattempt

/-- An attempt from the tables of the start ends as it does at the start. -/
theorem outcome_backAt : (attempt c (backAt savepoint tx s)).1 = (attempt c tx).1 :=
  (hattempt c).outcome _ _ rfl

/-- An attempt from the tables of the start leaves the tables that it leaves at the start. -/
theorem working_backAt : (attempt c (backAt savepoint tx s)).2.working = (attempt c tx).2.working :=
  (hattempt c).working _ _ rfl

/-- After an attempt from the tables of the start their savepoint is the newest one. -/
theorem savepoints_backAt : (attempt c (backAt savepoint tx s)).2.savepoints =
    (savepoint, tx.working) :: tx.savepoints :=
  (hattempt c).savepoints _

/-- An attempt that allows another one is undone, and the search goes on. -/
theorem tryEach_cons_of_allowsAnother {rest : List String} (hrest : rest ≠ [])
    (h : AllowsAnother retryable (attempt c) tx) (n : Nat) :
    tryEach savepoint retryable attempt n (c :: rest) (backAt savepoint tx s) =
      tryEach savepoint retryable attempt (n + 1) rest
        (backAt savepoint tx (attempt c (backAt savepoint tx s)).2) := by
  obtain ⟨e, hfailed, hretry⟩ := h
  have hmore : (retryable e && !rest.isEmpty) = true := by
    simp [hretry, hrest]
  have hsaved : (attempt c (backAt savepoint tx s)).2.savepoints =
      (savepoint, tx.working) :: tx.savepoints := savepoints_backAt hattempt c s
  rw [tryEach, Action.attempt_bind_apply, outcome_backAt hattempt, hfailed]
  simp only [hmore, if_true]
  rw [Action.bind_of_done (rollbackTo_newest hsaved), eq_backAt hsaved]

/-- An attempt that allows no other one, or has none after it, ends the search. Only one that is done
releases the savepoint. -/
theorem tryEach_cons_of_last {rest : List String}
    (h : AllowsAnother retryable (attempt c) tx → rest = []) (n : Nat) :
    tryEach savepoint retryable attempt n (c :: rest) (backAt savepoint tx s) =
      ((attempt c tx).1.map fun value => ⟨value, c, n + 1⟩,
        if (attempt c tx).1.isDone then
          { (attempt c (backAt savepoint tx s)).2 with savepoints := tx.savepoints }
        else (attempt c (backAt savepoint tx s)).2) := by
  have hsaved : (attempt c (backAt savepoint tx s)).2.savepoints =
      (savepoint, tx.working) :: tx.savepoints := savepoints_backAt hattempt c s
  rw [tryEach, Action.attempt_bind_apply, outcome_backAt hattempt]
  cases houtcome : (attempt c tx).1 with
  | done value =>
    have hrelease : release savepoint (attempt c (backAt savepoint tx s)).2 =
        (.done (), { (attempt c (backAt savepoint tx s)).2 with savepoints := tx.savepoints }) :=
      (release_eq_done hsaved).2 rfl
    exact Action.bind_of_done hrelease
  | failed e =>
    have hend : (retryable e && !rest.isEmpty) = false := by
      cases hretry : retryable e with
      | false => rfl
      | true => rw [h ⟨e, houtcome, hretry⟩]; rfl
    simp only [hend, Bool.false_eq_true, if_false]
    rfl
  | aborted => rfl

/-- A search under a savepoint tries the candidates up to the first that allows no other, or up to
the last one, each from the tables of the start, and ends as that one does. -/
theorem tryEach_apply {before after : List String}
    (hbefore : ∀ b ∈ before, AllowsAnother retryable (attempt b) tx)
    (hlast : AllowsAnother retryable (attempt c) tx → after = []) (n : Nat) :
    tryEach savepoint retryable attempt n (before ++ c :: after) (backAt savepoint tx s) =
      ((attempt c tx).1.map fun value => ⟨value, c, n + before.length + 1⟩,
        if (attempt c tx).1.isDone then
          { tryAll savepoint attempt tx (before ++ [c]) s with savepoints := tx.savepoints }
        else tryAll savepoint attempt tx (before ++ [c]) s) := by
  induction before generalizing n s with
  | nil => exact tryEach_cons_of_last hattempt c s hlast n
  | cons b before ih =>
    obtain ⟨hb, hbefore⟩ := List.forall_mem_cons.1 hbefore
    have hrest : before ++ c :: after ≠ [] := by simp
    rw [List.cons_append, tryEach_cons_of_allowsAnother hattempt b s hrest hb,
      ih _ hbefore, List.length_cons, Nat.add_assoc n 1, Nat.add_comm 1]
    rfl

/-- The tables after candidates were tried are those that the last of them leaves at the start. -/
theorem working_tryAll (before : List String) :
    (tryAll savepoint attempt tx (before ++ [c]) s).working = (attempt c tx).2.working := by
  rw [tryAll, List.foldl_append]
  exact working_backAt hattempt c _

end OnTables

/-- A guarded search tries the allowed candidates up to the first whose attempt at the start does not
fail in a way that allows another, or all of them, in order and each from the tables of the start.
Where that attempt is done, its value, its candidate and the number of candidates tried are returned,
the tables are those that it leaves at the start, and the savepoints are as before. Where it fails, or
where it is the last one, its error is returned. Without a candidate no attempt is made. -/
theorem guarded_leaves_no_trace (hattempt : ∀ c, OnTables (attempt c)) (savepoint : String)
    (limit : Nat) (retryable : Error → Bool) (candidates : List String) (tx : Transaction) :
    (∀ before c after, candidates.take limit = before ++ c :: after →
      (∀ b ∈ before, AllowsAnother retryable (attempt b) tx) →
      ¬ AllowsAnother retryable (attempt c) tx →
        (∀ value, (attempt c tx).1 = .done value → ∃ tx',
          guarded savepoint limit retryable candidates attempt tx =
            (.done ⟨value, c, before.length + 1⟩, tx') ∧
          tx' = { tryAll savepoint attempt tx (before ++ [c]) tx with
            savepoints := tx.savepoints } ∧
          tx'.working = (attempt c tx).2.working) ∧
        (∀ e, (attempt c tx).1 = .failed e →
          guarded savepoint limit retryable candidates attempt tx =
            (.failed e, tryAll savepoint attempt tx (before ++ [c]) tx)) ∧
        ((attempt c tx).1 = .aborted →
          guarded savepoint limit retryable candidates attempt tx =
            (.aborted, tryAll savepoint attempt tx (before ++ [c]) tx))) ∧
    (∀ before c e, candidates.take limit = before ++ [c] →
      (∀ b ∈ before ++ [c], AllowsAnother retryable (attempt b) tx) →
      (attempt c tx).1 = .failed e →
        guarded savepoint limit retryable candidates attempt tx =
          (.failed e, tryAll savepoint attempt tx (before ++ [c]) tx)) ∧
    (candidates.take limit = [] →
      guarded savepoint limit retryable candidates attempt tx =
        (.failed (.retriesExhausted s!"savepoint {savepoint}" 0 0), backAt savepoint tx tx)) := by
  have hrun : guarded savepoint limit retryable candidates attempt tx =
      tryEach savepoint retryable attempt 0 (candidates.take limit) (backAt savepoint tx tx) := rfl
  rw [hrun]
  refine ⟨fun before c after hsplit hbefore hnot => ?_, fun before c e hsplit hall hfailed => ?_,
    fun hnone => ?_⟩
  · rw [hsplit, tryEach_apply hattempt c tx hbefore (fun hmore => absurd hmore hnot) 0]
    refine ⟨fun value hdone => ?_, fun e hfailed => ?_, fun haborted => ?_⟩
    · rw [hdone, Nat.zero_add]
      exact ⟨_, rfl, rfl, working_tryAll hattempt c tx before⟩
    · rw [hfailed]
      rfl
    · rw [haborted]
      rfl
  · have hbefore : ∀ b ∈ before, AllowsAnother retryable (attempt b) tx :=
      fun b hb => hall b (List.mem_append_left _ hb)
    rw [hsplit, tryEach_apply hattempt c tx hbefore (fun _ => rfl) 0, hfailed]
    rfl
  · rw [hnone]
    rfl

/-- An attempt with a candidate, which changes the tables and writes the length of the candidate down
where no savepoint undoes it. -/
def notedAttempt (c : String) : Action Transaction Unit := fun tx =>
  (if c = "free" then .done () else .failed (.nameTaken 1 3 c "taken"),
    { tx with
      org := 10 * tx.org + c.length,
      working := { tx.working with lastId := tx.working.lastId + c.length } })

/-- A transaction with an older savepoint. -/
def savedBefore : Transaction where
  org := 0
  way := .bounded
  working := Tables.empty
  savepoints := [("s_svpt", { Tables.empty with lastId := 9 })]

/-- Two attempts fail, the third one is done and the fourth is not made. The tables are changed by the
third one only, and the older savepoint of the same name is the only one left. -/
theorem guarded_leaves_no_trace_noted :
    (∀ c, OnTables (notedAttempt c)) ∧
      guarded "s_svpt" 7 Error.isNameConflict ["ab", "x", "free", "later"] notedAttempt savedBefore =
        (.done ⟨(), "free", 3⟩,
          { savedBefore with org := 214, working := { Tables.empty with lastId := 4 } }) := by
  have hattempt (c : String) : OnTables (notedAttempt c) := by
    refine ⟨fun _ _ _ => rfl, fun s t h => ?_, fun _ => rfl⟩
    simp only [notedAttempt, h]
  have hfails : ∀ b ∈ ["ab", "x"],
      AllowsAnother Error.isNameConflict (notedAttempt b) savedBefore := by
    intro b hb
    refine ⟨.nameTaken 1 3 b "taken", if_neg ?_, rfl⟩
    rintro rfl
    simp at hb
  have hends : ¬ AllowsAnother Error.isNameConflict (notedAttempt "free") savedBefore := by
    rintro ⟨_, h, -⟩
    cases h
  obtain ⟨tx', hdone, rfl, -⟩ := ((guarded_leaves_no_trace hattempt "s_svpt" 7 Error.isNameConflict
    ["ab", "x", "free", "later"] savedBefore).1 ["ab", "x"] "free" ["later"] rfl hfails hends).1 ()
    rfl
  exact ⟨hattempt, hdone.trans (by decide)⟩

end Salvage.Transaction
