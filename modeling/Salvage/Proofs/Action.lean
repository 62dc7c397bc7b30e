import Mathlib.Order.Defs.Unbundled
import Salvage.Outcome

/-!
# How actions end

An action that is done has gone through all of its parts. One lemma for each way to build an action
says through which, so that a run can be taken apart from its end. What has to hold after every run,
whether it is done, failed or aborted, is a relation between the states before and after; an action
stays within a preorder if its parts do.
-/

namespace Salvage

namespace Outcome

variable {α β γ : Type}

/-- Changing the value of an outcome does not change whether there is one. -/
@[simp] theorem isDone_map (f : α → β) (o : Outcome α) : (o.map f).isDone = o.isDone := by
  cases o <;> rfl

/-- The value of an outcome is changed twice by changing it once. -/
@[simp] theorem map_map (f : α → β) (g : β → γ) (o : Outcome α) :
    (o.map f).map g = o.map fun a => g (f a) := by
  cases o <;> rfl

/-- An outcome that is done has a value. -/
theorem exists_of_isDone {o : Outcome α} (h : o.isDone) : ∃ a, o = .done a := by
  cases o with
  | done a => exact ⟨a, rfl⟩
  | failed => cases h
  | aborted => cases h

/-- Changing the value of an outcome does not change its error. -/
theorem map_eq_failed {f : α → β} {o : Outcome α} {e : Error} :
    o.map f = .failed e ↔ o = .failed e := by
  cases o <;> simp [map]

/-- A changed outcome has a value when the outcome has one. -/
theorem map_eq_done {f : α → β} {o : Outcome α} {b : β} :
    o.map f = .done b ↔ ∃ a, o = .done a ∧ f a = b := by
  cases o <;> simp [map]

/-- A context does not change the value. -/
theorem context_eq_done {text : String} {o : Outcome α} {a : α} :
    o.context text = .done a ↔ o = .done a := by
  cases o <;> simp [context]

/-- The outcome of a computation is its value, if it has one. -/
theorem ofExcept_eq_done {x : Except Error α} {a : α} : ofExcept x = .done a ↔ x = .ok a := by
  cases x <;> simp [ofExcept]

/-- A context does not change whether there is a value. -/
@[simp] theorem isDone_context (text : String) (o : Outcome α) :
    (o.context text).isDone = o.isDone := by
  cases o <;> rfl

/-- There is nothing to change in an outcome without a value. -/
theorem map_eq_self {o : Outcome α} (h : o.isDone = false) (f : α → α) : o.map f = o := by
  cases o with
  | done => cases h
  | failed => rfl
  | aborted => rfl

/-- An outcome is an error behind a text, which leaves the kind of the error as it is. -/
def FailsBehind (text : String) (e : Error) (o : Outcome α) : Prop :=
  ∃ wrapped, o = .failed wrapped ∧ wrapped = .context text e ∧ wrapped.kind = e.kind

/-- A failure in a context is one behind its text. -/
theorem failsBehind_context {text : String} {o : Outcome α} {e : Error} (h : o = .failed e) :
    (o.context text).FailsBehind text e := by
  rw [h]
  exact ⟨_, rfl, rfl, Error.kind_context text e⟩

/-- There is no value to change in a failure behind a text. -/
theorem FailsBehind.map {text : String} {o : Outcome α} {e : Error} (h : o.FailsBehind text e)
    (f : α → β) : (o.map f).FailsBehind text e := by
  obtain ⟨wrapped, rfl, hwrapped⟩ := h
  exact ⟨wrapped, rfl, hwrapped⟩

end Outcome

namespace Action

variable {σ τ α β : Type} {s s' : σ}

/-! ## Actions that are done -/

/-- Returning is done at once and leaves the state alone. -/
@[simp] theorem pure_eq_done {a b : α} :
    (Pure.pure a : Action σ α) s = (.done b, s') ↔ b = a ∧ s' = s := by
  change (Outcome.done a, s) = (.done b, s') ↔ _
  simp [eq_comm]

/-- A sequence is done when its first part is, and then its second part on the state that is left. -/
@[simp] theorem bind_eq_done {x : Action σ α} {f : α → Action σ β} {b : β} :
    (x >>= f) s = (.done b, s') ↔ ∃ a t, x s = (.done a, t) ∧ f a t = (.done b, s') := by
  change Action.bind x f s = (.done b, s') ↔ _
  rw [Action.bind]
  rcases x s with ⟨a | e | _, t⟩
  · constructor
    · intro h
      exact ⟨a, t, rfl, h⟩
    · intro hgiven
      obtain ⟨_, _, hx, h⟩ := hgiven
      cases hx
      exact h
  · simp
  · simp

/-- Reading the state is done and returns it. -/
@[simp] theorem get_eq_done {t : σ} : (get : Action σ σ) s = (.done t, s') ↔ t = s ∧ s' = s := by
  simp [get, eq_comm]

/-- What follows a reading of the state starts from that state. -/
theorem get_bind_apply (f : σ → Action σ α) (s : σ) : (get >>= f) s = f s s := rfl

/-- What follows an action that is done starts from the value and the state that it left. -/
theorem bind_of_done {x : Action σ α} {f : α → Action σ β} {a : α} (h : x s = (.done a, s')) :
    (x >>= f) s = f a s' := by
  change Action.bind x f s = _
  rw [Action.bind, h]

/-- Nothing follows an action that has failed. -/
theorem bind_of_failed {x : Action σ α} {f : α → Action σ β} {e : Error}
    (h : x s = (.failed e, s')) : (x >>= f) s = (.failed e, s') := by
  change Action.bind x f s = _
  rw [Action.bind, h]

/-- Nothing follows an action that was aborted. -/
theorem bind_of_aborted {x : Action σ α} {f : α → Action σ β} (h : x s = (.aborted, s')) :
    (x >>= f) s = (.aborted, s') := by
  change Action.bind x f s = _
  rw [Action.bind, h]

/-- A sequence whose first part is not done ends as that does. -/
theorem bind_of_not_done {x : Action σ α} (f : α → Action σ β) (h : (x s).1.isDone = false) :
    ((x >>= f) s).1.map (fun _ => ()) = (x s).1.map (fun _ => ()) ∧
      ((x >>= f) s).2 = (x s).2 := by
  rcases hrun : x s with ⟨a | e | _, t⟩
  · rw [hrun] at h
    cases h
  · rw [bind_of_failed hrun]
    exact ⟨rfl, rfl⟩
  · rw [bind_of_aborted hrun]
    exact ⟨rfl, rfl⟩

/-- A sequence that only changes the value of its first part ends as that does. -/
theorem bind_pure_apply (x : Action σ α) (f : α → β) (s : σ) :
    (x >>= fun a => Pure.pure (f a)) s = ((x s).1.map f, (x s).2) := by
  change Action.bind x _ s = _
  rw [Action.bind]
  rcases x s with ⟨_ | _ | _, t⟩ <;> rfl

/-- An action on a part of the state ends as it does on that part. -/
theorem on_apply_of {part : σ → τ} {put : τ → σ → σ} {x : Action τ α} {o : Outcome α} {t : τ}
    (h : x (part s) = (o, t)) : x.on part put s = (o, put t s) := by
  rw [on, h]

/-- An action that has failed has failed in every context. -/
theorem context_of_failed {x : Action σ α} {e : Error} (text : String)
    (h : x s = (.failed e, s')) : x.context text s = (.failed (.context text e), s') := by
  rw [context, h]
  rfl

/-- What follows an attempt starts from how that ended. -/
theorem attempt_bind_apply (x : Action σ α) (f : Outcome α → Action σ β) (s : σ) :
    (x.attempt >>= f) s = f (x s).1 (x s).2 := rfl

/-- Replacing the state is done and leaves the new one. -/
@[simp] theorem set_eq_done {t : σ} {u : Unit} : set t s = (.done u, s') ↔ s' = t := by
  simp [set, eq_comm]

/-- Changing the state is done and leaves the changed one. -/
@[simp] theorem modify_eq_done {f : σ → σ} {u : Unit} :
    modify f s = (.done u, s') ↔ s' = f s := by
  simp [modify, eq_comm]

/-- A failure is never done. -/
@[simp] theorem fail_eq_done {e : Error} {a : α} :
    (fail e : Action σ α) s = (.done a, s') ↔ False := by
  simp [fail]

/-- An abort is never done. -/
@[simp] theorem abort_eq_done {a : α} : (abort : Action σ α) s = (.done a, s') ↔ False := by
  simp [abort]

/-- A given outcome is done when it is a value. -/
@[simp] theorem ofOutcome_eq_done {o : Outcome α} {a : α} :
    (ofOutcome o : Action σ α) s = (.done a, s') ↔ o = .done a ∧ s' = s := by
  simp [ofOutcome, eq_comm]

/-- A value that may be out of range is returned when it is in range. -/
@[simp] theorem orAbort_eq_done {o : Option α} {a : α} :
    (orAbort o : Action σ α) s = (.done a, s') ↔ o = some a ∧ s' = s := by
  cases o with
  | none => simp [orAbort]
  | some b => simp [orAbort, Action.pure, eq_comm]

/-- An attempt is always done, with the outcome of what was attempted. -/
@[simp] theorem attempt_eq_done {x : Action σ α} {o : Outcome α} :
    x.attempt s = (.done o, s') ↔ x s = (o, s') := by
  rw [attempt]
  rcases x s with ⟨_, t⟩
  simp

/-- An action on a part of the state is done when it is done on that part. -/
@[simp] theorem on_eq_done {part : σ → τ} {put : τ → σ → σ} {x : Action τ α} {a : α} :
    x.on part put s = (.done a, s') ↔ ∃ t, x (part s) = (.done a, t) ∧ s' = put t s := by
  rw [on]
  rcases x (part s) with ⟨o, t⟩
  constructor
  · intro hgiven
    cases hgiven
    exact ⟨t, rfl, rfl⟩
  · intro hgiven
    obtain ⟨_, hx, rfl⟩ := hgiven
    cases hx
    rfl

/-- A context changes nothing about an action that is done. -/
@[simp] theorem context_eq_done {text : String} {x : Action σ α} {a : α} :
    x.context text s = (.done a, s') ↔ x s = (.done a, s') := by
  rw [context]
  rcases x s with ⟨_ | _ | _, t⟩ <;> simp [Outcome.context]

/-- Doing nothing for each of no elements. -/
@[simp] theorem each_nil_eq_done {f : α → Action σ β} {bs : List β} :
    each f [] s = (.done bs, s') ↔ bs = [] ∧ s' = s :=
  pure_eq_done

/-- An action for each element of a list is done for the first and then for all others. -/
@[simp] theorem each_cons_eq_done {f : α → Action σ β} {a : α} {as : List α} {bs : List β} :
    each f (a :: as) s = (.done bs, s') ↔
      ∃ b cs t, bs = b :: cs ∧ f a s = (.done b, t) ∧ each f as t = (.done cs, s') := by
  change (f a >>= fun b => each f as >>= fun cs => Pure.pure (b :: cs)) s = _ ↔ _
  simp only [bind_eq_done, pure_eq_done]
  constructor
  · intro hgiven
    obtain ⟨b, t, hfirst, cs, t', hrest, rfl, rfl⟩ := hgiven
    exact ⟨b, cs, t, rfl, hfirst, hrest⟩
  · intro hgiven
    obtain ⟨b, cs, t, rfl, hfirst, hrest⟩ := hgiven
    exact ⟨b, t, hfirst, cs, s', hrest, rfl, rfl⟩

/-- When an action is done for the first element of a list, the others decide. -/
theorem each_cons_of_done {f : α → Action σ β} {a : α} {b : β} (as : List α)
    (h : f a s = (.done b, s')) :
    each f (a :: as) s = ((each f as s').1.map (b :: ·), (each f as s').2) := by
  change (f a >>= fun b => each f as >>= fun bs => Pure.pure (b :: bs)) s = _
  rw [bind_of_done h, bind_pure_apply]

/-- When an action is not done for the first element of a list, the others are left out. -/
theorem each_cons_of_not_done {f : α → Action σ β} {a : α} {o : Outcome β} (as : List α)
    (h : f a s = (o, s')) (hstop : o.isDone = false) :
    each f (a :: as) s = (o.map fun b => [b], s') := by
  change (f a >>= fun b => each f as >>= fun bs => Pure.pure (b :: bs)) s = _
  cases o with
  | done => cases hstop
  | failed e => exact bind_of_failed h
  | aborted => exact bind_of_aborted h

/-- When an action for each element of a list is not done, it was done for those before one element
and stopped there. -/
theorem each_not_done {f : α → Action σ β} {as : List α} (h : (each f as s).1.isDone = false) :
    ∃ before a after bs t, as = before ++ a :: after ∧ each f before s = (.done bs, t) ∧
      (f a t).1.isDone = false ∧
      (each f as s).1.map (fun _ => ()) = (f a t).1.map (fun _ => ()) ∧
      (each f as s).2 = (f a t).2 := by
  induction as generalizing s with
  | nil => cases h
  | cons a as ih =>
    cases hdone : (f a s).1.isDone with
    | true =>
      obtain ⟨b, hvalue⟩ := Outcome.exists_of_isDone hdone
      have hfirst : f a s = (.done b, (f a s).2) := Prod.ext hvalue rfl
      rw [each_cons_of_done as hfirst] at h ⊢
      rw [Outcome.isDone_map] at h
      obtain ⟨before, a', after, bs, t, rfl, hbefore, hstop, houtcome, hstate⟩ := ih h
      refine ⟨a :: before, a', after, b :: bs, t, rfl, ?_, hstop, ?_, hstate⟩
      · rw [each_cons_of_done before hfirst, hbefore]
        rfl
      · rw [Outcome.map_map, houtcome]
    | false =>
      obtain ⟨houtcome, hstate⟩ :=
        bind_of_not_done (fun b => each f as >>= fun bs => Pure.pure (b :: bs)) hdone
      exact ⟨[], a, as, [], s, rfl, rfl, hdone, houtcome, hstate⟩

/-- Attempts for each element of a list are all made, however they end. -/
theorem each_attempt (f : α → Action σ β) (as : List α) (s : σ) :
    ∃ os, each (fun a => (f a).attempt) as s = (.done os, as.foldl (fun s a => (f a s).2) s) := by
  induction as generalizing s with
  | nil => exact ⟨[], rfl⟩
  | cons a as ih =>
    obtain ⟨os, hrest⟩ := ih (f a s).2
    have hfirst : (f a).attempt s = (.done (f a s).1, (f a s).2) := rfl
    exact ⟨(f a s).1 :: os, by rw [each_cons_of_done as hfirst, hrest]; rfl⟩

/-! ## What holds when an action is done -/

/-- Every run of an action that is done leads from its state to one that a relation allows. -/
def WhenDone (R : σ → σ → Prop) (x : Action σ α) : Prop :=
  ∀ ⦃s a s'⦄, x s = (.done a, s') → R s s'

section WhenDone

variable {R : σ → σ → Prop} [IsPreorder σ R] {f : α → Action σ β}

/-- Returning leaves the state alone. -/
theorem whenDone_pure (a : α) : WhenDone R (Pure.pure a : Action σ α) := by
  intro s b s' h
  rw [(pure_eq_done.1 h).2]
  exact Std.Refl.refl (r := R) s

/-- A sequence that is done leads where its parts lead. -/
theorem WhenDone.bind {x : Action σ α} (hx : WhenDone R x) (hf : ∀ a, WhenDone R (f a)) :
    WhenDone R (x >>= f) := by
  intro s b s' h
  obtain ⟨a, t, hfirst, hrest⟩ := bind_eq_done.1 h
  exact IsTrans.trans (r := R) _ _ _ (hx hfirst) (hf a hrest)

/-- What holds of each of some actions that are done holds of all of them one after another. -/
theorem whenDone_each (hf : ∀ a, WhenDone R (f a)) (as : List α) : WhenDone R (each f as) := by
  induction as with
  | nil => exact whenDone_pure []
  | cons a as ih =>
    change WhenDone R (f a >>= fun b => each f as >>= fun bs => Pure.pure (b :: bs))
    exact (hf a).bind fun b => ih.bind fun bs => whenDone_pure (b :: bs)

end WhenDone

/-- An action on a part of the state leads where the part's relation leads on the whole. -/
theorem WhenDone.on {Q : τ → τ → Prop} {R : σ → σ → Prop} {part : σ → τ} {put : τ → σ → σ}
    {x : Action τ α} (hx : WhenDone Q x) (hput : ∀ s t, Q (part s) t → R s (put t s)) :
    WhenDone R (x.on part put) := by
  intro s a s' h
  obtain ⟨t, hdone, rfl⟩ := on_eq_done.1 h
  exact hput s t (hx hdone)

/-! ## Actions side by side -/

/-- Where the first action is done, the second one is done in every related state, and they end in
related states. -/
def Follows (R : σ → σ → Prop) (x : Action σ α) (y : Action σ β) : Prop :=
  ∀ ⦃s s' a t⦄, R s s' → x s = (.done a, t) → ∃ b t', y s' = (.done b, t') ∧ R t t'

section Follows

variable {γ δ : Type} {R : σ → σ → Prop}

/-- Returning leaves related states. -/
theorem follows_pure (a : α) (b : β) :
    Follows R (Pure.pure a : Action σ α) (Pure.pure b : Action σ β) := by
  intro s s' a' t hs h
  rw [(pure_eq_done.1 h).2]
  exact ⟨b, s', rfl, hs⟩

/-- A sequence follows another one when its parts follow the parts, whatever they return. -/
theorem Follows.bind {x : Action σ α} {y : Action σ β} {f : α → Action σ γ} {g : β → Action σ δ}
    (hx : Follows R x y) (hf : ∀ a b, Follows R (f a) (g b)) : Follows R (x >>= f) (y >>= g) := by
  intro s s' c u hs h
  obtain ⟨a, t, hfirst, hrest⟩ := bind_eq_done.1 h
  obtain ⟨b, t', hfirst', ht⟩ := hx hs hfirst
  obtain ⟨d, u', hrest', hu⟩ := hf a b ht hrest
  exact ⟨d, u', bind_eq_done.2 ⟨b, t', hfirst', hrest'⟩, hu⟩

/-- Actions one after another follow others when each follows its counterpart. -/
theorem follows_each {f : α → Action σ γ} {g : α → Action σ δ} (hf : ∀ a, Follows R (f a) (g a))
    (as : List α) : Follows R (each f as) (each g as) := by
  induction as with
  | nil => exact follows_pure [] []
  | cons a as ih =>
    change Follows R (f a >>= fun b => each f as >>= fun bs => Pure.pure (b :: bs))
      (g a >>= fun b => each g as >>= fun bs => Pure.pure (b :: bs))
    exact (hf a).bind fun b b' => ih.bind fun bs bs' => follows_pure (b :: bs) (b' :: bs')

end Follows

/-! ## Actions that do not see a change -/

/-- On a state an action does not see a change of the state: it ends in the same way with it and
without, and leaves the change as it is. -/
def Blind (g : σ → σ) (x : Action σ α) (s : σ) : Prop :=
  x (g s) = ((x s).1, g (x s).2)

section Blind

variable {g : σ → σ}

/-- Returning sees no change. -/
theorem blind_pure (g : σ → σ) (a : α) (s : σ) : Blind g (Pure.pure a : Action σ α) s := rfl

/-- A given outcome sees no change. -/
theorem blind_ofOutcome (g : σ → σ) (o : Outcome α) (s : σ) : Blind g (ofOutcome o) s := rfl

/-- A value that may be out of range sees no change. -/
theorem blind_orAbort (g : σ → σ) (o : Option α) (s : σ) : Blind g (orAbort o) s := by
  cases o <;> rfl

/-- A sequence does not see a change that its parts do not see. -/
theorem Blind.bind {x : Action σ α} {f : α → Action σ β} (hx : Blind g x s)
    (hf : ∀ a s', x s = (.done a, s') → Blind g (f a) s') : Blind g (x >>= f) s := by
  unfold Blind at hx ⊢
  rcases hrun : x s with ⟨a | e | _, t⟩ <;> rw [hrun] at hx
  · rw [bind_of_done hx, bind_of_done hrun]
    exact hf a t hrun
  · rw [bind_of_failed hx, bind_of_failed hrun]
  · rw [bind_of_aborted hx, bind_of_aborted hrun]

/-- What is done with the state that was read does not see a change if it is the same with it. -/
theorem blind_get_bind {f : σ → Action σ α} (hsame : f (g s) = f s) (hf : Blind g (f s) s) :
    Blind g (get >>= f) s := by
  rw [Blind, get_bind_apply, get_bind_apply, hsame]
  exact hf

/-- An attempt sees no more than what is attempted. -/
theorem Blind.attempt {x : Action σ α} (hx : Blind g x s) : Blind g x.attempt s := by
  rw [Blind, Action.attempt, hx]
  rfl

/-- An action on a part of the state sees no more of a change than what that does to the part. -/
theorem Blind.on {part : σ → τ} {put : τ → σ → σ} {x : Action τ α} (h : τ → τ)
    (hpart : part (g s) = h (part s)) (hput : ∀ t, put (h t) (g s) = g (put t s))
    (hx : Blind h x (part s)) : Blind g (x.on part put) s := by
  rw [Blind, Action.on, hpart, hx, hput]
  rfl

/-- Actions one after another do not see a change that none of them sees. -/
theorem blind_each {f : α → Action σ β} (hf : ∀ a s, Blind g (f a) s) (as : List α) (s : σ) :
    Blind g (each f as) s := by
  induction as generalizing s with
  | nil => exact blind_pure g [] s
  | cons a as ih =>
    change Blind g (f a >>= fun b => each f as >>= fun bs => Pure.pure (b :: bs)) s
    exact (hf a s).bind fun b t _ => (ih t).bind fun bs t' _ => blind_pure g (b :: bs) t'

end Blind

/-! ## Actions behind a view -/

/-- Behind a view of its state an action is another one: both end in the same way, and in states that
the view joins. -/
def Shows (view : σ → τ) (x : Action σ α) (y : Action τ α) : Prop :=
  ∀ s, y (view s) = ((x s).1, view (x s).2)

section Shows

variable {view : σ → τ}

/-- Returning is the same behind every view. -/
theorem shows_pure (view : σ → τ) (a : α) :
    Shows view (Pure.pure a : Action σ α) (Pure.pure a : Action τ α) :=
  fun _ => rfl

/-- A value that may be out of range is the same behind every view. -/
theorem shows_orAbort (view : σ → τ) (o : Option α) :
    Shows view (orAbort o : Action σ α) (orAbort o : Action τ α) := by
  cases o with
  | none => exact fun _ => rfl
  | some a => exact fun _ => rfl

/-- A sequence is the sequence of what its parts are behind the view. -/
theorem Shows.bind {x : Action σ α} {y : Action τ α} {f : α → Action σ β} {g : α → Action τ β}
    (hx : Shows view x y) (hf : ∀ a, Shows view (f a) (g a)) :
    Shows view (x >>= f) (y >>= g) := by
  intro s
  have hfirst := hx s
  rcases hrun : x s with ⟨a | e | _, t⟩ <;> rw [hrun] at hfirst
  · rw [bind_of_done hfirst, bind_of_done hrun]
    exact hf a t
  · rw [bind_of_failed hfirst, bind_of_failed hrun]
  · rw [bind_of_aborted hfirst, bind_of_aborted hrun]

/-- A context is the same behind every view. -/
theorem Shows.context {x : Action σ α} {y : Action τ α} (text : String) (hx : Shows view x y) :
    Shows view (x.context text) (y.context text) := by
  intro s
  rw [Action.context, Action.context, hx]

/-- Actions one after another are what each of them is behind the view. -/
theorem shows_each {f : α → Action σ β} {g : α → Action τ β} (hf : ∀ a, Shows view (f a) (g a))
    (as : List α) : Shows view (each f as) (each g as) := by
  induction as with
  | nil => exact shows_pure view []
  | cons a as ih =>
    change Shows view (f a >>= fun b => each f as >>= fun bs => Pure.pure (b :: bs))
      (g a >>= fun b => each g as >>= fun bs => Pure.pure (b :: bs))
    exact (hf a).bind fun b => ih.bind fun bs => shows_pure view (b :: bs)

end Shows

/-! ## What holds however an action ends -/

/-- Every run of an action leads from its state to one that a relation allows. -/
def Within (R : σ → σ → Prop) (x : Action σ α) : Prop :=
  ∀ s, R s (x s).2

variable {R : σ → σ → Prop}

/-- An outcome that is not a value has no effect on the rest of a sequence. -/
theorem snd_bind (x : Action σ α) (f : α → Action σ β) (s : σ) :
    ((x >>= f) s).2 = match (x s).1 with
      | .done a => (f a (x s).2).2
      | _ => (x s).2 := by
  change (Action.bind x f s).2 = _
  rw [Action.bind]
  rcases x s with ⟨_ | _ | _, t⟩ <;> rfl

/-- What holds after the first part of a sequence, should it stop there, and after its second part
holds after the sequence. -/
theorem snd_bind_of {P : σ → Prop} {x : Action σ α} {f : α → Action σ β} (hstop : P (x s).2)
    (hrest : ∀ a t, x s = (.done a, t) → P (f a t).2) : P ((x >>= f) s).2 := by
  rw [snd_bind]
  rcases hx : x s with ⟨a | e | _, t⟩
  · exact hrest a t hx
  · rwa [hx] at hstop
  · rwa [hx] at hstop

/-- What is done with the state that was read is a run from that state. -/
theorem within_get_bind {f : σ → Action σ α} (h : ∀ s, R s (f s s).2) : Within R (get >>= f) :=
  h

section Preorder

variable [IsPreorder σ R]

/-- Returning stays within every preorder. -/
theorem within_pure (a : α) : Within R (Pure.pure a : Action σ α) :=
  fun s => Std.Refl.refl (r := R) s

/-- Failing stays within every preorder. -/
theorem within_fail (e : Error) : Within R (fail e : Action σ α) :=
  fun s => Std.Refl.refl (r := R) s

/-- Being aborted stays within every preorder. -/
theorem within_abort : Within R (abort : Action σ α) :=
  fun s => Std.Refl.refl (r := R) s

/-- Reading the state stays within every preorder. -/
theorem within_get : Within R (get : Action σ σ) :=
  fun s => Std.Refl.refl (r := R) s

/-- A value that may be out of range stays within every preorder. -/
theorem within_orAbort (o : Option α) : Within R (orAbort o : Action σ α) := by
  cases o with
  | none => exact within_abort
  | some a => exact within_pure a

/-- A sequence stays within a preorder if its parts do. -/
theorem Within.bind {x : Action σ α} {f : α → Action σ β} (hx : Within R x)
    (hf : ∀ a, Within R (f a)) : Within R (x >>= f) := by
  intro s
  have hfirst : R s (x s).2 := hx s
  rw [snd_bind]
  split
  · exact IsTrans.trans (r := R) _ _ _ hfirst (hf _ _)
  · exact hfirst

/-- An action for each element of a list stays within a preorder if each of them does. -/
theorem within_each {f : α → Action σ β} {as : List α} (hf : ∀ a ∈ as, Within R (f a)) :
    Within R (each f as) := by
  induction as with
  | nil => exact within_pure []
  | cons a as ih =>
    have hfirst := hf a List.mem_cons_self
    have hrest := ih fun b hb => hf b (List.mem_cons_of_mem _ hb)
    change Within R (f a >>= fun b => each f as >>= fun bs => Pure.pure (b :: bs))
    exact hfirst.bind fun b => hrest.bind fun bs => within_pure (b :: bs)

end Preorder

/-- An action on a part of the state stays within what the part's relation becomes on the whole. -/
theorem Within.on {Q : τ → τ → Prop} {part : σ → τ} {put : τ → σ → σ} {x : Action τ α}
    (hx : Within Q x) (hput : ∀ s t, Q (part s) t → R s (put t s)) :
    Within R (x.on part put) :=
  fun s => hput s _ (hx (part s))

/-- An action with a context does to the state what it does without. -/
theorem Within.context {x : Action σ α} (hx : Within R x) (text : String) :
    Within R (x.context text) :=
  hx

/-- What stays within a relation stays within a wider one. -/
theorem Within.mono {S : σ → σ → Prop} {x : Action σ α} (hx : Within R x)
    (hRS : ∀ s t, R s t → S s t) : Within S x :=
  fun s => hRS _ _ (hx s)

/-! ## Actions that do not fail -/

/-- On a state an action is done, unless it is aborted for a reason. -/
def DoneUnless (reason : Prop) (x : Action σ α) (s : σ) : Prop :=
  (∃ a s', x s = (.done a, s')) ∨ (x s).1 = .aborted ∧ reason

variable {reason : Prop}

/-- An action that is done is done without a reason to be aborted. -/
theorem doneUnless_of_done {x : Action σ α} {a : α} (h : x s = (.done a, s')) :
    DoneUnless reason x s :=
  .inl ⟨a, s', h⟩

/-- What may be out of range is aborted then. -/
theorem doneUnless_orAbort (o : Option α) (s : σ) : DoneUnless (o = none) (orAbort o) s := by
  cases o with
  | none => exact .inr ⟨rfl, rfl⟩
  | some a => exact doneUnless_of_done rfl

/-- A reason may be replaced by what follows from it. -/
theorem DoneUnless.mono {x : Action σ α} {other : Prop} (h : DoneUnless reason x s)
    (hother : reason → other) : DoneUnless other x s :=
  h.imp_right (And.imp_right hother)

/-- After an action that is done the next one decides. -/
theorem doneUnless_bind_of_done {x : Action σ α} {f : α → Action σ β} {a : α}
    (h : x s = (.done a, s')) (hf : DoneUnless reason (f a) s') :
    DoneUnless reason (x >>= f) s := by
  unfold DoneUnless
  rw [bind_of_done h]
  exact hf

/-- Actions one after another are done unless one of them is aborted for the reason. -/
theorem DoneUnless.bind {x : Action σ α} {f : α → Action σ β} (hx : DoneUnless reason x s)
    (hf : ∀ a s', x s = (.done a, s') → DoneUnless reason (f a) s') :
    DoneUnless reason (x >>= f) s := by
  rcases hx with ⟨a, s', hdone⟩ | ⟨haborted, hreason⟩
  · exact doneUnless_bind_of_done hdone (hf a s' hdone)
  · have hall : (x >>= f) s = (.aborted, (x s).2) := bind_of_aborted (Prod.ext haborted rfl)
    exact .inr ⟨congrArg Prod.fst hall, hreason⟩

/-- An action on a part of the state is done as it is on that. -/
theorem DoneUnless.on (part : σ → τ) (put : τ → σ → σ) {x : Action τ α}
    (h : DoneUnless reason x (part s)) : DoneUnless reason (x.on part put) s := by
  rcases h with ⟨a, t, hdone⟩ | ⟨haborted, hreason⟩
  · exact doneUnless_of_done (on_apply_of hdone)
  · refine .inr ⟨?_, hreason⟩
    rw [Action.on]
    exact haborted

end Action

end Salvage
