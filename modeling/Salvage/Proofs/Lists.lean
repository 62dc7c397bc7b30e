import Mathlib.Data.List.Forall2
import Mathlib.Data.List.Nodup
import Mathlib.Logic.Relation

/-!
# Lists in step

Two lists are in step when they are as long as each other and each element of the one goes with the
element of the other at its place. What is known of the elements, or found among those of one list,
carries over to the other. A list is in step with what is made of each of its elements.
-/

namespace Salvage

open List (Forall₂)

variable {α : Type} {R S : α → α → Prop} {as bs cs : List α}

/-- Relations between lists in step compose. -/
theorem forall₂_comp (h : Forall₂ R as bs) (h' : Forall₂ S bs cs) :
    Forall₂ (Relation.Comp R S) as cs := by
  induction h generalizing cs with
  | nil =>
    rw [List.forall₂_nil_left_iff.1 h']
    exact .nil
  | cons hab _ ih =>
    obtain ⟨c, cs, hbc, hrest, rfl⟩ := List.forall₂_cons_left_iff.1 h'
    exact .cons ⟨_, hab, hbc⟩ (ih hrest)

/-- A relation between lists in step has to be known for the elements of the first only. -/
theorem forall₂_imp_of_mem {β : Type} {R S : α → β → Prop} {bs : List β} (h : Forall₂ R as bs)
    (hRS : ∀ a ∈ as, ∀ b, R a b → S a b) : Forall₂ S as bs := by
  induction h with
  | nil => exact .nil
  | cons hab _ ih =>
    exact .cons (hRS _ List.mem_cons_self _ hab) (ih fun a ha => hRS a (List.mem_cons_of_mem _ ha))

/-- An element of the first of two lists in step goes with one of the second. -/
theorem exists_of_mem_left {β : Type} {R : α → β → Prop} {bs : List β} (h : Forall₂ R as bs)
    {a : α} (ha : a ∈ as) : ∃ b ∈ bs, R a b := by
  induction h with
  | nil => cases ha
  | cons hab _ ih =>
    rcases List.mem_cons.1 ha with rfl | hrest
    · exact ⟨_, List.mem_cons_self, hab⟩
    · obtain ⟨b, hb, hrel⟩ := ih hrest
      exact ⟨b, List.mem_cons_of_mem _ hb, hrel⟩

/-- An element of the second of two lists in step goes with one of the first. -/
theorem exists_of_mem_right {β : Type} {R : α → β → Prop} {bs : List β} (h : Forall₂ R as bs)
    {b : β} (hb : b ∈ bs) : ∃ a ∈ as, R a b :=
  exists_of_mem_left h.flip hb

/-- What lists in step agree on is the same list. -/
theorem map_eq_of_forall₂ {β : Type} {f : α → β} (h : Forall₂ R as bs)
    (hf : ∀ a b, R a b → f b = f a) : bs.map f = as.map f := by
  induction h with
  | nil => rfl
  | cons hab _ ih => rw [List.map_cons, List.map_cons, hf _ _ hab, ih]

/-- What is found in the first of two lists in step goes with what is found in the second. -/
theorem find?_of_forall₂ {β : Type} {R : α → β → Prop} {bs : List β} (h : Forall₂ R as bs)
    {f : α → Bool} {g : β → Bool} (hfg : ∀ a b, R a b → g b = f a) {a : α}
    (ha : as.find? f = some a) : ∃ b, bs.find? g = some b ∧ R a b := by
  induction h with
  | nil => cases ha
  | @cons a' b' as bs hab _ ih =>
    rw [List.find?_cons] at ha ⊢
    rw [hfg a' b' hab]
    split at ha
    · exact ⟨b', rfl, Option.some.inj ha ▸ hab⟩
    · exact ih ha

/-- Whether there is an element that fits is the same for lists in step. -/
theorem any_eq_of_forall₂ (h : Forall₂ R as bs) {f g : α → Bool} (hfg : ∀ a b, R a b → g b = f a) :
    bs.any g = as.any f := by
  induction h with
  | nil => rfl
  | cons hab _ ih => rw [List.any_cons, List.any_cons, hfg _ _ hab, ih]

/-- With different keys, looking for the key of an element finds the element. -/
theorem find?_key {κ : Type} [BEq κ] [LawfulBEq κ] {key : α → κ} (hk : (as.map key).Nodup) {a : α}
    (ha : a ∈ as) : (as.find? fun b => key b == key a) = some a := by
  induction as with
  | nil => simp at ha
  | cons b bs ih =>
    rw [List.map_cons, List.nodup_cons] at hk
    rcases List.mem_cons.1 ha with rfl | hrest
    · simp
    · have hne : key b ≠ key a := fun he => hk.1 (he ▸ List.mem_map_of_mem hrest)
      rw [List.find?_cons_of_neg (by simpa using hne)]
      exact ih hk.2 hrest

/-- Lists in step stay in step without their last elements. -/
theorem forall₂_dropLast {β : Type} {R : α → β → Prop} {bs : List β} (h : Forall₂ R as bs) :
    Forall₂ R as.dropLast bs.dropLast := by
  rw [List.dropLast_eq_take, List.dropLast_eq_take, ← h.length_eq]
  exact List.forall₂_take _ h

/-- What precedes the last of two lists is in the first, or precedes the last of the second. -/
theorem mem_dropLast_append {a : α} (h : a ∈ (as ++ bs).dropLast) : a ∈ as ∨ a ∈ bs.dropLast := by
  by_cases hbs : bs = []
  · rw [hbs, List.append_nil] at h
    exact .inl (List.dropLast_subset as h)
  · rw [List.dropLast_append_of_ne_nil hbs] at h
    exact List.mem_append.1 h

/-- An element is the last one, or precedes it. -/
theorem mem_dropLast_or_last {a : α} (h : a ∈ as) : a ∈ as.dropLast ∨ as.getLast? = some a := by
  have hne : as ≠ [] := List.ne_nil_of_mem h
  rw [← List.dropLast_append_getLast hne, List.mem_append, List.mem_singleton] at h
  rw [List.getLast?_eq_some_getLast hne]
  exact h.imp_right fun hlast => congrArg some hlast.symm

/-- A result that depends on another one is there when both are. -/
theorem bind_eq_ok {ε β γ : Type} {x : Except ε β} {f : β → Except ε γ} {c : γ} :
    (x >>= f) = .ok c ↔ ∃ b, x = .ok b ∧ f b = .ok c := by
  cases x with
  | error e => simp [Bind.bind, Except.bind]
  | ok b => simp [Bind.bind, Except.bind]

/-- A result that depends on another one fails when that one does or with what is made of it. -/
theorem bind_eq_error {ε β γ : Type} {x : Except ε β} {f : β → Except ε γ} {e : ε} :
    (x >>= f) = .error e ↔ x = .error e ∨ ∃ b, x = .ok b ∧ f b = .error e := by
  cases x with
  | error e' => simp [Bind.bind, Except.bind]
  | ok b => simp [Bind.bind, Except.bind]

/-- A changed result is there when the result is. -/
theorem map_eq_ok {ε β γ : Type} {x : Except ε β} {f : β → γ} {c : γ} :
    x.map f = .ok c ↔ ∃ b, x = .ok b ∧ f b = c := by
  cases x with
  | error e => simp [Except.map]
  | ok b => simp [Except.map]

/-- A result is there under any wording of what goes wrong. -/
theorem mapError_eq_ok {ε ε' β : Type} {x : Except ε β} {f : ε → ε'} {b : β} :
    x.mapError f = .ok b ↔ x = .ok b := by
  cases x with
  | error e => exact iff_of_false (fun h => nomatch h) fun h => nomatch h
  | ok b' => exact ⟨fun h => congrArg _ (Except.ok.inj h), fun h => congrArg _ (Except.ok.inj h)⟩

/-- What is made of each element of a list is there when it is for each of them. -/
theorem mapM_eq_ok_iff {ε β : Type} {f : α → Except ε β} {bs : List β} :
    as.mapM f = .ok bs ↔ Forall₂ (fun a b => f a = .ok b) as bs := by
  induction as generalizing bs with
  | nil =>
    rw [List.mapM_nil, List.forall₂_nil_left_iff]
    exact ⟨fun h => (Except.ok.inj h).symm, fun h => h ▸ rfl⟩
  | cons a as ih =>
    rw [List.mapM_cons, List.forall₂_cons_left_iff, bind_eq_ok]
    refine exists_congr fun b => ?_
    rw [bind_eq_ok]
    constructor
    · rintro ⟨hfirst, others, hrest, hwhole⟩
      exact ⟨others, hfirst, ih.1 hrest, (Except.ok.inj hwhole).symm⟩
    · rintro ⟨others, hfirst, hrest, rfl⟩
      exact ⟨hfirst, others, ih.2 hrest, rfl⟩

/-- What is made of each element of a list fails exactly as it does for the first one for which it
fails. -/
theorem mapM_eq_error_iff {ε β : Type} {f : α → Except ε β} {e : ε} :
    as.mapM f = .error e ↔ ∃ before a after, as = before ++ a :: after ∧
      (∀ b ∈ before, ∃ c, f b = .ok c) ∧ f a = .error e := by
  induction as with
  | nil =>
    refine iff_of_false (fun h => nomatch h) ?_
    rintro ⟨before, a, after, hsplit, -⟩
    exact List.append_ne_nil_of_right_ne_nil before (List.cons_ne_nil a after) hsplit.symm
  | cons first as ih =>
    rw [List.mapM_cons, bind_eq_error]
    constructor
    · rintro (herror | ⟨c, hfirst, hrest⟩)
      · exact ⟨[], first, as, rfl, fun _ hb => (List.not_mem_nil hb).elim, herror⟩
      · obtain hrest | ⟨_, -, hdone⟩ := bind_eq_error.1 hrest
        · obtain ⟨before, a, after, rfl, hbefore, herror⟩ := ih.1 hrest
          refine ⟨first :: before, a, after, rfl, ?_, herror⟩
          exact List.forall_mem_cons.2 ⟨⟨c, hfirst⟩, hbefore⟩
        · cases hdone
    · rintro ⟨before, a, after, hsplit, hbefore, herror⟩
      cases before with
      | nil =>
        obtain ⟨rfl, rfl⟩ := List.cons.inj hsplit
        exact .inl herror
      | cons b before =>
        obtain ⟨rfl, rfl⟩ := List.cons.inj hsplit
        obtain ⟨⟨c, hfirst⟩, hothers⟩ := List.forall_mem_cons.1 hbefore
        have hrest := ih.2 ⟨before, a, after, rfl, hothers, herror⟩
        exact .inr ⟨c, hfirst, bind_eq_error.2 (.inl hrest)⟩

end Salvage
