import Mathlib.Algebra.Ring.Int.Defs
import Salvage.Proofs.Lists
import Salvage.Text.Decimal

/-!
# What a decimal integer is

An integer is written as an optional sign and one or more ASCII digits, any number of them zeros at the
start. `readInt_eq_ok_iff` says that the reader takes exactly such texts, as the integers they denote,
and refuses only what is out of its range. So a value that leaves the range on the way through the digits
never comes back into it.
-/

namespace Salvage.Text

/-- A text denotes an integer. -/
inductive Denotes : List Char → Int → Prop
  | plain {ds : List Char} : ds ≠ [] → (∀ c ∈ ds, c.isDigit) → Denotes ds (Nat.ofDigitChars 10 ds 0)
  | plus {ds : List Char} : ds ≠ [] → (∀ c ∈ ds, c.isDigit) →
      Denotes ('+' :: ds) (Nat.ofDigitChars 10 ds 0)
  | minus {ds : List Char} : ds ≠ [] → (∀ c ∈ ds, c.isDigit) →
      Denotes ('-' :: ds) (-(Nat.ofDigitChars 10 ds 0 : Int))

variable {cs ds : List Char} {max n m : Nat} {c : Char} {r : IntRange}

/-! ## Digits -/

/-- A digit has its value. -/
theorem digit?_of_isDigit (h : c.isDigit) : digit? c = some (c.toNat - '0'.toNat) := by
  rw [Char.isDigit, Bool.and_eq_true, decide_eq_true_eq, decide_eq_true_eq] at h
  exact if_pos h

/-- Any other character has none. -/
theorem digit?_of_not_isDigit (h : ¬ c.isDigit) : digit? c = none := by
  rw [Char.isDigit, Bool.and_eq_true, decide_eq_true_eq, decide_eq_true_eq] at h
  exact if_neg h

/-- Digits behind a value do not make it smaller. -/
theorem le_ofDigitChars (cs : List Char) (n : Nat) : n ≤ Nat.ofDigitChars 10 cs n := by
  induction cs generalizing n with
  | nil => exact Nat.le_refl n
  | cons c cs ih =>
    rw [Nat.ofDigitChars_cons]
    exact Nat.le_trans (by omega) (ih _)

/-- Digits are read upwards when the whole value is within the bound. -/
theorem readUp_eq_ok_iff (hn : n ≤ max) :
    readUp max n cs = .ok m ↔
      (∀ c ∈ cs, c.isDigit) ∧ m = Nat.ofDigitChars 10 cs n ∧ m ≤ max := by
  induction cs generalizing n with
  | nil =>
    rw [readUp, Except.ok.injEq, Nat.ofDigitChars_nil]
    constructor
    · rintro rfl
      exact ⟨by simp, rfl, hn⟩
    · exact fun h => h.2.1.symm
  | cons c cs ih =>
    rw [readUp, Nat.ofDigitChars_cons, List.forall_mem_cons, Nat.mul_comm 10 n]
    by_cases hdigit : c.isDigit
    · rw [digit?_of_isDigit hdigit]
      dsimp only
      split
      · rename_i hle
        rw [ih hle]
        simp [hdigit]
      · rename_i hgt
        -- the value only grows from here
        have hgrows := le_ofDigitChars cs (n * 10 + (c.toNat - '0'.toNat))
        refine iff_of_false (by simp) fun h => ?_
        obtain ⟨_, rfl, hle⟩ := h
        exact hgt (Nat.le_trans hgrows hle)
    · rw [digit?_of_not_isDigit hdigit]
      simp [hdigit]

/-- Downwards the same digits are read, to the same value. -/
theorem readDown_eq_ok_iff : readDown max n cs = .ok m ↔ readUp max n cs = .ok m := by
  induction cs generalizing n with
  | nil => exact Iff.rfl
  | cons c cs ih =>
    rw [readDown, readUp]
    cases digit? c with
    | none => exact Iff.rfl
    | some d =>
      dsimp only
      split
      · exact ih
      · simp

/-! ## Signs -/

/-- What a text with a plus sign denotes. -/
theorem denotes_plus_iff {i : Int} :
    Denotes ('+' :: ds) i ↔ ds ≠ [] ∧ (∀ c ∈ ds, c.isDigit) ∧ i = Nat.ofDigitChars 10 ds 0 := by
  constructor
  · intro h
    cases h with
    | plain _ hdigits => exact absurd (hdigits '+' List.mem_cons_self) (by decide)
    | plus hne hdigits => exact ⟨hne, hdigits, rfl⟩
  · rintro ⟨hne, hdigits, rfl⟩
    exact .plus hne hdigits

/-- What a text with a minus sign denotes. -/
theorem denotes_minus_iff {i : Int} :
    Denotes ('-' :: ds) i ↔
      ds ≠ [] ∧ (∀ c ∈ ds, c.isDigit) ∧ i = -(Nat.ofDigitChars 10 ds 0 : Int) := by
  constructor
  · intro h
    cases h with
    | plain _ hdigits => exact absurd (hdigits '-' List.mem_cons_self) (by decide)
    | minus hne hdigits => exact ⟨hne, hdigits, rfl⟩
  · rintro ⟨hne, hdigits, rfl⟩
    exact .minus hne hdigits

/-- What a text without a sign denotes. -/
theorem denotes_plain_iff {i : Int} (hplus : ∀ ds, cs ≠ '+' :: ds) (hminus : ∀ ds, cs ≠ '-' :: ds) :
    Denotes cs i ↔ cs ≠ [] ∧ (∀ c ∈ cs, c.isDigit) ∧ i = Nat.ofDigitChars 10 cs 0 := by
  constructor
  · intro h
    cases h with
    | plain hne hdigits => exact ⟨hne, hdigits, rfl⟩
    | plus => exact absurd rfl (hplus _)
    | minus => exact absurd rfl (hminus _)
  · rintro ⟨hne, hdigits, rfl⟩
    exact .plain hne hdigits

/-- Digits are read as a number of a range when their value is in it. -/
theorem map_readUp_eq_ok_iff {i : Int} :
    (readUp r.above 0 ds).map Int.ofNat = .ok i ↔
      ((∀ c ∈ ds, c.isDigit) ∧ i = Nat.ofDigitChars 10 ds 0) ∧ r.contains i := by
  simp only [map_eq_ok, readUp_eq_ok_iff (Nat.zero_le _), IntRange.contains, decide_eq_true_eq]
  constructor
  · rintro ⟨m, ⟨hdigits, rfl, hle⟩, rfl⟩
    exact ⟨⟨hdigits, rfl⟩, by simp only [Int.ofNat_eq_natCast]; omega⟩
  · rintro ⟨⟨hdigits, rfl⟩, -, hle⟩
    exact ⟨_, ⟨hdigits, rfl, Int.ofNat_le.1 hle⟩, rfl⟩

/-- Digits behind a minus sign are read when the negative of their value is in the range. -/
theorem map_readDown_eq_ok_iff {i : Int} :
    ((readDown r.below 0 ds).map fun n => -(n : Int)) = .ok i ↔
      ((∀ c ∈ ds, c.isDigit) ∧ i = -(Nat.ofDigitChars 10 ds 0 : Int)) ∧ r.contains i := by
  have hread : ((readDown r.below 0 ds).map fun n => -(n : Int)) = .ok i ↔
      ∃ m : Nat, readDown r.below 0 ds = .ok m ∧ -(m : Int) = i := by
    cases readDown r.below 0 ds with
    | error => exact iff_of_false (fun h => nomatch h) fun ⟨_, h, _⟩ => nomatch h
    | ok m => simp [Except.map, Bind.bind, Except.bind, Pure.pure, Except.pure]
  rw [hread]
  simp only [readDown_eq_ok_iff, readUp_eq_ok_iff (Nat.zero_le _), IntRange.contains,
    decide_eq_true_eq]
  constructor
  · rintro ⟨m, ⟨hdigits, rfl, hle⟩, rfl⟩
    exact ⟨⟨hdigits, rfl⟩, by omega⟩
  · rintro ⟨⟨hdigits, rfl⟩, hle, -⟩
    exact ⟨_, ⟨hdigits, rfl, by omega⟩, rfl⟩

/-- The integers of 64 bits are those from `-2 ^ 63` to `2 ^ 63 - 1`. -/
theorem IntRange.contains_bits64_iff {i : Int} :
    bits64.contains i ↔ -2 ^ 63 ≤ i ∧ i ≤ 2 ^ 63 - 1 := by
  have hbelow : (bits64.below : Int) = 2 ^ 63 := by decide
  have habove : (bits64.above : Int) = 2 ^ 63 - 1 := by decide
  rw [contains, decide_eq_true_eq, hbelow, habove]

/-- An integer of a range that goes below zero is read from exactly the texts that denote it. -/
theorem readInt_eq_ok_iff (hbelow : 0 < r.below) {i : Int} :
    readInt r cs = .ok i ↔ Denotes cs i ∧ r.contains i := by
  have hlow : r.below ≠ 0 := Nat.ne_of_gt hbelow
  unfold readInt
  split
  · rw [denotes_plain_iff (by simp) (by simp)]
    simp
  · simp [denotes_plus_iff]
  · simp [denotes_minus_iff]
  · rename_i hne
    rw [map_readUp_eq_ok_iff, denotes_plus_iff, and_iff_right hne]
  · rename_i hne
    rw [if_neg hlow, denotes_minus_iff, and_iff_right hne]
    exact map_readDown_eq_ok_iff
  · rename_i hne _ _ hplus hminus
    rw [map_readUp_eq_ok_iff, denotes_plain_iff hplus hminus, and_iff_right hne]

end Salvage.Text
