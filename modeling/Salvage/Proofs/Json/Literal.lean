import Mathlib.Tactic.SplitIfs
import Salvage.Json.Printer
import Salvage.Json.Reader
import Salvage.Proofs.Text.Decimal

/-!
# Literals that are read as they were printed

A printed string literal ends at its closing quote, and a printed integer where no digit follows, so
what comes behind a literal does not matter. `scanText_printText` and `scanNumeral_toDigits` say
that the scanners take exactly the literal and make of it what was printed: every character, and all
digits.
-/

namespace Salvage.Json

/-! ## String literals -/

/-- Hexadecimal digits of numbers below sixteen have their values. -/
theorem hexValue?_hexChar {n : Nat} (h : n < 16) : Text.hexValue? (hexChar n) = some n := by
  have hall : ∀ m ∈ List.range 16, Text.hexValue? (hexChar m) = some m := by decide
  exact hall n (List.mem_range.2 h)

/-- Four digits of a code unit below the space stand for a control character. -/
theorem scanText_unit {n : Nat} (h : n < 0x20) (rest : List Char) :
    scanText (.unit 0 4 none) ('0' :: '0' :: hexChar (n / 16) :: hexChar (n % 16) :: rest) =
      Scanned.push (Char.ofNat n) (scanText .plain rest) := by
  have hzero : Text.hexValue? '0' = some 0 := by decide
  have hhigh : Text.hexValue? (hexChar (n / 16)) = some (n / 16) := hexValue?_hexChar (by omega)
  have hlow : Text.hexValue? (hexChar (n % 16)) = some (n % 16) := hexValue?_hexChar (by omega)
  have hvalue : n / 16 * 16 + n % 16 = n := by omega
  have hfirst : isFirstHalf n = false := decide_eq_false (by omega)
  have hsecond : isSecondHalf n = false := decide_eq_false (by omega)
  simp [scanText, hzero, hhigh, hlow, hvalue, hfirst, hsecond]

/-- A printed character is scanned as that character. -/
theorem scanText_escapedChar (c : Char) (rest : List Char) :
    scanText .plain (escapedChar c ++ rest) = Scanned.push c (scanText .plain rest) := by
  unfold escapedChar
  split_ifs with hself hback hform hline hreturn htab hcontrol
  · rcases hself with rfl | rfl <;> rfl
  · rw [hback]
    rfl
  · rw [hform]
    rfl
  · rw [hline]
    rfl
  · rw [hreturn]
    rfl
  · rw [htab]
    rfl
  · have hunit := scanText_unit hcontrol rest
    rw [Char.ofNat_toNat] at hunit
    exact hunit
  · obtain ⟨hquote, hbackslash⟩ := not_or.1 hself
    simp [scanText, hquote, hbackslash, hcontrol]

/-- A printed string literal is scanned as its text, up to its closing quote. -/
theorem scanText_printText (cs rest : List Char) :
    scanText .plain (cs.flatMap escapedChar ++ '"' :: rest) = .ok (cs, rest) := by
  induction cs with
  | nil => rfl
  | cons c cs ih =>
    rw [List.flatMap_cons, List.append_assoc, scanText_escapedChar, ih]
    rfl

/-! ## Integers -/

/-- The digits that some characters stand for. -/
def digitsOf (cs : List Char) : List Nat :=
  cs.map fun c => c.toNat - '0'.toNat

/-- Digits are scanned up to where no digit follows. -/
theorem scanDigits_append {cs rest : List Char} (hdigits : ∀ c ∈ cs, c.isDigit)
    (hrest : ∀ c ∈ rest.head?, Text.digit? c = none) :
    scanDigits (cs ++ rest) = (digitsOf cs, rest) := by
  induction cs with
  | nil =>
    cases rest with
    | nil => rfl
    | cons c rest =>
      rw [List.nil_append, scanDigits, hrest c rfl]
      rfl
  | cons c cs ih =>
    obtain ⟨hdigit, hothers⟩ := List.forall_mem_cons.1 hdigits
    rw [List.cons_append, scanDigits, Text.digit?_of_isDigit hdigit]
    dsimp only
    rw [ih hothers]
    rfl

/-- The digits of a number stand for it. -/
theorem ofDigits_toDigits (n : Nat) : ofDigits (digitsOf (Nat.toDigits 10 n)) = n := by
  have hvalue : ofDigits (digitsOf (Nat.toDigits 10 n)) =
      Nat.ofDigitChars 10 (Nat.toDigits 10 n) 0 := by
    rw [ofDigits, digitsOf, List.foldl_map, Nat.ofDigitChars_eq_foldl]
    simp only [Nat.mul_comm]
  rw [hvalue, Nat.ofDigitChars_ten_toDigits]

/-- Digits behind a number do not make it smaller. -/
theorem le_foldl_digits (ds : List Nat) (n : Nat) :
    n ≤ ds.foldl (fun n d => n * 10 + d) n := by
  induction ds generalizing n with
  | nil => exact Nat.le_refl n
  | cons d ds ih => exact Nat.le_trans (by omega) (ih (n * 10 + d))

/-- All digits of a number that fits 64 bits are taken. -/
theorem takeDigits_of_lt {ds : List Nat} {n : Nat}
    (h : ds.foldl (fun n d => n * 10 + d) n < Nat.pow 2 64) :
    takeDigits n ds = (ds.foldl (fun n d => n * 10 + d) n, []) := by
  induction ds generalizing n with
  | nil => rfl
  | cons d ds ih =>
    rw [List.foldl_cons] at h
    rw [takeDigits, if_pos (Nat.lt_of_le_of_lt (le_foldl_digits ds _) h), ih h, List.foldl_cons]

/-- A number that is not zero is printed without a leading zero. -/
theorem exists_toDigits_eq_cons {n : Nat} (h : n ≠ 0) :
    ∃ c cs, Nat.toDigits 10 n = c :: cs ∧ c.toNat - '0'.toNat ≠ 0 := by
  induction n using Nat.strongRecOn with
  | ind n ih =>
    rw [Nat.toDigits_eq_if (by decide)]
    split
    · rename_i hlt
      refine ⟨_, [], rfl, ?_⟩
      rw [Nat.toNat_digitChar_of_lt_ten hlt]
      change 48 + n - 48 ≠ 0
      omega
    · obtain ⟨c, cs, hdigits, hc⟩ := ih (n / 10) (by omega) (by omega)
      rw [hdigits]
      exact ⟨c, _, rfl, hc⟩

/-- The whole part of a numeral is scanned as the digits of the number that was printed. -/
theorem scanWhole_toDigits (n : Nat) {rest : List Char}
    (hrest : ∀ c ∈ rest.head?, Text.digit? c = none) :
    scanWhole (Nat.toDigits 10 n ++ rest) = .ok (digitsOf (Nat.toDigits 10 n), rest) := by
  have hdigits : ∀ c ∈ Nat.toDigits 10 n, c.isDigit :=
    fun c => Nat.isDigit_of_mem_toDigits (by decide) (by decide)
  by_cases hzero : n = 0
  · subst hzero
    have hnone : rest.head?.bind Text.digit? = none := Option.bind_eq_none_iff.2 hrest
    have hdigit : Text.digit? '0' = some 0 := by decide
    rw [Nat.toDigits_zero, List.cons_append, List.nil_append, scanWhole, hdigit, hnone]
    rfl
  · obtain ⟨c, cs, hcons, hlead⟩ := exists_toDigits_eq_cons hzero
    rw [hcons] at hdigits ⊢
    obtain ⟨hdigit, hothers⟩ := List.forall_mem_cons.1 hdigits
    obtain ⟨d, hd⟩ := Nat.exists_eq_succ_of_ne_zero hlead
    have hvalues : digitsOf (c :: cs) = (d + 1) :: digitsOf cs := by
      rw [digitsOf, List.map_cons, hd]
      rfl
    rw [List.cons_append, scanWhole, Text.digit?_of_isDigit hdigit, hd, hvalues,
      scanDigits_append hothers hrest]
    rfl

/-- No numeral goes on here: a text is at its end, or a bracket or comma follows. -/
def Ends (cs : List Char) : Prop :=
  ∀ c ∈ cs.head?, c = ',' ∨ c = ']' ∨ c = '\x7d'

/-- Where a value ends, no digit follows. -/
theorem Ends.no_digit {cs : List Char} (h : Ends cs) :
    ∀ c ∈ cs.head?, Text.digit? c = none := by
  intro c hc
  rcases h c hc with rfl | rfl | rfl <;> decide

/-- The digits of a number are scanned as a numeral without fraction and exponent. -/
theorem scanNumeral_toDigits (negative : Bool) (n : Nat) {rest : List Char} (hrest : Ends rest) :
    scanNumeral negative (Nat.toDigits 10 n ++ rest) =
      .ok (⟨negative, digitsOf (Nat.toDigits 10 n), [], none⟩, rest) := by
  have hfraction : scanFraction rest = .ok ([], rest) := by
    cases rest with
    | nil => rfl
    | cons c rest => rcases hrest c rfl with rfl | rfl | rfl <;> rfl
  have hexponent : scanExponent? rest = .ok (none, rest) := by
    cases rest with
    | nil => rfl
    | cons c rest => rcases hrest c rfl with rfl | rfl | rfl <;> rfl
  simp only [scanNumeral, scanWhole_toDigits n hrest.no_digit, hfraction, hexponent, bind,
    Except.bind]
  rfl

/-- The digits of a number that fits 64 bits are the integer that was printed. -/
theorem integer?_toDigits {negative : Bool} {n : Nat} (hn : n < Nat.pow 2 64)
    (hnegative : negative → 0 < n ∧ n ≤ Nat.pow 2 63) :
    Numeral.integer? ⟨negative, digitsOf (Nat.toDigits 10 n), [], none⟩ =
      some (if negative then -(n : Int) else n) := by
  have hvalue : (digitsOf (Nat.toDigits 10 n)).foldl (fun n d => n * 10 + d) 0 = n :=
    ofDigits_toDigits n
  have htaken : takeDigits 0 (digitsOf (Nat.toDigits 10 n)) = (n, []) := by
    rw [takeDigits_of_lt (hvalue.symm ▸ hn), hvalue]
  cases negative with
  | false => simp [Numeral.integer?, htaken]
  | true => simp [Numeral.integer?, htaken, hnegative rfl]

end Salvage.Json
