import Salvage.Text.Percent

/-!
# Percent signs that stand for themselves

An encoder that leaves the percent sign plain cannot be undone everywhere: what was meant as a percent
sign and two digits reads as one byte. `percentDecode_percentEncode` says that such an encoder makes no
difference to the reader, which finds in what is written the bytes that it finds in the text itself, and
`percentDecode_eq_utf8_iff` that these are the bytes of the text exactly when it has no escape in it.
-/

namespace Salvage.Text

/-- Two hexadecimal digits at the start of a text: the byte they stand for, and what follows them. -/
def digitPair? : List Char → Option (UInt8 × List Char)
  | a :: b :: cs => do
    let m ← hexValue? a
    let n ← hexValue? b
    return (UInt8.ofNat (m * 16 + n), cs)
  | _ => none

/-- Whether a percent sign with two hexadecimal digits behind it is in a text. -/
def hasEscape : List Char → Bool
  | [] => false
  | c :: cs => (c = '%' && (digitPair? cs).isSome) || hasEscape cs

variable {plain : Char → Bool} {c : Char} {cs rest : List Char} {b : UInt8}

/-- A pair of digits stands in front of the rest. -/
theorem digitPair?_eq_some_iff :
    digitPair? cs = some (b, rest) ↔
      ∃ x y m n, cs = x :: y :: rest ∧ hexValue? x = some m ∧ hexValue? y = some n ∧
        b = UInt8.ofNat (m * 16 + n) := by
  unfold digitPair?
  split
  · rename_i x y cs
    simp only [Option.bind_eq_bind, Option.bind_eq_some_iff, Option.pure_def, Option.some.injEq,
      Prod.mk.injEq, List.cons.injEq]
    constructor
    · rintro ⟨m, hm, n, hn, rfl, rfl⟩
      exact ⟨x, y, m, n, ⟨rfl, rfl, rfl⟩, hm, hn, rfl⟩
    · rintro ⟨_, _, m, n, ⟨rfl, rfl, rfl⟩, hm, hn, rfl⟩
      exact ⟨m, hm, n, hn, rfl, rfl⟩
  · rename_i hshort
    refine iff_of_false (fun h => nomatch h) ?_
    rintro ⟨x, y, _, _, rfl, -⟩
    exact hshort x y rest rfl

/-- A pair takes two characters. -/
theorem length_of_digitPair? (h : digitPair? cs = some (b, rest)) :
    cs.length = rest.length + 2 := by
  obtain ⟨x, y, m, n, rfl, -⟩ := digitPair?_eq_some_iff.1 h
  rfl

/-! ## Reading a percent sign -/

/-- A percent sign in front of two digits is read with them. -/
theorem percentDecode_percent_pair (h : digitPair? cs = some (b, rest)) :
    percentDecode ('%' :: cs) = b :: percentDecode rest := by
  obtain ⟨x, y, m, n, rfl, hx, hy, rfl⟩ := digitPair?_eq_some_iff.1 h
  rw [percentDecode, hx, hy]

/-- A percent sign in front of anything else is read as itself. -/
theorem percentDecode_percent_alone (h : digitPair? cs = none) :
    percentDecode ('%' :: cs) = String.utf8EncodeChar '%' ++ percentDecode cs := by
  rw [percentDecode.eq_def]
  split
  · contradiction
  · rename_i x y cs heq
    obtain ⟨-, rfl⟩ := List.cons.inj heq
    split
    · rename_i m n hx hy
      rw [digitPair?_eq_some_iff.2 ⟨x, y, m, n, rfl, hx, hy, rfl⟩] at h
      cases h
    · rfl
  · rename_i heq
    obtain ⟨rfl, rfl⟩ := List.cons.inj heq
    rfl

/-! ## An encoder that leaves them plain -/

/-- A character that is not plain is written from a percent sign on. -/
theorem percentEncode_of_not_plain (h : ¬ plain c = true) (cs : List Char) :
    ∃ rest, percentEncode plain (c :: cs) = '%' :: rest := by
  obtain ⟨b, tail, hchar⟩ := List.exists_cons_of_ne_nil (String.utf8EncodeChar_ne_nil (c := c))
  rw [percentEncode, List.flatMap_cons, percentChar, if_neg h, hchar]
  exact ⟨_, rfl⟩

/-- A plain character is written as it is. -/
theorem percentEncode_of_plain (h : plain c = true) (cs : List Char) :
    percentEncode plain (c :: cs) = c :: percentEncode plain cs := by
  rw [percentEncode, List.flatMap_cons, percentChar, if_pos h]
  rfl

/-- No pair starts with another character. -/
theorem digitPair?_of_first (h : hexValue? c = none) : digitPair? (c :: cs) = none := by
  cases cs with
  | nil => rfl
  | cons => rw [digitPair?, h]; rfl

/-- No pair goes on with another character. -/
theorem digitPair?_of_second {x : Char} (h : hexValue? c = none) :
    digitPair? (x :: c :: cs) = none := by
  rw [digitPair?, h]
  cases hexValue? x <;> rfl

/-- The characters of what is written are plain ones of the text, percent signs and digits. -/
theorem mem_percentEncode (h : c ∈ percentEncode plain cs) :
    (c ∈ cs ∧ plain c = true) ∨ c = '%' ∨ (hexValue? c).isSome := by
  obtain ⟨d, hd, hc⟩ := List.mem_flatMap.1 h
  by_cases hplain : plain d = true
  · rw [percentChar, if_pos hplain, List.mem_singleton] at hc
    exact .inl (hc ▸ ⟨hd, hplain⟩)
  · rw [percentChar, if_neg hplain] at hc
    obtain ⟨b, -, hc⟩ := List.mem_flatMap.1 hc
    have hb := b.toNat_lt
    have hdigit : ∀ n < 16, (hexValue? (capitalHex n)).isSome := fun n hn => by
      rw [hexValue?_capitalHex hn]
      rfl
    simp only [percentByte, List.mem_cons, List.not_mem_nil, or_false] at hc
    rcases hc with rfl | rfl | rfl
    · exact .inr (.inl rfl)
    · exact .inr (.inr (hdigit _ (by omega)))
    · exact .inr (.inr (hdigit _ (by omega)))

/-- Only the empty text is written as one. -/
theorem percentEncode_eq_nil_iff : percentEncode plain cs = [] ↔ cs = [] := by
  constructor
  · intro h
    cases cs with
    | nil => rfl
    | cons c cs =>
      by_cases hc : plain c = true
      · rw [percentEncode_of_plain hc] at h
        cases h
      · obtain ⟨rest, hrest⟩ := percentEncode_of_not_plain hc cs
        rw [hrest] at h
        cases h
  · rintro rfl
    rfl

/-- The digits at the start of a text are written as they are, and no others get there. -/
theorem digitPair?_percentEncode (hdigits : ∀ c, (hexValue? c).isSome → plain c = true)
    (cs : List Char) :
    digitPair? (percentEncode plain cs) =
      (digitPair? cs).map fun p => (p.1, percentEncode plain p.2) := by
  have hnone : ∀ {c}, ¬ plain c = true → hexValue? c = none := fun {c} h =>
    Option.not_isSome_iff_eq_none.1 fun hc => h (hdigits c hc)
  have hpercent : hexValue? '%' = none := by decide
  match cs with
  | [] => rfl
  | x :: rest =>
    by_cases hx : plain x = true
    · rw [percentEncode_of_plain hx]
      match rest with
      | [] => rfl
      | y :: rest =>
        by_cases hy : plain y = true
        · rw [percentEncode_of_plain hy, digitPair?, digitPair?]
          cases hexValue? x <;> cases hexValue? y <;> rfl
        · obtain ⟨tail, htail⟩ := percentEncode_of_not_plain hy rest
          rw [htail, digitPair?_of_second hpercent, digitPair?_of_second (hnone hy)]
          rfl
    · obtain ⟨tail, htail⟩ := percentEncode_of_not_plain hx rest
      rw [htail, digitPair?_of_first hpercent, digitPair?_of_first (hnone hx)]
      rfl

/-- When percent signs and digits are plain, what is written reads as the text itself. -/
theorem percentDecode_percentEncode (hpercent : plain '%' = true)
    (hdigits : ∀ c, (hexValue? c).isSome → plain c = true) (cs : List Char) :
    percentDecode (percentEncode plain cs) = percentDecode cs := by
  induction h : cs.length using Nat.strongRecOn generalizing cs with
  | ind size ih =>
    match cs with
    | [] => rfl
    | c :: cs =>
      rw [List.length_cons] at h
      by_cases hc : c = '%'
      · subst hc
        have hwritten := digitPair?_percentEncode hdigits cs
        rw [percentEncode_of_plain hpercent]
        cases hpair : digitPair? cs with
        | none =>
          rw [hpair] at hwritten
          rw [percentDecode_percent_alone hwritten, percentDecode_percent_alone hpair,
            ih _ (by omega) cs rfl]
        | some p =>
          obtain ⟨b, rest⟩ := p
          rw [hpair] at hwritten
          have hlength := length_of_digitPair? hpair
          rw [percentDecode_percent_pair hwritten, percentDecode_percent_pair hpair,
            ih _ (by omega) rest rfl]
      · rw [percentDecode_cons hc, percentEncode, List.flatMap_cons,
          percentDecode_percentChar fun _ => hc]
        exact congrArg _ (ih _ (by omega) cs rfl)

/-! ## Texts without an escape -/

/-- A text without an escape reads as its bytes. -/
theorem percentDecode_of_no_escape (h : hasEscape cs = false) : percentDecode cs = utf8 cs := by
  induction cs with
  | nil => rfl
  | cons c cs ih =>
    obtain ⟨hfirst, hrest⟩ := Bool.or_eq_false_iff.1 h
    have htail : percentDecode cs = utf8 cs := ih hrest
    by_cases hc : c = '%'
    · subst hc
      have hnone : digitPair? cs = none := by simpa using hfirst
      rw [percentDecode_percent_alone hnone, htail]
      rfl
    · rw [percentDecode_cons hc, htail]
      rfl

/-! ## Texts with an escape -/

/-- The bytes of a text are those of its characters. -/
theorem length_utf8_cons (c : Char) (cs : List Char) :
    (utf8 (c :: cs)).length = c.utf8Size + (utf8 cs).length := by
  rw [utf8, List.flatMap_cons, List.length_append, String.length_utf8EncodeChar]
  rfl

/-- No text is read as more bytes than it has. -/
theorem length_percentDecode_le (cs : List Char) :
    (percentDecode cs).length ≤ (utf8 cs).length := by
  fun_induction percentDecode cs with
  | case1 => exact Nat.le_refl _
  | case2 x y cs m _ n _ ih =>
    have hx := x.utf8Size_pos
    simp only [List.length_cons, length_utf8_cons]
    omega
  | case3 x y cs _ ih =>
    have hpercent : 1 ≤ '%'.utf8Size := '%'.utf8Size_pos
    rw [List.length_cons, length_utf8_cons]
    omega
  | case4 c cs _ ih =>
    rw [List.length_append, String.length_utf8EncodeChar, length_utf8_cons]
    omega

/-- A text with an escape is read as fewer bytes than it has. -/
theorem length_percentDecode_lt (h : hasEscape cs = true) :
    (percentDecode cs).length < (utf8 cs).length := by
  induction cs with
  | nil => cases h
  | cons c cs ih =>
    by_cases hc : c = '%'
    · subst hc
      have hpercent : 1 ≤ '%'.utf8Size := '%'.utf8Size_pos
      cases hpair : digitPair? cs with
      | none =>
        have hrest : hasEscape cs = true := by simpa [hasEscape, hpair] using h
        rw [percentDecode_percent_alone hpair, List.length_append, String.length_utf8EncodeChar,
          length_utf8_cons]
        exact Nat.add_lt_add_left (ih hrest) _
      | some p =>
        obtain ⟨b, rest⟩ := p
        obtain ⟨x, y, m, n, rfl, -⟩ := digitPair?_eq_some_iff.1 hpair
        have hrest := length_percentDecode_le rest
        have hx := x.utf8Size_pos
        rw [percentDecode_percent_pair hpair]
        simp only [List.length_cons, length_utf8_cons]
        omega
    · have hrest : hasEscape cs = true := by simpa [hasEscape, hc] using h
      rw [percentDecode_cons hc, List.length_append, String.length_utf8EncodeChar,
        length_utf8_cons]
      exact Nat.add_lt_add_left (ih hrest) _

/-- A text is read as its own bytes exactly when it has no escape. -/
theorem percentDecode_eq_utf8_iff : percentDecode cs = utf8 cs ↔ hasEscape cs = false := by
  constructor
  · intro h
    refine Bool.eq_false_iff.2 fun hescape => ?_
    have hlt := length_percentDecode_lt hescape
    rw [h] at hlt
    exact Nat.lt_irrefl _ hlt
  · exact percentDecode_of_no_escape

end Salvage.Text
