import Salvage.Proofs.Json.Literal

/-!
# Readers that take printed values

A reader takes a printed value when it reads that value and stops right behind it, wherever a value
may end. Values are put together by their printers in the way their readers take them apart, so for
each of these ways there is one lemma: from the parts of a list, of a record or of an option to the
whole. A record is filled entry by entry, and entries that are left out leave their field as it was.
-/

namespace Salvage.Json

variable {σ α : Type} {r : Reader α} {nesting : Nat} {a : α} {cs rest : List Char}

/-- A reader takes a printed value if `nesting` brackets at least may be opened. -/
def Takes (r : Reader α) (nesting : Nat) (a : α) (cs : List Char) : Prop :=
  ∀ ⦃depth rest⦄, nesting < depth → Ends rest → r depth (cs ++ rest) = .ok (a, rest)

/-- A value starts here: not with a blank, not with the end of a list, and not with `null`. -/
def Starts (cs : List Char) : Prop :=
  ∃ c tail, cs = c :: tail ∧ isSpace c = false ∧ c ≠ ']' ∧ c ≠ 'n'

/-- Only leading spaces are skipped. -/
theorem skipSpaces_cons {c : Char} (h : isSpace c = false) (cs : List Char) :
    skipSpaces (c :: cs) = c :: cs := by
  rw [skipSpaces, List.dropWhile_cons, h]
  rfl

/-! ## Scalars -/

/-- A string literal starts with its quote. -/
theorem starts_printText (s : String) : Starts (printText s) :=
  ⟨'"', _, rfl, by decide, by decide, by decide⟩

/-- A text is taken as it was printed. -/
theorem takes_readText (expected s : String) :
    Takes (readText expected) nesting s (printText s) := by
  intro depth rest _ _
  have hshape : printText s ++ rest = '"' :: (s.toList.flatMap escapedChar ++ '"' :: rest) := by
    simp [printText]
  rw [hshape, readText, skipSpaces_cons (by decide)]
  change Except.map _ (scanText .plain _) = _
  rw [scanText_printText, Except.map, String.ofList_toList]

/-- A printed integer is its digits, behind a sign if it is below zero. -/
theorem printInt_eq (n : Int) :
    printInt n = if 0 ≤ n then Nat.toDigits 10 n.natAbs else '-' :: Nat.toDigits 10 n.natAbs := by
  change n.repr.toList = _
  rw [Int.repr_eq_if]
  split
  · have habs : n.toNat = n.natAbs := by omega
    rw [Nat.toList_repr, habs]
  · have habs : (-n).toNat = n.natAbs := by omega
    rw [String.toList_append, Nat.toList_repr, habs]
    rfl

/-- The digits of a number start with a digit. -/
theorem exists_digit_cons (n : Nat) :
    ∃ c tail, Nat.toDigits 10 n = c :: tail ∧ c.isDigit := by
  obtain ⟨c, tail, h⟩ := List.exists_cons_of_ne_nil (Nat.toDigits_ne_nil (n := n) (b := 10))
  have hdigit := Nat.isDigit_of_mem_toDigits (b := 10) (n := n) (c := c) (by decide) (by decide)
    (by rw [h]; exact List.mem_cons_self)
  exact ⟨c, tail, h, hdigit⟩

/-- A digit is no blank and none of some other characters. -/
theorem not_special_of_isDigit {c : Char} (h : c.isDigit) :
    isSpace c = false ∧ c ≠ ']' ∧ c ≠ 'n' ∧ c ≠ '-' := by
  refine ⟨?_, ?_, ?_, ?_⟩
  · rw [Bool.eq_false_iff]
    intro hspace
    simp only [isSpace, Bool.or_eq_true, beq_iff_eq] at hspace
    rcases hspace with ((rfl | rfl) | rfl) | rfl <;> cases h
  all_goals
    rintro rfl
    cases h

/-- An integer starts with its sign or a digit. -/
theorem starts_printInt (n : Int) : Starts (printInt n) := by
  rw [printInt_eq]
  split
  · obtain ⟨c, tail, hcons, hdigit⟩ := exists_digit_cons n.natAbs
    obtain ⟨hspace, hend, hnull, -⟩ := not_special_of_isDigit hdigit
    exact ⟨c, tail, hcons, hspace, hend, hnull⟩
  · exact ⟨'-', _, rfl, by decide, by decide, by decide⟩

/-- The digits of a number that fits are read as that number, with its sign. -/
theorem integerOf_toDigits {range : Text.IntRange} (name : String) (negative : Bool) {n : Nat}
    (hn : n < Nat.pow 2 64) (hnegative : negative → 0 < n ∧ n ≤ Nat.pow 2 63)
    (hrange : range.contains (if negative then -(n : Int) else n)) (hrest : Ends rest) :
    (scanNumber negative (Nat.toDigits 10 n ++ rest) >>= integerOf range name) =
      .ok (if negative then -(n : Int) else n, rest) := by
  have hinteger := integer?_toDigits hn hnegative
  simp only [scanNumber, scanNumeral_toDigits negative n hrest, hinteger, bind, Except.bind,
    Option.isSome_some, Bool.true_or, if_true, pure, Except.pure, integerOf, hrange]

/-- An integer of a range that is part of 64 bits is taken as it was printed. -/
theorem takes_integer {range : Text.IntRange} (hbelow : range.below ≤ Nat.pow 2 63)
    (habove : range.above < Nat.pow 2 64) (name : String) {n : Int} (hn : range.contains n) :
    Takes (integer range name) nesting n (printInt n) := by
  intro depth rest _ hrest
  have hrange := of_decide_eq_true hn
  have hfits : n.natAbs < Nat.pow 2 64 := by
    have : Nat.pow 2 63 < Nat.pow 2 64 := by decide
    omega
  rw [printInt_eq]
  split
  · have hvalue : (if (false : Bool) then -(n.natAbs : Int) else n.natAbs) = n := by
      rw [if_neg (by decide)]
      omega
    have hread := integerOf_toDigits name false hfits (by simp) (hvalue.symm ▸ hn) hrest
    obtain ⟨c, tail, hcons, hdigit⟩ := exists_digit_cons n.natAbs
    obtain ⟨hspace, -, -, hminus⟩ := not_special_of_isDigit hdigit
    rw [hvalue, hcons] at hread
    rw [hcons, List.cons_append, integer, skipSpaces_cons hspace]
    simp only [Text.digit?_of_isDigit hdigit, Option.isSome_some, if_true]
    exact hread
  · have hvalue : (if (true : Bool) then -(n.natAbs : Int) else n.natAbs) = n := by
      rw [if_pos rfl]
      omega
    have hread := integerOf_toDigits name true hfits (fun _ => by omega) (hvalue.symm ▸ hn) hrest
    rw [hvalue] at hread
    rw [List.cons_append, integer, skipSpaces_cons (by decide)]
    exact hread

/-- A variant is taken by its name. -/
theorem takes_variant {variants : List (String × α)} {name : String}
    (h : variants.lookup name = some a) :
    Takes (variant variants) nesting a (printText name) := by
  intro depth rest hdepth hrest
  have hname := takes_readText "variant identifier" name hdepth hrest
  have hquote : skipSpaces (printText name ++ rest) = printText name ++ rest :=
    skipSpaces_cons (by decide) _
  rw [variant, hquote]
  change variantName variants depth (printText name ++ rest) = _
  simp only [variantName, hname, h, bind, Except.bind]
  rfl

/-- An optional value that is there is taken as it is without the option. -/
theorem Takes.present (h : Takes r nesting a cs) (hstarts : Starts cs) :
    Takes (optional r) nesting (some a) cs := by
  intro depth rest hdepth hrest
  obtain ⟨c, tail, rfl, hspace, -, hnull⟩ := hstarts
  have hread := h hdepth hrest
  rw [List.cons_append] at hread ⊢
  rw [optional, skipSpaces_cons hspace]
  split
  · rename_i heq
    exact absurd (List.cons.inj heq).1 hnull
  · rw [hread]
    rfl

/-- A value that may be missing is taken, or `null` in its place. -/
theorem takes_printOption {print : α → List Char} {o : Option α}
    (h : ∀ a ∈ o, Takes r nesting a (print a)) (hstarts : ∀ a ∈ o, Starts (print a)) :
    Takes (optional r) nesting o (printOption print o) := by
  cases o with
  | none => exact fun _ _ _ _ => rfl
  | some a => exact (h a rfl).present (hstarts a rfl)

/-! ## What stands in a bracket -/

/-- What stands in front of a value in a bracket. -/
def separator (first : Bool) : List Char :=
  if first then [] else [',']

/-- Values in a bracket, from the first one on or from a later one on. -/
def sequel (first : Bool) : List (List Char) → List Char
  | [] => []
  | value :: values => separator first ++ (value ++ sequel false values)

/-- Values with commas between them have one in front of each but the first. -/
theorem joined_eq_sequel (values : List (List Char)) : joined values = sequel true values := by
  induction values with
  | nil => rfl
  | cons value values ih =>
    cases values with
    | nil => simp [joined, sequel, separator]
    | cons next values =>
      rw [joined, ih]
      · rfl
      · simp

/-- Each value is printed with a comma at least, so there are more characters than values up to the
end of their bracket. -/
theorem length_lt_sequel (values : List (List Char)) (c : Char) (rest : List Char) :
    values.length < (sequel true values ++ c :: rest).length + 1 := by
  have hcommas (values : List (List Char)) : values.length ≤ (sequel false values).length := by
    induction values with
    | nil => exact Nat.le_refl 0
    | cons value values ih =>
      simp only [sequel, separator, Bool.false_eq_true, if_false, List.length_append,
        List.length_cons, List.length_nil]
      omega
  rw [List.length_append, List.length_cons]
  cases values with
  | nil => exact Nat.zero_lt_succ _
  | cons value values =>
    have hle := hcommas values
    simp only [sequel, List.length_append, List.length_cons]
    omega

/-- A value in a bracket ends in front of the next one and in front of the end of the bracket. -/
theorem ends_sequel (values : List (List Char)) {c : Char} (hc : c = ']' ∨ c = '\x7d')
    (rest : List Char) : Ends (sequel false values ++ c :: rest) := by
  cases values with
  | nil =>
    intro d hd
    obtain rfl : c = d := Option.some.inj hd
    exact .inr hc
  | cons value values =>
    intro d hd
    exact .inl (Option.some.inj hd).symm

/-! ## Lists -/

/-- A list goes on with its next element, which has a comma in front of it unless it is the
first. -/
theorem nextElement_separator (first : Bool) (h : Starts cs) (rest : List Char) :
    nextElement first (separator first ++ (cs ++ rest)) = .ok (true, cs ++ rest) := by
  obtain ⟨c, tail, rfl, hspace, hend, -⟩ := h
  cases first with
  | true =>
    rw [separator, if_pos rfl, List.nil_append, List.cons_append, nextElement,
      skipSpaces_cons hspace]
    split
    · contradiction
    · rename_i heq
      exact absurd (List.cons.inj heq).1 hend
    · rename_i heq
      rw [if_pos rfl, heq]
  | false =>
    rw [separator, if_neg (by decide), List.cons_append, List.nil_append, List.cons_append,
      nextElement, skipSpaces_cons (by decide)]
    split
    · contradiction
    · rename_i heq
      exact absurd (List.cons.inj heq).1 (by decide)
    · rename_i heq
      obtain ⟨rfl, rfl⟩ := List.cons.inj heq
      rw [if_neg (by decide), if_pos rfl, skipSpaces_cons hspace]
      split
      · contradiction
      · rename_i heq
        exact absurd (List.cons.inj heq).1 hend
      · rfl

section List

variable {print : α → List Char} {as : List α} {depth n : Nat}

/-- The elements of a list that are to come are taken one after another. -/
theorem elements_sequel (h : ∀ a ∈ as, Takes r nesting a (print a))
    (hstarts : ∀ a ∈ as, Starts (print a)) (hdepth : nesting < depth) (hn : as.length < n)
    (first : Bool) (rest : List Char) :
    elements r depth n first (sequel first (as.map print) ++ ']' :: rest) =
      .ok (as, ']' :: rest) := by
  induction as generalizing n first with
  | nil =>
    cases n with
    | zero => cases hn
    | succ n => rfl
  | cons a as ih =>
    cases n with
    | zero => cases hn
    | succ n =>
      obtain ⟨hfirst, hothers⟩ := List.forall_mem_cons.1 h
      obtain ⟨hstart, hstarts⟩ := List.forall_mem_cons.1 hstarts
      have hread := hfirst hdepth (ends_sequel (as.map print) (.inl rfl) rest)
      rw [List.map_cons, sequel, List.append_assoc, List.append_assoc, elements,
        nextElement_separator first hstart]
      simp only [bind, Except.bind, hread, ih hothers hstarts (Nat.lt_of_succ_lt_succ hn)]
      rfl

/-- A list is taken when its elements are. -/
theorem takes_printList (h : ∀ a ∈ as, Takes r nesting a (print a))
    (hstarts : ∀ a ∈ as, Starts (print a)) :
    Takes (list r) (nesting + 1) as (printList (as.map print)) := by
  intro depth rest hdepth hrest
  have hshape : printList (as.map print) ++ rest =
      '[' :: (sequel true (as.map print) ++ ']' :: rest) := by
    simp [printList, joined_eq_sequel]
  have hrounds := length_lt_sequel (as.map print) ']' rest
  rw [List.length_map] at hrounds
  have hinside : nesting < depth - 1 := by omega
  rw [hshape, list, skipSpaces_cons (by decide)]
  change descend _ depth _ = _
  rw [descend, if_neg (by omega)]
  simp only [bind, Except.bind, List.drop_succ_cons, List.drop_zero,
    elements_sequel h hstarts hinside hrounds]
  rfl

end List

/-! ## Records -/

section Record

variable {fields : List (FieldReader σ)} {f : FieldReader σ} {s s' s'' : σ} {key : String}
  {value : List Char} {values more : List (String × List Char)} {depth n : Nat}

/-- Entries fill a draft one after another: each is taken by its field, which the draft does not
have yet. -/
inductive Fills (fields : List (FieldReader σ)) (nesting : Nat) :
    σ → List (String × List Char) → σ → Prop
  | nil (s : σ) : Fills fields nesting s [] s
  | cons {s s' s'' : σ} {key : String} {value : List Char} {values : List (String × List Char)}
      {f : FieldReader σ} : (fields.find? fun f => f.name == key) = some f → f.given s = false →
      Takes (f.read s) nesting s' value → Fills fields nesting s' values s'' →
      Fills fields nesting s ((key, value) :: values) s''

/-- Entries fill a draft together with those behind them. -/
theorem Fills.append (h : Fills fields nesting s values s')
    (h' : Fills fields nesting s' more s'') :
    Fills fields nesting s (values ++ more) s'' := by
  induction h with
  | nil => exact h'
  | cons hfield hgiven htakes _ ih => exact .cons hfield hgiven htakes (ih h')

/-- An entry may be left out, and then the draft stays without it. -/
theorem fills_entryIfSome {print : α → List Char} {o : Option α} (put : Option (Option α) → σ)
    (h : ∀ a ∈ o, Fills fields nesting (put none) [(key, print a)] (put (some (some a)))) :
    Fills fields nesting (put none) (entryIfSome key print o) (put (o.map some)) := by
  cases o with
  | none => exact .nil _
  | some a => exact h a rfl

/-- A field takes a value when the reader of its values does. -/
theorem Takes.ofReader {name : String} {get : σ → Option α} {set : α → σ → σ}
    (h : Takes r nesting a cs) (s : σ) :
    Takes ((FieldReader.ofReader name get set r).read s) nesting (set a s) cs := by
  intro depth rest hdepth hrest
  change (r depth (cs ++ rest)).map _ = _
  rw [h hdepth hrest]
  rfl

/-- A field that may be absent at the end of a list takes the same values. -/
theorem Takes.orAbsent (h : Takes (f.read s) nesting s' cs) :
    Takes (f.orAbsent.read s) nesting s' cs := h

/-- An object goes on with the key of its next entry, which has a comma in front of it unless it is
the first. -/
theorem nextKey_separator (first : Bool) (key : String) (value rest : List Char) :
    nextKey first (separator first ++ (printEntry key value ++ rest)) =
      .ok (some key, ':' :: (value ++ rest)) := by
  have hshape : printEntry key value ++ rest =
      '"' :: (key.toList.flatMap escapedChar ++ '"' :: ':' :: (value ++ rest)) := by
    simp [printEntry, printText]
  have hkey : (scanText .plain
      (key.toList.flatMap escapedChar ++ '"' :: ':' :: (value ++ rest))).map
      (fun p => (some (String.ofList p.1), p.2)) = .ok (some key, ':' :: (value ++ rest)) := by
    rw [scanText_printText, Except.map, String.ofList_toList]
  rw [hshape]
  cases first <;> exact hkey

/-- An entry whose key is read is taken by its field. -/
theorem entries_step {first : Bool}
    (hkey : nextKey first cs = .ok (some key, ':' :: (value ++ rest)))
    (hfield : (fields.find? fun f => f.name == key) = some f) (hgiven : f.given s = false)
    (htakes : Takes (f.read s) nesting s' value) (hdepth : nesting < depth) (hrest : Ends rest) :
    entries fields depth (n + 1) first s cs = entries fields depth n false s' rest := by
  have hcolon : colon (':' :: (value ++ rest)) = .ok (value ++ rest) := rfl
  rw [entries, hkey]
  simp only [bind, Except.bind, hfield, hgiven, hcolon, htakes hdepth hrest, Bool.false_eq_true,
    if_false]

/-- The entries of an object that are to come fill a draft. -/
theorem Fills.entries_sequel (h : Fills fields nesting s values s') (hdepth : nesting < depth)
    (hn : values.length < n) (first : Bool) (rest : List Char) :
    entries fields depth n first s
        (sequel first (values.map fun e => printEntry e.1 e.2) ++ '\x7d' :: rest) =
      .ok (s', '\x7d' :: rest) := by
  induction h generalizing n first with
  | nil =>
    cases n with
    | zero => cases hn
    | succ n => rfl
  | @cons _ _ _ key value _ _ hfield hgiven htakes _ ih =>
    cases n with
    | zero => cases hn
    | succ n =>
      rw [List.map_cons, sequel, List.append_assoc, List.append_assoc,
        entries_step (nextKey_separator first key value _) hfield hgiven htakes hdepth
          (ends_sequel _ (.inr rfl) rest)]
      exact ih (Nat.lt_of_succ_lt_succ hn) false

/-- A record is taken when its entries fill a draft that is complete. -/
theorem takes_printObject {l : Layout σ α} (h : Fills l.fields nesting l.empty values s)
    (hfinish : l.finish s = .ok a) : Takes (record l) (nesting + 1) a (printObject values) := by
  intro depth rest hdepth hrest
  have hshape : printObject values ++ rest =
      '\x7b' :: (sequel true (values.map fun e => printEntry e.1 e.2) ++ '\x7d' :: rest) := by
    simp [printObject, joined_eq_sequel]
  have hrounds := length_lt_sequel (values.map fun e => printEntry e.1 e.2) '\x7d' rest
  rw [List.length_map] at hrounds
  have hinside : nesting < depth - 1 := by omega
  rw [hshape, record, skipSpaces_cons (by decide)]
  change descend _ depth _ = _
  rw [descend, if_neg (by omega)]
  simp only [bind, Except.bind, List.drop_succ_cons, List.drop_zero,
    h.entries_sequel hinside hrounds, Layout.close, hfinish]

/-- An object starts with its brace. -/
theorem starts_printObject (values : List (String × List Char)) : Starts (printObject values) :=
  ⟨'\x7b', _, rfl, by decide, by decide, by decide⟩

end Record

/-! ## Whole texts -/

/-- A text that is a printed value holds that value and nothing else. -/
theorem Takes.readAll (h : Takes r nesting a cs) (hnesting : nesting < startDepth) :
    r.readAll (String.ofList cs) = .ok a := by
  have hend : Ends [] := by simp [Ends]
  have hread := h hnesting hend
  rw [List.append_nil] at hread
  simp only [Reader.readAll, String.toList_ofList, bind, Except.bind, hread]
  rfl

end Salvage.Json
