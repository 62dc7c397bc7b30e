import Salvage.Statement
import Salvage.Transaction.Guarded

/-!
# Identifiers stay between their quotes

A database reads an identifier from its opening quote to the first quote that has no other one behind
it, and takes two quotes for one. Read like this, an identifier is found again behind its quotes,
whatever characters it is made of, and what follows it is left as it was; only a following quote would
be taken for a part of it. So the statements about savepoints are some words and one identifier.
-/

namespace Salvage.Statement

/-! ## Reading an identifier -/

/-- The characters of an identifier behind its opening quote, and what is left behind its closing
quote. -/
def untilQuote : List Char → Option (List Char × List Char)
  | [] => none
  | '"' :: '"' :: cs => (untilQuote cs).map fun (name, rest) => ('"' :: name, rest)
  | '"' :: cs => some ([], cs)
  | c :: cs => (untilQuote cs).map fun (name, rest) => (c :: name, rest)

/-- The identifier at the start of a text, and what is left of the text. -/
def readIdentifier? (text : String) : Option (String × String) :=
  match text.toList with
  | '"' :: cs => (untilQuote cs).map fun (name, rest) => (String.ofList name, String.ofList rest)
  | _ => none

/-- No quote stands at the start. -/
def NoQuote (cs : List Char) : Prop :=
  cs.head? ≠ some '"'

instance (cs : List Char) : Decidable (NoQuote cs) :=
  inferInstanceAs (Decidable (_ ≠ _))

/-- A quote is written twice. -/
theorem doubleQuotes_quote (cs : List Char) :
    doubleQuotes ('"' :: cs) = '"' :: '"' :: doubleQuotes cs := rfl

/-- Every other character is written once. -/
theorem doubleQuotes_cons {c : Char} (hc : c ≠ '"') (cs : List Char) :
    doubleQuotes (c :: cs) = c :: doubleQuotes cs := by
  rw [doubleQuotes, List.flatMap_cons, if_neg hc]
  rfl

/-- Two quotes are read as one. -/
theorem untilQuote_quotes (cs : List Char) :
    untilQuote ('"' :: '"' :: cs) = (untilQuote cs).map fun (name, rest) => ('"' :: name, rest) := by
  rw [untilQuote]

/-- A quote without another one behind it ends an identifier. -/
theorem untilQuote_end {cs : List Char} (h : NoQuote cs) :
    untilQuote ('"' :: cs) = some ([], cs) := by
  cases cs with
  | nil => rfl
  | cons c cs =>
    have hc : c ≠ '"' := fun heq => h (congrArg some heq)
    rw [untilQuote]
    rintro cs' heq
    exact hc (List.cons.inj heq).1

/-- Every other character is read as it is. -/
theorem untilQuote_cons {c : Char} (hc : c ≠ '"') (cs : List Char) :
    untilQuote (c :: cs) = (untilQuote cs).map fun (name, rest) => (c :: name, rest) := by
  rw [untilQuote]
  · exact fun _ heq => absurd heq hc
  · exact hc

/-- Behind its opening quote an identifier is read to its closing quote. -/
theorem untilQuote_doubleQuotes (name : List Char) {rest : List Char} (hrest : NoQuote rest) :
    untilQuote (doubleQuotes name ++ '"' :: rest) = some (name, rest) := by
  induction name with
  | nil => exact untilQuote_end hrest
  | cons c cs ih =>
    by_cases hc : c = '"'
    · rw [hc, doubleQuotes_quote, List.cons_append, List.cons_append, untilQuote_quotes, ih]
      rfl
    · rw [doubleQuotes_cons hc, List.cons_append, untilQuote_cons hc, ih]
      rfl

/-- What is read up to a closing quote has stood there with its quotes doubled. -/
theorem eq_of_untilQuote {cs name rest : List Char} (h : untilQuote cs = some (name, rest)) :
    cs = doubleQuotes name ++ '"' :: rest ∧ NoQuote rest := by
  fun_induction untilQuote cs generalizing name with
  | case1 => cases h
  | case2 cs ih =>
    -- two quotes, which were one
    obtain ⟨⟨name', rest'⟩, hread, heq⟩ := Option.map_eq_some_iff.1 h
    cases heq
    obtain ⟨hcs, hrest⟩ := ih hread
    exact ⟨by rw [hcs]; rfl, hrest⟩
  | case3 cs hnext =>
    -- the closing quote
    cases h
    refine ⟨rfl, fun hquote => ?_⟩
    obtain ⟨cs', rfl⟩ := List.head?_eq_some_iff.1 hquote
    exact hnext cs' rfl
  | case4 c cs _ hc ih =>
    -- any other character
    obtain ⟨⟨name', rest'⟩, hread, heq⟩ := Option.map_eq_some_iff.1 h
    cases heq
    obtain ⟨hcs, hrest⟩ := ih hread
    exact ⟨by rw [hcs, doubleQuotes_cons hc]; rfl, hrest⟩

/-- The characters of an identifier between its quotes. -/
theorem toList_quoteIdentifier (name : String) :
    (quoteIdentifier name).toList = '"' :: (doubleQuotes name.toList ++ ['"']) := by
  rw [quoteIdentifier, String.toList_ofList]
  rfl

/-- The characters of an identifier between its quotes and of what follows. -/
theorem toList_quoteIdentifier_append (name rest : String) :
    (quoteIdentifier name ++ rest).toList =
      '"' :: (doubleQuotes name.toList ++ '"' :: rest.toList) := by
  simp [toList_quoteIdentifier]

/-- An identifier is read from a text exactly when it stands at its start between quotes, its own
quotes doubled, and no quote follows. -/
theorem readIdentifier?_eq_some_iff {text name rest : String} :
    readIdentifier? text = some (name, rest) ↔
      text = quoteIdentifier name ++ rest ∧ NoQuote rest.toList := by
  constructor
  · intro h
    rw [readIdentifier?] at h
    split at h
    · rename_i cs htext
      obtain ⟨⟨name', rest'⟩, hread, heq⟩ := Option.map_eq_some_iff.1 h
      cases heq
      obtain ⟨hcs, hrest⟩ := eq_of_untilQuote hread
      refine ⟨?_, by rwa [String.toList_ofList]⟩
      rw [← String.toList_inj, toList_quoteIdentifier_append, htext, hcs, String.toList_ofList,
        String.toList_ofList]
    · cases h
  · rintro ⟨rfl, hrest⟩
    rw [readIdentifier?, toList_quoteIdentifier_append]
    simp only [untilQuote_doubleQuotes _ hrest, Option.map_some, String.ofList_toList]

/-- What is quoted can be read back, so different names are quoted differently. -/
theorem quoteIdentifier_injective : Function.Injective quoteIdentifier := by
  intro name name' heq
  have hread (n : String) : readIdentifier? (quoteIdentifier n ++ "") = some (n, "") :=
    readIdentifier?_eq_some_iff.2 ⟨rfl, by decide⟩
  have hsame : some (name, "") = some (name', "") := by
    rw [← hread name, ← hread name', heq]
  cases hsame
  rfl

/-! ## Words and identifiers -/

/-- A part of a statement. -/
inductive Token where
  | word (text : String)
  /-- An identifier between quotes, without them. -/
  | identifier (name : String)
  deriving DecidableEq, Repr

/-- What is left behind a closing quote is shorter than what was read. -/
theorem length_of_untilQuote {cs name rest : List Char} (h : untilQuote cs = some (name, rest)) :
    rest.length < cs.length := by
  rw [(eq_of_untilQuote h).1, List.length_append, List.length_cons]
  omega

/-- The parts of a statement that is made of words of letters, identifiers between quotes and spaces. A
word goes on as long as letters follow. -/
def tokens : List Char → Option (List Token)
  | [] => some []
  | c :: cs =>
    if c = ' ' then tokens cs
    else if c = '"' then
      match h : untilQuote cs with
      | none => none
      | some (name, rest) =>
        have := length_of_untilQuote h
        (tokens rest).map (.identifier (String.ofList name) :: ·)
    else if c.isAlpha then
      have := (List.dropWhile_sublist (l := cs) Char.isAlpha).length_le
      (tokens (cs.dropWhile Char.isAlpha)).map
        (.word (String.ofList (c :: cs.takeWhile Char.isAlpha)) :: ·)
    else none
  termination_by cs => cs.length
  decreasing_by all_goals grind

/-- A word is one part of a statement when a space follows. -/
theorem tokens_word {word : List Char} (hword : word ≠ []) (hletters : ∀ c ∈ word, c.isAlpha)
    (rest : List Char) :
    tokens (word ++ ' ' :: rest) = (tokens rest).map (.word (String.ofList word) :: ·) := by
  obtain ⟨c, cs, rfl⟩ := List.exists_cons_of_ne_nil hword
  obtain ⟨hfirst, hothers⟩ := List.forall_mem_cons.1 hletters
  have hspace : c ≠ ' ' := by
    rintro rfl
    cases hfirst
  have hquote : c ≠ '"' := by
    rintro rfl
    cases hfirst
  have htake : (cs ++ ' ' :: rest).takeWhile Char.isAlpha = cs := by
    rw [List.takeWhile_append_of_pos hothers]
    simp
  have hdrop : (cs ++ ' ' :: rest).dropWhile Char.isAlpha = ' ' :: rest := by
    rw [List.dropWhile_append_of_pos hothers]
    simp
  rw [List.cons_append, tokens, if_neg hspace, if_neg hquote, if_pos hfirst]
  simp only [htake, hdrop]
  rw [tokens, if_pos rfl]

/-- An identifier between quotes is one part of a statement, whatever its characters are. -/
theorem tokens_quoteIdentifier (name : String) :
    tokens (quoteIdentifier name).toList = some [.identifier name] := by
  have hread : untilQuote (doubleQuotes name.toList ++ ['"']) = some (name.toList, []) :=
    untilQuote_doubleQuotes name.toList (by decide)
  rw [toList_quoteIdentifier, tokens, if_neg (by decide), if_pos rfl]
  split
  · rename_i hnone
    rw [hread] at hnone
    cases hnone
  · rename_i hsome
    rw [hread] at hsome
    cases hsome
    simp [tokens]

/-- A command on a savepoint is made of its words and the name. -/
theorem tokens_onSavepoint {command : String} (words : List String)
    (hcommand : command.toList ++ [' '] = words.flatMap fun w => w.toList ++ [' '])
    (hwords : ∀ w ∈ words, w.toList ≠ [] ∧ ∀ c ∈ w.toList, c.isAlpha) (name : String) :
    tokens (onSavepoint command name).toList =
      some (words.map Token.word ++ [.identifier name]) := by
  have htext : (onSavepoint command name).toList =
      (words.flatMap fun w => w.toList ++ [' ']) ++ (quoteIdentifier name).toList := by
    rw [← hcommand]
    simp [onSavepoint]
  rw [htext]
  -- the words are taken one by one, so what is known of all of them together is put aside
  clear htext hcommand
  induction words with
  | nil => exact tokens_quoteIdentifier name
  | cons w words ih =>
    obtain ⟨⟨hword, hletters⟩, hothers⟩ := List.forall_mem_cons.1 hwords
    rw [List.flatMap_cons, List.append_assoc, List.append_assoc, List.singleton_append,
      tokens_word hword hletters, ih hothers, String.ofList_toList]
    rfl

/-! ## Names of savepoints -/

/-- An ASCII letter, a digit or an underscore. -/
def IsPlain (c : Char) : Prop :=
  ('a' ≤ c ∧ c ≤ 'z') ∨ ('A' ≤ c ∧ c ≤ 'Z') ∨ ('0' ≤ c ∧ c ≤ '9') ∨ c = '_'

/-- Letters and digits are plain. -/
theorem isPlain_of_isAlphanum {c : Char} (h : c.isAlphanum) : IsPlain c := by
  have hkind : c.isAlpha = true ∨ c.isDigit = true := Bool.or_eq_true_iff.1 h
  rcases hkind with hletter | hdigit
  · have hcase : c.isUpper = true ∨ c.isLower = true := Bool.or_eq_true_iff.1 hletter
    rcases hcase with hupper | hlower
    · exact .inr (.inl (of_decide_eq_true hupper))
    · obtain ⟨hfrom, hto⟩ := Bool.and_eq_true_iff.1 hlower
      exact .inl ⟨of_decide_eq_true hfrom, of_decide_eq_true hto⟩
  · obtain ⟨hfrom, hto⟩ := Bool.and_eq_true_iff.1 hdigit
    exact .inr (.inr (.inl ⟨of_decide_eq_true hfrom, of_decide_eq_true hto⟩))

/-- The name of a savepoint is made of plain characters, whatever the node id is. -/
theorem isPlain_of_mem_savepointName {nodeId : String} {c : Char}
    (h : c ∈ (savepointName nodeId).toList) : IsPlain c := by
  rw [savepointName, String.toList_append, String.toList_ofList, List.mem_append] at h
  rcases h with hkept | hending
  · have hfits := (List.mem_filter.1 hkept).2
    rw [Bool.or_eq_true, beq_iff_eq] at hfits
    rcases hfits with halphanum | hunderscore
    · exact isPlain_of_isAlphanum halphanum
    · exact .inr (.inr (.inr hunderscore))
  · have hplain : ∀ d ∈ "_svpt".toList, IsPlain d := by simp [IsPlain]
    exact hplain c hending

/-- A quoted identifier is read back from every text that starts with it, if no quote follows, and the
rest of the text is left as it was; nothing else is read as an identifier. So quoting keeps names apart,
and the statements about the savepoint of a node are their words and the savepoint's name, which is made
of letters, digits and underscores. -/
theorem identifiers_stay_inside :
    (∀ text name following : String, readIdentifier? text = some (name, following) ↔
      text = quoteIdentifier name ++ following ∧ NoQuote following.toList) ∧
    Function.Injective quoteIdentifier ∧
    ∀ nodeId : String,
      (∀ c ∈ (savepointName nodeId).toList, IsPlain c) ∧
      tokens (savepoint (savepointName nodeId)).toList =
        some [.word "SAVEPOINT", .identifier (savepointName nodeId)] ∧
      tokens (rollbackTo (savepointName nodeId)).toList =
        some [.word "ROLLBACK", .word "TO", .word "SAVEPOINT",
          .identifier (savepointName nodeId)] ∧
      tokens (release (savepointName nodeId)).toList =
        some [.word "RELEASE", .word "SAVEPOINT", .identifier (savepointName nodeId)] := by
  refine ⟨fun _ _ _ => readIdentifier?_eq_some_iff, quoteIdentifier_injective, fun nodeId =>
    ⟨fun c => isPlain_of_mem_savepointName, ?_, ?_, ?_⟩⟩
  · exact tokens_onSavepoint ["SAVEPOINT"] (by decide) (by simp) _
  · exact tokens_onSavepoint ["ROLLBACK", "TO", "SAVEPOINT"] (by decide) (by simp) _
  · exact tokens_onSavepoint ["RELEASE", "SAVEPOINT"] (by decide) (by simp) _

/-- An identifier that would end itself and go on with a statement of its own is read back as it is. Of
such a node id only the plain characters get into a statement. -/
theorem identifiers_stay_inside_hostile :
    NoQuote " ;".toList ∧
      readIdentifier? (quoteIdentifier "a\"\"; DROP TABLE b; \"" ++ " ;") =
        some ("a\"\"; DROP TABLE b; \"", " ;") ∧
      'N' ∈ (savepointName "N:1\"; \u00e9").toList ∧ IsPlain 'N' ∧
      tokens (rollbackTo (savepointName "N:1\"; \u00e9")).toList =
        some [.word "ROLLBACK", .word "TO", .word "SAVEPOINT", .identifier "N1_svpt"] := by
  obtain ⟨hread, -, hnode⟩ := identifiers_stay_inside
  obtain ⟨hplain, -, hrollback, -⟩ := hnode "N:1\"; \u00e9"
  have hrest : NoQuote " ;".toList := by decide
  have hmem : 'N' ∈ (savepointName "N:1\"; \u00e9").toList := by decide
  have hname : savepointName "N:1\"; \u00e9" = "N1_svpt" := by decide
  refine ⟨hrest, (hread _ _ _).2 ⟨rfl, hrest⟩, hmem, hplain 'N' hmem, ?_⟩
  rw [hrollback, hname]

end Salvage.Statement
