import Mathlib.Data.List.TakeDrop
import Mathlib.Tactic.SplitIfs
import Salvage.Proofs.Url.AtHost

/-!
# The user and the password in the text of a URL

Whoever is given the text of a URL finds the user and the password by its separators: the authority ends
at the first slash, question mark or hash sign behind the two slashes, the last at-sign in it ends the
userinfo, and the first colon of that ends the user. `Url.cut?` cuts a text so. What is written for a user
and a password has none of the characters at which it is cut, so `AtHost.cut?_text` finds the two where
they were put, and a mask in place of the password changes nothing else.
-/

namespace Salvage.Url

open Text

/-- The text of a URL around a user and a password. -/
structure Cut where
  scheme : List Char
  user : List Char
  password : List Char
  /-- The host and all that follows it. -/
  behind : List Char
  deriving DecidableEq, Repr

/-- The parts, put together again. -/
def Cut.print (c : Cut) : List Char :=
  c.scheme ++ ':' :: '/' :: '/' :: (c.user ++ ':' :: c.password) ++ '@' :: c.behind

/-- The authority in the text of a URL, between the scheme and what follows it. -/
def cutAuthority? (text : List Char) : Option (List Char × List Char × List Char) :=
  match text.span (· ≠ ':') with
  | (scheme, ':' :: '/' :: '/' :: rest) => some (scheme, rest.span fun c => !endsAuthority false c)
  | _ => none

/-- The user and the password in an authority, in front of the host. -/
def cutUserinfo? (authority : List Char) : Option (List Char × List Char × List Char) := do
  let (userinfo, host) ← cutAtLastAt authority
  match userinfo.span (· ≠ ':') with
  | (user, ':' :: password) => return (user, password, host)
  | _ => none

/-- Cuts the text of a URL around its user and its password, if it has both. -/
def cut? (text : List Char) : Option Cut := do
  let (scheme, authority, tail) ← cutAuthority? text
  let (user, password, host) ← cutUserinfo? authority
  return ⟨scheme, user, password, host ++ tail⟩

/-- The text of a URL with its password masked differs from the text of the URL in nothing but the
password of its userinfo. -/
def MasksPassword (u : Url) : Prop :=
  ∃ cut, cut? u.text.toList = some cut ∧ u.text.toList = cut.print ∧
    u.redacted.text.toList = Cut.print { cut with password := mask }

variable {u : Url} {a : Authority} {path : Path} {c : Char} {cs before behind tail : List Char}

/-! ## Cutting -/

/-- A text is cut in front of the first character that fails a test. -/
theorem span_append {p : Char → Bool} (hbefore : ∀ c ∈ before, p c = true)
    (hbehind : ∀ c ∈ behind.head?, p c = false) :
    (before ++ behind).span p = (before, behind) := by
  rw [List.span_eq_takeWhile_dropWhile, List.takeWhile_append_of_pos hbefore,
    List.dropWhile_append_of_pos hbefore]
  cases behind with
  | nil => rw [List.takeWhile_nil, List.dropWhile_nil, List.append_nil]
  | cons c cs =>
    have hc : ¬ p c = true := Bool.not_eq_true _ ▸ hbehind c rfl
    rw [List.takeWhile_cons_of_neg hc, List.dropWhile_cons_of_neg hc, List.append_nil]

/-- Without an at-sign there is nothing to cut at. -/
theorem cutAtLastAt_of_no_at (h : '@' ∉ cs) : cutAtLastAt cs = none := by
  induction cs with
  | nil => rfl
  | cons c cs ih =>
    obtain ⟨hc, hcs⟩ := List.ne_and_not_mem_of_not_mem_cons h
    rw [cutAtLastAt, ih hcs]
    exact if_neg hc.symm

/-- The last at-sign is the one that no other follows. -/
theorem cutAtLastAt_append (h : '@' ∉ behind) :
    cutAtLastAt (before ++ '@' :: behind) = some (before, behind) := by
  induction before with
  | nil =>
    rw [List.nil_append, cutAtLastAt, cutAtLastAt_of_no_at h]
    rfl
  | cons c cs ih => rw [List.cons_append, cutAtLastAt, ih]

/-- Only a delimiter ends an authority. -/
theorem not_endsAuthority (h : c ∉ delimiters) : endsAuthority false c = false := by
  simp only [delimiters, List.mem_cons, List.not_mem_nil, or_false, not_or] at h
  simp [endsAuthority, h]

/-- The authority ends where the first character that ends it stands. -/
theorem cutAuthority?_append {scheme authority : List Char} (hscheme : ':' ∉ scheme)
    (hauthority : ∀ c ∈ authority, endsAuthority false c = false)
    (htail : ∀ c ∈ tail.head?, endsAuthority false c = true) :
    cutAuthority? (scheme ++ ':' :: '/' :: '/' :: (authority ++ tail)) =
      some (scheme, authority, tail) := by
  have hcolon : (scheme ++ ':' :: '/' :: '/' :: (authority ++ tail)).span (· ≠ ':') =
      (scheme, ':' :: '/' :: '/' :: (authority ++ tail)) :=
    span_append (fun c hc => decide_eq_true fun heq => hscheme (heq ▸ hc)) (by simp)
  have hend : (authority ++ tail).span (fun c => !endsAuthority false c) = (authority, tail) :=
    span_append (fun c hc => by rw [hauthority c hc]; rfl) fun c hc => by rw [htail c hc]; rfl
  simp only [cutAuthority?, hcolon, hend]

/-- The user ends at the first colon, and the password at the last at-sign. -/
theorem cutUserinfo?_append {user password host : List Char} (huser : ':' ∉ user)
    (hhost : '@' ∉ host) :
    cutUserinfo? (user ++ ':' :: password ++ '@' :: host) = some (user, password, host) := by
  have hcolon : (user ++ ':' :: password).span (· ≠ ':') = (user, ':' :: password) :=
    span_append (fun c hc => decide_eq_true fun heq => huser (heq ▸ hc)) (by simp)
  rw [cutUserinfo?, cutAtLastAt_append hhost]
  simp only [Option.bind_eq_bind, Option.bind_some, hcolon]
  rfl

/-! ## The text of a URL at a host -/

/-- What is written behind an authority. -/
def printTail (u : Url) (path : Path) : List Char :=
  path.print ++ printPart '?' u.query ++ printPart '#' u.fragment

/-- The cut of a URL at a host. -/
def cutAt (u : Url) (a : Authority) (path : Path) : Cut :=
  ⟨u.scheme, a.user, a.password, a.printHost ++ u.printTail path⟩

/-- What is written behind an authority ends it. -/
theorem endsAuthority_printTail (h : c ∈ (u.printTail path).head?) :
    endsAuthority false c = true := by
  unfold printTail at h
  cases path with
  | cons segment path =>
    obtain rfl : '/' = c := Option.some.inj h
    rfl
  | nil =>
    cases hquery : u.query with
    | some query =>
      rw [hquery] at h
      obtain rfl : '?' = c := Option.some.inj h
      rfl
    | none =>
      rw [hquery] at h
      cases hfragment : u.fragment with
      | some fragment =>
        rw [hfragment] at h
        obtain rfl : '#' = c := Option.some.inj h
        rfl
      | none =>
        rw [hfragment] at h
        cases h

namespace AtHost

/-- The text of a URL with a password. -/
theorem text_eq (h : AtHost u a path) (hpassword : a.password ≠ []) :
    u.text.toList = (u.cutAt a path).print := by
  have huser : ¬ (a.user = [] ∧ a.password = []) := fun hempty => hpassword hempty.2
  rw [text, String.toList_ofList, print, h.place, Place.print, Authority.print, Authority.printUser,
    if_neg huser, if_neg hpassword]
  simp [cutAt, Cut.print, printTail]

/-- The text of a URL with its password masked differs in the password only. -/
theorem redacted_text_eq (h : AtHost u a path) (hpassword : a.password ≠ []) :
    u.redacted.text.toList = Cut.print { u.cutAt a path with password := mask } := by
  have hmasked : u.redacted = u.mapAuthority fun a =>
      { a with password := if a.password = [] then [] else mask } := rfl
  have hat := h.mapAuthority (f := fun a =>
    { a with password := if a.password = [] then [] else mask }) rfl rfl
  have htext := hat.text_eq (by simp [hpassword, mask])
  rw [hmasked, htext, h.mapAuthority_eq]
  simp only [cutAt, printTail, if_neg hpassword]
  rfl

/-- The user and the password are found in the text where they were put. -/
theorem cut?_text (h : AtHost u a path) (hne : a.password ≠ [])
    (huser : ∀ c ∈ a.user, c ≠ ':' ∧ c ∉ delimiters) (hpassword : ∀ c ∈ a.password, c ∉ delimiters) :
    cut? u.text.toList = some (u.cutAt a path) := by
  have hcolon : ':' ∉ a.user := fun hc => (huser ':' hc).1 rfl
  have hat : '@' ∉ a.printHost := fun hc => h.printHost '@' hc (by decide)
  have hauthority : ∀ c ∈ a.user ++ ':' :: a.password ++ '@' :: a.printHost,
      endsAuthority false c = false := by
    intro c hc
    simp only [List.mem_append, List.mem_cons] at hc
    rcases hc with (hc | rfl | hc) | rfl | hc
    · exact not_endsAuthority (huser c hc).2
    · rfl
    · exact not_endsAuthority (hpassword c hc)
    · rfl
    · exact not_endsAuthority (h.printHost c hc)
  have hprint : (u.cutAt a path).print = u.scheme ++ ':' :: '/' :: '/' ::
      ((a.user ++ ':' :: a.password ++ '@' :: a.printHost) ++ u.printTail path) := by
    simp [cutAt, Cut.print]
  rw [h.text_eq hne, hprint, cut?,
    cutAuthority?_append h.scheme hauthority fun c => endsAuthority_printTail]
  dsimp only [Option.bind_eq_bind, Option.bind_some]
  rw [cutUserinfo?_append hcolon hat]
  rfl

end AtHost

/-! ## What is written for a user and a password -/

/-- Only an empty user or password is written as nothing. -/
theorem escapeUser_ne_nil {text : String} (h : text ≠ "") : escapeUser text.toList ≠ [] :=
  fun hempty => h (String.toList_eq_nil_iff.1 (percentEncode_eq_nil_iff.1 hempty))

/-- A hexadecimal digit is plain in a user and in a password. -/
theorem plain_of_digit (h : (hexValue? c).isSome) : printableBut escapedInUser c = true := by
  have hlt : c.toNat < 128 := by
    unfold hexValue? at h
    split_ifs at h with h₁ h₂ h₃
    · exact Nat.lt_of_le_of_lt h₁.2 (by decide)
    · exact Nat.lt_of_le_of_lt h₂.2 (by decide)
    · exact Nat.lt_of_le_of_lt h₃.2 (by decide)
    · cases h
  have hall : ∀ n < 128, (hexValue? (Char.ofNat n)).isSome →
      printableBut escapedInUser (Char.ofNat n) = true := by decide +kernel
  have hc := hall c.toNat hlt
  rw [Char.ofNat_toNat] at hc
  exact hc h

/-- A user and a password are written without a colon and without delimiters. -/
theorem mem_escapeUser (h : c ∈ escapeUser cs) : c ≠ ':' ∧ c ∉ delimiters := by
  have hall : (':' :: delimiters).all (fun d => d != '%' && !printableBut escapedInUser d) = true := by
    decide
  have hnot : c ∉ ':' :: delimiters := by
    intro hc
    obtain ⟨hne, hescaped⟩ := Bool.and_eq_true_iff.1 (List.all_eq_true.1 hall c hc)
    have hplain : ¬ printableBut escapedInUser c = true := by simpa using hescaped
    rcases mem_percentEncode h with ⟨-, hp⟩ | rfl | hdigit
    · exact hplain hp
    · cases hne
    · exact hplain (plain_of_digit hdigit)
  exact List.ne_and_not_mem_of_not_mem_cons hnot

/-- A written user or password reads as its own bytes exactly when it has no escape. -/
theorem percentDecode_escapeUser_eq_iff :
    percentDecode (escapeUser cs) = utf8 cs ↔ hasEscape cs = false := by
  rw [escapeUser, percentDecode_percentEncode (by decide) (fun _ => plain_of_digit),
    percentDecode_eq_utf8_iff]

/-! ## Masking -/

/-- Two changes of an authority are one, when the first keeps the host. -/
theorem mapAuthority_mapAuthority {f g : Authority → Authority}
    (hhost : ∀ a, (f a).host = a.host) :
    (u.mapAuthority f).mapAuthority g = u.mapAuthority (g ∘ f) := by
  obtain ⟨scheme, place, query, fragment⟩ := u
  cases place with
  | opaqueText text => rfl
  | rooted path => rfl
  | hosted a path =>
    by_cases hsome : a.host.isSome = true
    · simp [mapAuthority, hsome, hhost]
    · simp [mapAuthority, hsome]

/-- A mask hides which password it stands for. -/
theorem redacted_withPassword {password : String} (h : password ≠ "") :
    (u.withPassword password.toList).redacted =
      u.mapAuthority fun a => { a with password := mask } := by
  have hcompose := mapAuthority_mapAuthority (u := u)
    (f := fun a => { a with password := escapeUser password.toList })
    (g := fun a => { a with password := if a.password = [] then [] else mask }) fun _ => rfl
  rw [redacted, withPassword, hcompose]
  simp only [Function.comp_def, if_neg (escapeUser_ne_nil h)]

/-- The path is replaced behind a mask as in front of it. -/
theorem redacted_withPath (text : List Char) :
    (u.withPath text).redacted = u.redacted.withPath text := by
  obtain ⟨scheme, place, query, fragment⟩ := u
  cases place with
  | opaqueText text => rfl
  | rooted path => rfl
  | hosted a path =>
    simp only [redacted, mapAuthority, withPath]
    split <;> rfl

/-- A field is added behind a mask as in front of it. -/
theorem redacted_addField (key value : List Char) :
    (u.addField key value).redacted = u.redacted.addField key value := by
  obtain ⟨scheme, place, query, fragment⟩ := u
  cases place with
  | opaqueText text => rfl
  | rooted path => rfl
  | hosted a path =>
    simp only [redacted, mapAuthority, addField]
    split <;> rfl

end Salvage.Url
