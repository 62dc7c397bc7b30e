import Salvage.Proofs.Lists
import Salvage.Proofs.Text.Percent
import Salvage.Url.Reader

/-!
# URLs at a host

A host that is not looked up on the internet is read from any text without separators, or from an address
in brackets. `readAuthority_printHost` says that such a host, and the port behind it, are written without
any character that ends an authority and without an at-sign, so that what is in front of a host can be
told from it. `read_atHost` says that a URL that is read behind the scheme of the database is of this
kind, and `AtHost` is kept by all that replaces another part of it.
-/

namespace Salvage.Url

open Text

/-- The characters that an authority has none of but the at-sign behind the user. -/
def delimiters : List Char := ['/', '?', '#', '@']

variable {c : Char} {cs rest : List Char}

/-- A hexadecimal digit is no delimiter. -/
theorem not_delimiter_of_digit (h : (hexValue? c).isSome) : c ∉ delimiters := by
  have hall : delimiters.all (fun d => (hexValue? d).isNone) = true := by decide
  intro hc
  have hnone := List.all_eq_true.1 hall c hc
  rw [Option.isNone_iff_eq_none.1 hnone] at h
  cases h

/-! ## Numbers -/

/-- A number is written with the digits of its base. -/
theorem mem_toDigits {base n : Nat} (hbase : 1 < base) (h : c ∈ Nat.toDigits base n) :
    ∃ d < base, c = Nat.digitChar d := by
  induction n using Nat.strongRecOn with
  | ind n ih =>
    by_cases hlt : n < base
    · rw [Nat.toDigits_of_lt_base hlt, List.mem_singleton] at h
      exact ⟨n, hlt, h⟩
    · rw [Nat.toDigits_of_base_le hbase (Nat.le_of_not_lt hlt), List.mem_append,
        List.mem_singleton] at h
      rcases h with h | h
      · exact ih (n / base) (Nat.div_lt_self (by omega) hbase) h
      · exact ⟨n % base, Nat.mod_lt _ (by omega), h⟩

/-- A number up to base sixteen is written without delimiters. -/
theorem toDigits_no_delimiter {base n : Nat} (hbase : 1 < base) (hle : base ≤ 16)
    (h : c ∈ Nat.toDigits base n) : c ∉ delimiters := by
  have hall : ∀ d < 16, (hexValue? (Nat.digitChar d)).isSome := by decide
  obtain ⟨d, hd, rfl⟩ := mem_toDigits hbase h
  exact not_delimiter_of_digit (hall d (Nat.lt_of_lt_of_le hd hle))

/-- Pieces of an address between colons are written without delimiters. -/
theorem intercalate_no_delimiter {pieces : List Nat}
    (h : c ∈ [':'].intercalate (pieces.map (Nat.toDigits 16))) : c ∉ delimiters := by
  induction pieces with
  | nil => cases h
  | cons n pieces ih =>
    have hfirst : c ∈ Nat.toDigits 16 n → c ∉ delimiters :=
      toDigits_no_delimiter (by decide) (by decide)
    cases pieces with
    | nil =>
      rw [List.map_cons, List.map_nil, List.intercalate_singleton] at h
      exact hfirst h
    | cons m pieces =>
      rw [List.map_cons, List.map_cons, List.intercalate_cons_cons, List.append_assoc,
        List.mem_append, List.mem_append, List.mem_singleton] at h
      rcases h with h | rfl | h
      · exact hfirst h
      · decide
      · exact ih h

/-- An IPv6 address is written without delimiters. -/
theorem printIpv6_no_delimiter {pieces : List Nat} (h : c ∈ printIpv6 pieces) :
    c ∉ delimiters := by
  unfold printIpv6 at h
  dsimp only at h
  split at h
  · exact intercalate_no_delimiter h
  · simp only [List.append_assoc, List.mem_append, List.mem_cons, List.not_mem_nil, or_false,
      or_self] at h
    rcases h with h | rfl | h
    · exact intercalate_no_delimiter h
    · decide
    · exact intercalate_no_delimiter h

/-! ## Hosts -/

/-- An opaque host is written without delimiters. -/
theorem readOpaque_no_delimiter {host : Host} (h : Host.readOpaque cs = .ok host)
    (hc : c ∈ host.print) : c ∉ delimiters := by
  unfold Host.readOpaque at h
  split at h
  · -- an address in brackets
    unfold Host.bracketed at h
    split at h
    · rw [← Except.ok.inj h, Host.print, List.cons_append, List.mem_cons, List.mem_append,
        List.mem_singleton] at hc
      rcases hc with rfl | hc | rfl
      · decide
      · exact printIpv6_no_delimiter hc
      · decide
    · cases h
  · split at h
    · cases h
    · rename_i hforbidden
      rw [← Except.ok.inj h] at hc
      rcases mem_percentEncode hc with ⟨hmem, -⟩ | rfl | hdigit
      · have hall : delimiters.all Host.isForbidden = true := by decide
        exact fun hd => hforbidden (List.any_eq_true.2 ⟨c, hmem, List.all_eq_true.1 hall c hd⟩)
      · decide
      · exact not_delimiter_of_digit hdigit

/-- A host is written without delimiters together with its port. -/
theorem printHost_no_delimiter {a : Authority} {host : Host} (hhost : a.host = some host)
    (hfree : ∀ d ∈ host.print, d ∉ delimiters) (hc : c ∈ a.printHost) : c ∉ delimiters := by
  rw [Authority.printHost, hhost, List.mem_append] at hc
  rcases hc with hc | hc
  · exact hfree c hc
  · split at hc
    · cases hc
    · rcases List.mem_cons.1 hc with rfl | hc
      · decide
      · exact toDigits_no_delimiter (by decide) (by decide) hc

/-- The host and the port of an authority that is read under no special scheme are written without
delimiters. -/
theorem readAuthority_printHost {a : Authority} (h : readAuthority none false cs = .ok (a, rest))
    (hhost : a.host.isSome) (hc : c ∈ a.printHost) : c ∉ delimiters := by
  unfold readAuthority at h
  obtain ⟨⟨user, password, cs⟩, -, h⟩ := bind_eq_ok.1 h
  dsimp only at h
  generalize spanHost false false cs = spanned at h
  obtain ⟨hostText, cs⟩ := spanned
  dsimp only at h
  split at h
  · -- without the text of a host there is none
    split at h
    · cases h
    · obtain ⟨rfl, rfl⟩ := Prod.mk.inj (Except.ok.inj h)
      cases hhost
  · obtain ⟨host, hread, h⟩ := bind_eq_ok.1 h
    have hfree : ∀ d ∈ host.print, d ∉ delimiters := fun d => readOpaque_no_delimiter hread
    split at h
    · obtain ⟨port, -, h⟩ := bind_eq_ok.1 h
      obtain ⟨rfl, rfl⟩ := Prod.mk.inj (Except.ok.inj h)
      exact printHost_no_delimiter rfl hfree hc
    · obtain ⟨rfl, rfl⟩ := Prod.mk.inj (Except.ok.inj h)
      exact printHost_no_delimiter rfl hfree hc

/-! ## Reading -/

/-- What is left out at the start of a text does not reach behind a character that stays. -/
theorem dropWhile_append {p : Char → Bool} (xs : List Char) {ys : List Char}
    (h : ∀ c ∈ ys.head?, p c = false) :
    (xs ++ ys).dropWhile p = xs.dropWhile p ++ ys := by
  induction xs with
  | nil =>
    cases ys with
    | nil => rfl
    | cons c cs => exact List.dropWhile_cons_of_neg (by simp [h c rfl])
  | cons c cs ih =>
    rw [List.cons_append]
    by_cases hc : p c = true
    · rw [List.dropWhile_cons_of_pos hc, List.dropWhile_cons_of_pos hc, ih]
    · rw [List.dropWhile_cons_of_neg hc, List.dropWhile_cons_of_neg hc, List.cons_append]

/-- Nothing is cleaned away up to a character that is no blank. -/
theorem cleaned_append {before : List Char} (h : before.all fun c => 0x20 < c.toNat)
    (hne : before ≠ []) (cs : List Char) : ∃ rest, cleaned (before ++ cs) = before ++ rest := by
  have hbefore : ∀ c ∈ before, 0x20 < c.toNat := fun c hc =>
    of_decide_eq_true (List.all_eq_true.1 h c hc)
  have hstays : ∀ c ∈ before, decide (c.toNat ≤ 0x20) = false := fun c hc =>
    decide_eq_false (Nat.not_le.2 (hbefore c hc))
  have hkept : ∀ c ∈ before, (!isIgnored c) = true := by
    intro c hc
    have hnot : ∀ {d : Char}, d.toNat ≤ 0x20 → c ≠ d := by
      rintro d hd rfl
      exact Nat.not_le.2 (hbefore c hc) hd
    have htab : c ≠ '\t' := hnot (by decide)
    have hline : c ≠ '\n' := hnot (by decide)
    have hreturn : c ≠ '\r' := hnot (by decide)
    simp [isIgnored, htab, hline, hreturn]
  have hfront : (before ++ cs).dropWhile (fun c => decide (c.toNat ≤ 0x20)) = before ++ cs := by
    obtain ⟨c, before, rfl⟩ := List.exists_cons_of_ne_nil hne
    exact List.dropWhile_cons_of_neg (by simp [hstays c List.mem_cons_self])
  have hback := dropWhile_append (p := fun c => decide (c.toNat ≤ 0x20)) cs.reverse
    fun c hc => hstays c (List.mem_reverse.1 (List.mem_of_mem_head? hc))
  unfold cleaned
  dsimp only
  rw [hfront, List.reverse_append, hback, List.reverse_append, List.reverse_reverse,
    List.filter_append, List.filter_eq_self.2 hkept]
  exact ⟨_, rfl⟩

/-- A URL at a host, with nothing in the scheme or in the host at which its text is cut. -/
structure AtHost (u : Url) (a : Authority) (path : Path) : Prop where
  place : u.place = .hosted a path
  host : a.host.isSome
  scheme : ':' ∉ u.scheme
  printHost : ∀ c ∈ a.printHost, c ∉ delimiters

/-- A URL that is read behind the scheme of the database is one at a host, if it has any. -/
theorem read_atHost {u : Url} {text : String} (h : Url.read ("postgres://" ++ text) = .ok u)
    (hhost : u.authority?.isSome) : ∃ a path, AtHost u a path := by
  unfold Url.read at h
  have hprintable : "postgres://".toList.all (fun c => 0x20 < c.toNat) = true := by decide
  obtain ⟨cs, hcs⟩ := cleaned_append hprintable (by decide) text.toList
  have hscheme : readScheme ("postgres://".toList ++ cs) =
      .ok ("postgres".toList, '/' :: '/' :: cs) := rfl
  rw [String.toList_append, hcs, hscheme] at h
  obtain ⟨⟨scheme, rest⟩, heq, h⟩ := bind_eq_ok.1 h
  obtain ⟨rfl, rfl⟩ := Prod.mk.inj (Except.ok.inj heq)
  obtain ⟨⟨place, rest⟩, hplace, h⟩ := bind_eq_ok.1 h
  obtain rfl := Except.ok.inj h
  unfold readPlace at hplace
  have hspecial : special.lookup (String.ofList "postgres".toList) = none := by decide
  rw [hspecial] at hplace
  obtain ⟨⟨a, behind⟩, hauthority, hplace⟩ := bind_eq_ok.1 hplace
  obtain ⟨rfl, -⟩ := Prod.mk.inj (Except.ok.inj hplace)
  have hsome : a.host.isSome := by
    unfold authority? at hhost
    dsimp only at hhost
    split at hhost
    · assumption
    · cases hhost
  have hcolon : ':' ∉ "postgres".toList := by decide
  exact ⟨a, _, rfl, hsome, hcolon, fun c => readAuthority_printHost hauthority hsome⟩

/-! ## Replacing parts -/

namespace AtHost

variable {u : Url} {a : Authority} {path : Path}

/-- The authority is changed in its place. -/
theorem mapAuthority_eq (h : AtHost u a path) (f : Authority → Authority) :
    u.mapAuthority f = { u with place := .hosted (f a) path } := by
  rw [Url.mapAuthority, h.place]
  exact if_pos h.host

/-- A change of the user and the password. -/
theorem mapAuthority (h : AtHost u a path) {f : Authority → Authority} (hhost : (f a).host = a.host)
    (hport : (f a).port = a.port) : AtHost (u.mapAuthority f) (f a) path := by
  rw [h.mapAuthority_eq]
  refine ⟨rfl, hhost ▸ h.host, h.scheme, ?_⟩
  rw [Authority.printHost, hhost, hport]
  exact h.printHost

/-- A change of the path. -/
theorem withPath (h : AtHost u a path) (text : List Char) :
    ∃ path, AtHost (u.withPath text) a path := by
  unfold Url.withPath
  dsimp only
  rw [h.place]
  exact ⟨_, rfl, h.host, h.scheme, h.printHost⟩

/-- A change of the query. -/
theorem addField (h : AtHost u a path) (key value : List Char) :
    AtHost (u.addField key value) a path :=
  ⟨h.place, h.host, h.scheme, h.printHost⟩

end AtHost

end Salvage.Url
