import Mathlib.Tactic.SplitIfs
import Salvage.Proofs.Lists
import Salvage.Text.Utf8

/-!
# UTF-8 is read as it is written

A character is one byte below `0x80`, or a first byte and up to three more of six bits each.
`readChar_eq_ok_iff` says that the reader takes exactly the bytes of a character, and
`readUtf8_eq_ok_iff` that it takes exactly the bytes of a text. So no two texts have the same bytes,
and bytes that are read can be written again.
-/

namespace Salvage.Text

variable {b : UInt8} {bytes : List UInt8} {cs : List Char} {c : Char} {k n s t u : Nat}

/-! ## What is written -/

/-- The bytes of the character with a value. -/
theorem utf8EncodeChar_ofNat {v : Nat} (h : v.isValidChar) :
    String.utf8EncodeChar (Char.ofNat v) =
      if v ≤ 0x7f then [UInt8.ofNat v]
      else if v ≤ 0x7ff then [UInt8.ofNat (v / 64 % 32 + 192), UInt8.ofNat (v % 64 + 128)]
      else if v ≤ 0xffff then
        [UInt8.ofNat (v / 4096 % 16 + 224), UInt8.ofNat (v / 64 % 64 + 128),
          UInt8.ofNat (v % 64 + 128)]
      else
        [UInt8.ofNat (v / 262144 % 8 + 240), UInt8.ofNat (v / 4096 % 64 + 128),
          UInt8.ofNat (v / 64 % 64 + 128), UInt8.ofNat (v % 64 + 128)] := by
  have hv : (Char.ofNat v).val.toNat = v := by
    rw [Char.ofNat, dif_pos h]
    rfl
  rw [String.utf8EncodeChar, hv]

/-- A character of ASCII is one byte. -/
theorem utf8EncodeChar_one (h : n < 0x80) :
    String.utf8EncodeChar (Char.ofNat n) = [UInt8.ofNat n] := by
  rw [utf8EncodeChar_ofNat (.inl (by omega)), if_pos (by omega)]

/-- A character below `0x800` is two bytes. -/
theorem utf8EncodeChar_two (hk : 2 ≤ k ∧ k < 32) (hs : s < 64) :
    String.utf8EncodeChar (Char.ofNat (k * 64 + s)) =
      [UInt8.ofNat (k + 0xc0), UInt8.ofNat (s + 0x80)] := by
  rw [utf8EncodeChar_ofNat (.inl (by omega)), if_neg (by omega), if_pos (by omega)]
  have hfirst : (k * 64 + s) / 64 % 32 = k := by omega
  have hsecond : (k * 64 + s) % 64 = s := by omega
  rw [hfirst, hsecond]

/-- What the first bits of a character of three bytes are: it is not below `0x800` and no
surrogate. -/
def InThree (bits : Nat) : Prop :=
  0x20 ≤ bits ∧ (bits < 0x360 ∨ 0x380 ≤ bits)

/-- What the first bits of a character of four bytes are: it is not below `0x10000` and at most
`0x10ffff`. -/
def InFour (bits : Nat) : Prop :=
  0x10 ≤ bits ∧ bits < 0x110

/-- A character below `0x10000` is three bytes. -/
theorem utf8EncodeChar_three (hk : k < 16) (hs : s < 64) (hin : InThree (k * 64 + s))
    (ht : t < 64) :
    String.utf8EncodeChar (Char.ofNat ((k * 64 + s) * 64 + t)) =
      [UInt8.ofNat (k + 0xe0), UInt8.ofNat (s + 0x80), UInt8.ofNat (t + 0x80)] := by
  unfold InThree at hin
  have hvalid : ((k * 64 + s) * 64 + t).isValidChar := by
    unfold Nat.isValidChar
    omega
  rw [utf8EncodeChar_ofNat hvalid, if_neg (by omega), if_neg (by omega), if_pos (by omega)]
  have hfirst : ((k * 64 + s) * 64 + t) / 4096 % 16 = k := by omega
  have hsecond : ((k * 64 + s) * 64 + t) / 64 % 64 = s := by omega
  have hthird : ((k * 64 + s) * 64 + t) % 64 = t := by omega
  rw [hfirst, hsecond, hthird]

/-- Any other character is four bytes. -/
theorem utf8EncodeChar_four (hs : s < 64) (hin : InFour (k * 64 + s)) (ht : t < 64) (hu : u < 64) :
    String.utf8EncodeChar (Char.ofNat (((k * 64 + s) * 64 + t) * 64 + u)) =
      [UInt8.ofNat (k + 0xf0), UInt8.ofNat (s + 0x80), UInt8.ofNat (t + 0x80),
        UInt8.ofNat (u + 0x80)] := by
  unfold InFour at hin
  rw [utf8EncodeChar_ofNat (.inr (by omega)), if_neg (by omega), if_neg (by omega),
    if_neg (by omega)]
  have hfirst : (((k * 64 + s) * 64 + t) * 64 + u) / 262144 % 8 = k := by omega
  have hsecond : (((k * 64 + s) * 64 + t) * 64 + u) / 4096 % 64 = s := by omega
  have hthird : (((k * 64 + s) * 64 + t) * 64 + u) / 64 % 64 = t := by omega
  have hfourth : (((k * 64 + s) * 64 + t) * 64 + u) % 64 = u := by omega
  rw [hfirst, hsecond, hthird, hfourth]

/-- A character has one of the four forms. -/
theorem char_cases (c : Char) :
    (∃ n < 0x80, c = Char.ofNat n) ∨
    (∃ k s, (2 ≤ k ∧ k < 32) ∧ s < 64 ∧ c = Char.ofNat (k * 64 + s)) ∨
    (∃ k s t, k < 16 ∧ s < 64 ∧ InThree (k * 64 + s) ∧ t < 64 ∧
      c = Char.ofNat ((k * 64 + s) * 64 + t)) ∨
    ∃ k s t u, k < 5 ∧ s < 64 ∧ InFour (k * 64 + s) ∧ t < 64 ∧ u < 64 ∧
      c = Char.ofNat (((k * 64 + s) * 64 + t) * 64 + u) := by
  have hvalid : c.toNat < 0xd800 ∨ (0xdfff < c.toNat ∧ c.toNat < 0x110000) := c.valid
  have hc : ∀ v, v = c.toNat → c = Char.ofNat v := by
    rintro v rfl
    exact (Char.ofNat_toNat c).symm
  unfold InThree InFour
  by_cases h1 : c.toNat < 0x80
  · exact .inl ⟨c.toNat, h1, hc _ rfl⟩
  by_cases h2 : c.toNat < 0x800
  · exact .inr (.inl ⟨c.toNat / 64, c.toNat % 64, by omega, by omega, hc _ (by omega)⟩)
  by_cases h3 : c.toNat < 0x10000
  · exact .inr (.inr (.inl ⟨c.toNat / 4096, c.toNat / 64 % 64, c.toNat % 64, by omega, by omega,
      by omega, by omega, hc _ (by omega)⟩))
  · exact .inr (.inr (.inr ⟨c.toNat / 262144, c.toNat / 4096 % 64, c.toNat / 64 % 64,
      c.toNat % 64, by omega, by omega, by omega, by omega, by omega, hc _ (by omega)⟩))

/-! ## What is read -/

/-- A byte has its value. -/
theorem toNat_ofNat_byte (h : n < 256) : (UInt8.ofNat n).toNat = n :=
  UInt8.toNat_ofNat_of_lt' h

/-- A byte is known from its value. -/
theorem eq_ofNat (h : b.toNat = n) : b = UInt8.ofNat n := by
  rw [← h, UInt8.ofNat_toNat]

/-- The bytes that are left of a character are values of six bits. -/
theorem readTail_eq_ok_iff {more seen bits : Nat} :
    readTail (more + 1) seen bits bytes = .ok (c, n) ↔
      ∃ s < 64, ∃ rest, bytes = UInt8.ofNat (s + 0x80) :: rest ∧
        readTail more (seen + 1) (bits * 64 + s) rest = .ok (c, n) := by
  constructor
  · intro h
    cases bytes with
    | nil => cases h
    | cons d rest =>
      rw [readTail] at h
      split at h
      · rename_i hd
        refine ⟨d.toNat - 0x80, by omega, rest, ?_, h⟩
        rw [← eq_ofNat (b := d) (by omega)]
      · cases h
  · rintro ⟨s, hs, rest, rfl, h⟩
    rw [readTail, toNat_ofNat_byte (by omega), if_pos (by omega), Nat.add_sub_cancel]
    exact h

/-- A character of several bytes is read from a second byte that the first one allows. -/
theorem readChar_eq_ok_iff_of_lead {more low high : Nat} {P : Nat → Prop} (hb : 0x80 ≤ b.toNat)
    (hlead : lead? b.toNat = some ⟨more, low, high, k⟩)
    (hsecond : ∀ d, low ≤ d ∧ d ≤ high ↔ ∃ s < 64, d = s + 0x80 ∧ P (k * 64 + s)) :
    readChar b bytes = .ok (c, n) ↔
      ∃ s < 64, P (k * 64 + s) ∧ ∃ rest, bytes = UInt8.ofNat (s + 0x80) :: rest ∧
        readTail (more - 1) 2 (k * 64 + s) rest = .ok (c, n) := by
  unfold readChar
  rw [if_neg (Nat.not_lt.2 hb), hlead]
  cases bytes with
  | nil => simp
  | cons d rest =>
    dsimp only
    constructor
    · intro h
      split at h
      · rename_i hd
        obtain ⟨s, hs, hds, hallowed⟩ := (hsecond _).1 hd
        rw [hds, Nat.add_sub_cancel] at h
        exact ⟨s, hs, hallowed, rest, by rw [eq_ofNat hds], h⟩
      · cases h
    · rintro ⟨s, hs, hallowed, _, heq, h⟩
      obtain ⟨rfl, rfl⟩ := List.cons.inj heq
      have hds : (UInt8.ofNat (s + 0x80)).toNat = s + 0x80 := toNat_ofNat_byte (by omega)
      rw [hds, if_pos ((hsecond _).2 ⟨s, hs, rfl, hallowed⟩), Nat.add_sub_cancel]
      exact h

/-- A byte below `0x80` is a character. -/
theorem readChar_one_iff (hk : k < 0x80) :
    readChar (UInt8.ofNat k) bytes = .ok (c, n) ↔ c = Char.ofNat k ∧ n = 1 := by
  unfold readChar
  rw [toNat_ofNat_byte (by omega), if_pos hk, Except.ok.injEq, Prod.mk.injEq, eq_comm,
    @eq_comm _ 1]

/-- A first byte of two takes any byte of six bits behind it. -/
theorem readChar_two_iff (hk : 2 ≤ k ∧ k < 32) :
    readChar (UInt8.ofNat (k + 0xc0)) bytes = .ok (c, n) ↔
      ∃ s < 64, ∃ rest, bytes = UInt8.ofNat (s + 0x80) :: rest ∧ c = Char.ofNat (k * 64 + s) ∧
        n = 2 := by
  have hbyte : (UInt8.ofNat (k + 0xc0)).toNat = k + 0xc0 := toNat_ofNat_byte (by omega)
  have hlead : lead? (k + 0xc0) = some ⟨1, 0x80, 0xbf, k⟩ := by
    unfold lead?
    rw [if_pos (by omega), Nat.add_sub_cancel]
  have hsecond : ∀ d, 0x80 ≤ d ∧ d ≤ 0xbf ↔ ∃ s < 64, d = s + 0x80 ∧ True := by
    intro d
    constructor
    · intro hd
      exact ⟨d - 0x80, by omega, by omega, trivial⟩
    · rintro ⟨s, hs, rfl, -⟩
      omega
  rw [readChar_eq_ok_iff_of_lead (P := fun _ => True) (by omega) (hbyte ▸ hlead) hsecond]
  simp [readTail, eq_comm]

/-- A first byte of three. -/
theorem readChar_three_iff (hk : k < 16) :
    readChar (UInt8.ofNat (k + 0xe0)) bytes = .ok (c, n) ↔
      ∃ s < 64, InThree (k * 64 + s) ∧ ∃ t < 64, ∃ rest,
        bytes = UInt8.ofNat (s + 0x80) :: UInt8.ofNat (t + 0x80) :: rest ∧
          c = Char.ofNat ((k * 64 + s) * 64 + t) ∧ n = 3 := by
  have hbyte : (UInt8.ofNat (k + 0xe0)).toNat = k + 0xe0 := toNat_ofNat_byte (by omega)
  have hlead : lead? (k + 0xe0) =
      some ⟨2, if k = 0 then 0xa0 else 0x80, if k = 13 then 0x9f else 0xbf, k⟩ := by
    unfold lead?
    grind
  have hsecond : ∀ d, (if k = 0 then 0xa0 else 0x80) ≤ d ∧ d ≤ (if k = 13 then 0x9f else 0xbf) ↔
      ∃ s < 64, d = s + 0x80 ∧ InThree (k * 64 + s) := by
    intro d
    unfold InThree
    constructor
    · intro hd
      exact ⟨d - 0x80, by split_ifs at hd <;> omega⟩
    · rintro ⟨s, hs, rfl, hin⟩
      split_ifs <;> omega
  rw [readChar_eq_ok_iff_of_lead (by omega) (hbyte ▸ hlead) hsecond]
  simp only [readTail_eq_ok_iff, readTail, Except.ok.injEq, Prod.mk.injEq]
  constructor
  · rintro ⟨s, hs, hin, _, rfl, t, ht, rest, rfl, rfl, rfl⟩
    exact ⟨s, hs, hin, t, ht, rest, rfl, rfl, rfl⟩
  · rintro ⟨s, hs, hin, t, ht, rest, rfl, rfl, rfl⟩
    exact ⟨s, hs, hin, _, rfl, t, ht, rest, rfl, rfl, rfl⟩

/-- A first byte of four. -/
theorem readChar_four_iff (hk : k < 5) :
    readChar (UInt8.ofNat (k + 0xf0)) bytes = .ok (c, n) ↔
      ∃ s < 64, InFour (k * 64 + s) ∧ ∃ t < 64, ∃ u < 64, ∃ rest,
        bytes = UInt8.ofNat (s + 0x80) :: UInt8.ofNat (t + 0x80) :: UInt8.ofNat (u + 0x80) :: rest ∧
          c = Char.ofNat (((k * 64 + s) * 64 + t) * 64 + u) ∧ n = 4 := by
  have hbyte : (UInt8.ofNat (k + 0xf0)).toNat = k + 0xf0 := toNat_ofNat_byte (by omega)
  have hlead : lead? (k + 0xf0) =
      some ⟨3, if k = 0 then 0x90 else 0x80, if k = 4 then 0x8f else 0xbf, k⟩ := by
    unfold lead?
    grind
  have hsecond : ∀ d, (if k = 0 then 0x90 else 0x80) ≤ d ∧ d ≤ (if k = 4 then 0x8f else 0xbf) ↔
      ∃ s < 64, d = s + 0x80 ∧ InFour (k * 64 + s) := by
    intro d
    unfold InFour
    constructor
    · intro hd
      exact ⟨d - 0x80, by split_ifs at hd <;> omega⟩
    · rintro ⟨s, hs, rfl, hin⟩
      split_ifs <;> omega
  rw [readChar_eq_ok_iff_of_lead (by omega) (hbyte ▸ hlead) hsecond]
  simp only [readTail_eq_ok_iff, readTail, Except.ok.injEq, Prod.mk.injEq]
  constructor
  · rintro ⟨s, hs, hin, _, rfl, t, ht, _, rfl, u, hu, rest, rfl, rfl, rfl⟩
    exact ⟨s, hs, hin, t, ht, u, hu, rest, rfl, rfl, rfl⟩
  · rintro ⟨s, hs, hin, t, ht, u, hu, rest, rfl, rfl, rfl⟩
    exact ⟨s, hs, hin, _, rfl, t, ht, _, rfl, u, hu, rest, rfl, rfl, rfl⟩

/-- Any other byte is not the first of a character. -/
theorem lead?_eq_none {b : Nat} (h : b < 0xc2 ∨ 0xf4 < b) : lead? b = none := by
  unfold lead?
  grind

/-- A character is read from exactly its bytes. -/
theorem readChar_eq_ok_iff :
    readChar b bytes = .ok (c, n) ↔
      ∃ tail rest, String.utf8EncodeChar c = b :: tail ∧ bytes = tail ++ rest ∧
        n = tail.length + 1 := by
  constructor
  · intro h
    by_cases h1 : b.toNat < 0x80
    · rw [eq_ofNat (b := b) rfl] at h ⊢
      obtain ⟨rfl, rfl⟩ := (readChar_one_iff h1).1 h
      exact ⟨[], bytes, utf8EncodeChar_one h1, rfl, rfl⟩
    by_cases hrange : b.toNat < 0xc2 ∨ 0xf4 < b.toNat
    · unfold readChar at h
      rw [if_neg h1, lead?_eq_none hrange] at h
      cases h
    by_cases h2 : b.toNat < 0xe0
    · obtain ⟨k, hk⟩ : ∃ k, b.toNat = k + 0xc0 := ⟨b.toNat - 0xc0, by omega⟩
      rw [eq_ofNat hk] at h ⊢
      obtain ⟨s, hs, rest, rfl, rfl, rfl⟩ := (readChar_two_iff (by omega)).1 h
      exact ⟨_, rest, utf8EncodeChar_two (by omega) hs, rfl, rfl⟩
    by_cases h3 : b.toNat < 0xf0
    · obtain ⟨k, hk⟩ : ∃ k, b.toNat = k + 0xe0 := ⟨b.toNat - 0xe0, by omega⟩
      rw [eq_ofNat hk] at h ⊢
      obtain ⟨s, hs, hin, t, ht, rest, rfl, rfl, rfl⟩ := (readChar_three_iff (by omega)).1 h
      exact ⟨_, rest, utf8EncodeChar_three (by omega) hs hin ht, rfl, rfl⟩
    · obtain ⟨k, hk⟩ : ∃ k, b.toNat = k + 0xf0 := ⟨b.toNat - 0xf0, by omega⟩
      rw [eq_ofNat hk] at h ⊢
      obtain ⟨s, hs, hin, t, ht, u, hu, rest, rfl, rfl, rfl⟩ := (readChar_four_iff (by omega)).1 h
      exact ⟨_, rest, utf8EncodeChar_four hs hin ht hu, rfl, rfl⟩
  · rintro ⟨tail, rest, hbytes, rfl, rfl⟩
    rcases char_cases c with ⟨n, hn, rfl⟩ | ⟨k, s, hk, hs, rfl⟩ | ⟨k, s, t, hk, hs, hin, ht, rfl⟩ |
      ⟨k, s, t, u, hk, hs, hin, ht, hu, rfl⟩
    · rw [utf8EncodeChar_one hn] at hbytes
      obtain ⟨rfl, rfl⟩ := List.cons.inj hbytes
      exact (readChar_one_iff hn).2 ⟨rfl, rfl⟩
    · rw [utf8EncodeChar_two hk hs] at hbytes
      obtain ⟨rfl, rfl⟩ := List.cons.inj hbytes
      exact (readChar_two_iff hk).2 ⟨s, hs, rest, rfl, rfl, rfl⟩
    · rw [utf8EncodeChar_three hk hs hin ht] at hbytes
      obtain ⟨rfl, rfl⟩ := List.cons.inj hbytes
      exact (readChar_three_iff hk).2 ⟨s, hs, hin, t, ht, rest, rfl, rfl, rfl⟩
    · rw [utf8EncodeChar_four hs hin ht hu] at hbytes
      obtain ⟨rfl, rfl⟩ := List.cons.inj hbytes
      exact (readChar_four_iff hk).2 ⟨s, hs, hin, t, ht, u, hu, rest, rfl, rfl, rfl⟩

/-- Bytes that belong to the character in front of them are passed over. -/
theorem readUtf8From_append (index : Nat) (tail rest : List UInt8) :
    readUtf8From index tail.length (tail ++ rest) = readUtf8From (index + tail.length) 0 rest := by
  induction tail generalizing index with
  | nil => rfl
  | cons b tail ih =>
    rw [List.cons_append, List.length_cons, readUtf8From, ih, Nat.add_assoc, Nat.add_comm 1]

/-- The bytes of a text are read as the text. -/
theorem readUtf8From_utf8 (index : Nat) (cs : List Char) :
    readUtf8From index 0 (utf8 cs) = .ok cs := by
  induction cs generalizing index with
  | nil => rfl
  | cons c cs ih =>
    obtain ⟨b, tail, hchar⟩ := List.exists_cons_of_ne_nil (String.utf8EncodeChar_ne_nil (c := c))
    have hread : readChar b (tail ++ utf8 cs) = .ok (c, tail.length + 1) :=
      readChar_eq_ok_iff.2 ⟨tail, utf8 cs, hchar, rfl, rfl⟩
    have htext : utf8 (c :: cs) = b :: (tail ++ utf8 cs) := by
      rw [utf8, List.flatMap_cons, hchar]
      rfl
    rw [htext, readUtf8From, hread]
    dsimp only
    rw [Nat.add_sub_cancel, readUtf8From_append, ih]
    rfl

/-- Bytes that are read as a text are its bytes. -/
theorem utf8_of_readUtf8From {index skip : Nat} (h : readUtf8From index skip bytes = .ok cs) :
    bytes.drop skip = utf8 cs := by
  fun_induction readUtf8From index skip bytes generalizing cs with
  | case1 =>
    rw [← Except.ok.inj h, List.drop_nil]
    rfl
  | case2 index skip b bytes ih => exact ih h
  | case3 index b bytes c n hchar ih =>
    obtain ⟨cs, hrest, rfl⟩ := map_eq_ok.1 h
    obtain ⟨tail, rest, hbytes, rfl, rfl⟩ := readChar_eq_ok_iff.1 hchar
    have hrest := ih hrest
    rw [Nat.add_sub_cancel, List.drop_left] at hrest
    rw [List.drop_zero, hrest, utf8, utf8, List.flatMap_cons, hbytes]
    rfl
  | case4 => cases h

/-- A text is read from exactly its bytes. -/
theorem readUtf8_eq_ok_iff : readUtf8 bytes = .ok cs ↔ bytes = utf8 cs := by
  constructor
  · exact fun h => utf8_of_readUtf8From h
  · rintro rfl
    exact readUtf8From_utf8 0 cs

end Salvage.Text
