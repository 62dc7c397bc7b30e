import Salvage.Text.Punycode
import Salvage.Url.Address
import Salvage.Url.Escape
import Salvage.Url.Fault

/-!
# Hosts

The host of a URL. Under a special scheme it is the name of a machine on the internet or its
address, in the one form that all spellings of it have; under any other scheme it is an IPv6
address or an opaque text.
-/

namespace Salvage.Url

open Text

/-- A host. -/
inductive Host where
  /-- A name, as it is written. -/
  | name (text : List Char)
  | ipv4 (address : Nat)
  | ipv6 (pieces : List Nat)
  deriving DecidableEq, Repr

namespace Host

/-- Writes a host. -/
def print : Host → List Char
  | .name text => text
  | .ipv4 address => printIpv4 address
  | .ipv6 pieces => '[' :: printIpv6 pieces ++ [']']

/-- The characters that separate the parts of a URL, which no host contains. -/
def separators : List Char := ['#', '/', ':', '<', '>', '?', '@', '[', '\\', ']', '^', '|']

/-- A character that an opaque host does not contain. -/
def isForbidden (c : Char) : Bool :=
  separators.contains c || ['\x00', '\t', '\n', '\r', ' '].contains c

/-- A character that a name on the internet does not contain. -/
def isForbiddenInName (c : Char) : Bool :=
  separators.contains c || c.toNat ≤ 0x20 || c = '%' || c = '\x7f'

/-- An address between square brackets. -/
def bracketed (cs : List Char) : Except Fault Host :=
  match cs.getLast?, ipv6? cs.dropLast with
  | some ']', some pieces => .ok (.ipv6 pieces)
  | _, _ => .error .invalidIpv6

/-- Reads the host of a URL whose scheme is not special. -/
def readOpaque : List Char → Except Fault Host
  | '[' :: cs => bracketed cs
  | cs => if cs.any isForbidden then .error .invalidCharacter else .ok (.name (escapeOpaque cs))

/-- What a character of a name counts as: small letters for capital letters, and the plain form of
a wide one. A soft hyphen counts as nothing. -/
def folded (c : Char) : List Char :=
  let n := c.toNat
  if n < 0x80 then [c.toLower]
  else if n = 0xad then []
  else if n = 0x3002 ∨ n = 0xff0e ∨ n = 0xff61 then ['.']
  else if 0xff01 ≤ n ∧ n ≤ 0xff5e then [(Char.ofNat (n - 0xfee0)).toLower]
  else if (0xc0 ≤ n ∧ n ≤ 0xde ∧ n ≠ 0xd7) ∨ (0x391 ≤ n ∧ n ≤ 0x3a9) ∨ (0x410 ≤ n ∧ n ≤ 0x42f) then
    [Char.ofNat (n + 0x20)]
  else if 0x400 ≤ n ∧ n ≤ 0x40f then [Char.ofNat (n + 0x50)]
  else [c]

/-- One label of a name, in ASCII. -/
def asciiLabel (cs : List Char) : List Char :=
  if cs.all fun c => c.toNat < 0x80 then cs else "xn--".toList ++ Punycode.encode cs

/-- A name on the internet, in ASCII. -/
def asciiName (cs : List Char) : Except Fault (List Char) :=
  match readUtf8 (percentDecode cs) with
  | .error _ => .error .invalidName
  | .ok cs =>
    let name := cs.flatMap folded
    if name.any isForbiddenInName then .error .invalidName
    else if name = [] then .error .emptyHost
    else .ok (['.'].intercalate ((pieces '.' name).map asciiLabel))

/-- Reads the host of a URL whose scheme is special. -/
def readSpecial : List Char → Except Fault Host
  | '[' :: cs => bracketed cs
  | cs => do
    let name ← asciiName cs
    if endsInNumber name then
      match ipv4? name with
      | some address => return .ipv4 address
      | none => throw .invalidIpv4
    else return .name name

end Host

end Salvage.Url
