/-!
# Faults in URLs

Why a text is no URL.
-/

namespace Salvage.Url

/-- Why a text is no URL. -/
inductive Fault where
  | emptyHost
  /-- A name of a host that cannot be written in ASCII. -/
  | invalidName
  | invalidPort
  | invalidIpv4
  | invalidIpv6
  /-- A host with a character that separates other parts. -/
  | invalidCharacter
  /-- There is no scheme. -/
  | relative
  deriving DecidableEq, Repr

/-- The wording of a fault. -/
def Fault.message : Fault → String
  | .emptyHost => "empty host"
  | .invalidName => "invalid international domain name"
  | .invalidPort => "invalid port number"
  | .invalidIpv4 => "invalid IPv4 address"
  | .invalidIpv6 => "invalid IPv6 address"
  | .invalidCharacter => "invalid domain character"
  | .relative => "relative URL without a base"

end Salvage.Url
