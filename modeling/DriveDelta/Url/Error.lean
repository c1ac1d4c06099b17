/-!
# Why a text is no URL
-/

set_option autoImplicit false

namespace DriveDelta.Url

/-- Why a text is no URL. -/
inductive ParseError where
  | emptyHost
  /-- The host is no domain name that can be written in ASCII. -/
  | invalidDomain
  | invalidPort
  | invalidIpv4
  | invalidIpv6
  /-- The host of a URL that is not special holds a character that no host may hold. -/
  | invalidHostCharacter
  /-- There is no scheme. -/
  | noScheme
  deriving DecidableEq, Repr, Inhabited

def ParseError.message : ParseError → String
  | emptyHost => "empty host"
  | invalidDomain => "invalid international domain name"
  | invalidPort => "invalid port number"
  | invalidIpv4 => "invalid IPv4 address"
  | invalidIpv6 => "invalid IPv6 address"
  | invalidHostCharacter => "invalid domain character"
  | noScheme => "relative URL without a base"

end DriveDelta.Url
