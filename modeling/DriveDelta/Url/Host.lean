import DriveDelta.Url.Domain
import DriveDelta.Url.Percent

/-!
# Hosts

## What is here

* `Url.domainText`, a domain name as it is kept;
* `Url.readHost`, the host of a special URL, and `Url.readOpaqueHost`, that of any other, each as it
  is written.
-/

set_option autoImplicit false

namespace DriveDelta.Url

/-- A domain name as it is kept. -/
def domainText (bytes : Bytes) : Except ParseError (List Char) :=
  match (Utf8.decode? bytes).bind domainName? with
  | some name => .ok name
  | none => .error .invalidDomain

/-- The host between brackets. -/
def readBracketed (cs : List Char) : Except ParseError (List Char) :=
  if cs.getLast? = some ']' then do
    let groups ← parseIpv6 (cs.drop 1).dropLast
    return ipv6Text groups
  else .error .invalidIpv6

/-- The host of a special URL: an address or a domain name. -/
def readHost (cs : List Char) : Except ParseError (List Char) :=
  if cs.head? = some '[' then readBracketed cs
  else do
    let domain ← domainText (percentDecode cs)
    if domain.isEmpty then .error .emptyHost
    else if endsInNumber domain then return ipv4Text (← parseIpv4 domain)
    else return domain

/-- Characters that the host of no URL may hold. -/
def isForbiddenInHost (c : Char) : Bool :=
  c.toNat == 0 || ['\t', '\n', '\r', ' ', '#', '/', ':', '<', '>', '?', '@', '[', '\\', ']', '^',
    '|'].contains c

/-- The host of a URL that is not special: an address, or a text of which nothing is known. -/
def readOpaqueHost (cs : List Char) : Except ParseError (List Char) :=
  if cs.head? = some '[' then readBracketed cs
  else if cs.any isForbiddenInHost then .error .invalidHostCharacter
  else .ok (percentEncode inControls cs)

end DriveDelta.Url
