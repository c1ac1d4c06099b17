import DriveDelta.Text.Utf8

/-!
# Percent encoding

A character that may not stand for itself in a part of a URL is written as its UTF-8 bytes, each as
a percent sign and two hexadecimal digits.  Which characters those are depends on the part.

## What is here

* the sets of characters that are encoded: `Url.inFragment`, `Url.inQuery`, `Url.inSpecialQuery`,
  `Url.inPath`, `Url.inSegment`, `Url.inSpecialSegment`, `Url.inUserinfo`;
* `Url.percentEncode` and `Url.percentDecode`.
-/

set_option autoImplicit false

namespace DriveDelta.Url

/-- Controls, and what is not ASCII. -/
def inControls (c : Char) : Bool := c.toNat < 0x20 || 0x7E < c.toNat

def inFragment (c : Char) : Bool := inControls c || [' ', '"', '<', '>', '`'].contains c

def inQuery (c : Char) : Bool := inControls c || [' ', '"', '#', '<', '>'].contains c

def inSpecialQuery (c : Char) : Bool := inQuery c || c == '\''

def inPath (c : Char) : Bool := inFragment c || ['#', '?', '\x7b', '\x7d'].contains c

/-- For a segment that is added to a path as a whole. -/
def inSegment (c : Char) : Bool := inPath c || ['/', '%'].contains c

def inSpecialSegment (c : Char) : Bool := inSegment c || c == '\\'

def inUserinfo (c : Char) : Bool :=
  inPath c || ['/', ':', ';', '=', '@', '[', '\\', ']', '^', '|'].contains c

/-- An upper-case hexadecimal digit. -/
def hexDigit (n : Nat) : Char := if n < 10 then Char.ofNat (48 + n) else Char.ofNat (55 + n)

/-- The value of a hexadecimal digit of either case. -/
def hexValue? (c : Char) : Option Nat :=
  if '0' ≤ c ∧ c ≤ '9' then some (c.toNat - 48)
  else if 'A' ≤ c ∧ c ≤ 'F' then some (c.toNat - 55)
  else if 'a' ≤ c ∧ c ≤ 'f' then some (c.toNat - 87)
  else none

def encodeByte (b : UInt8) : List Char := ['%', hexDigit (b.toNat / 16), hexDigit (b.toNat % 16)]

/-- One character: itself, or its bytes if it is in the set. -/
def encodeChar (set : Char → Bool) (c : Char) : List Char :=
  if set c then (String.utf8EncodeChar c).flatMap encodeByte else [c]

def percentEncode (set : Char → Bool) (cs : List Char) : List Char := cs.flatMap (encodeChar set)

/-- The bytes that a text stands for.  A percent sign without two digits stands for itself. -/
def percentDecode : List Char → Bytes
  | [] => []
  | '%' :: h :: l :: rest =>
    match hexValue? h, hexValue? l with
    | some a, some b => UInt8.ofNat (a * 16 + b) :: percentDecode rest
    | _, _ => String.utf8EncodeChar '%' ++ percentDecode (h :: l :: rest)
  | c :: rest => String.utf8EncodeChar c ++ percentDecode rest

end DriveDelta.Url
