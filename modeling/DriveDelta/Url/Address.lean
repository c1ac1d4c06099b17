import DriveDelta.Url.Error

/-!
# Numeric hosts

A host whose last part is a number is an IPv4 address, in any of the ways to write one; a host
between brackets is an IPv6 address.

## What is here

* `Url.splitAt`, the pieces between separators;
* `Url.endsInNumber` and `Url.parseIpv4`; `Url.ipv4Text`;
* `Url.parseIpv6` and `Url.ipv6Text`, which leaves out the longest run of zeros.
-/

set_option autoImplicit false

namespace DriveDelta.Url

/-- The pieces between occurrences of a separator. -/
def splitAt (sep : Char) : List Char → List (List Char)
  | [] => [[]]
  | c :: cs =>
    if c = sep then [] :: splitAt sep cs
    else
      match splitAt sep cs with
      | s :: rest => (c :: s) :: rest
      | [] => [[c]]

/-- The value of a digit in a base of at most sixteen. -/
def digitIn? (base : Nat) (c : Char) : Option Nat :=
  let d? :=
    if '0' ≤ c ∧ c ≤ '9' then some (c.toNat - 48)
    else if 'a' ≤ c ∧ c ≤ 'f' then some (c.toNat - 87)
    else if 'A' ≤ c ∧ c ≤ 'F' then some (c.toNat - 55)
    else none
  d?.filter (· < base)

/-- The number that digits in a base continue. -/
def numberIn? (base n : Nat) : List Char → Option Nat
  | [] => some n
  | c :: cs => (digitIn? base c).bind fun d => numberIn? base (n * base + d) cs

/-! ## IPv4 -/

/-- A part of an IPv4 address: hexadecimal behind `0x`, octal behind `0`, else decimal. -/
def ipv4Number? : List Char → Option Nat
  | [] => none
  | '0' :: 'x' :: cs | '0' :: 'X' :: cs => numberIn? 16 0 cs
  | '0' :: c :: cs => numberIn? 8 0 (c :: cs)
  | cs => numberIn? 10 0 cs

/-- The parts of a host, without an empty one at the end. -/
def hostParts (cs : List Char) : List (List Char) :=
  let parts := splitAt '.' cs
  if 1 < parts.length && parts.getLast? = some [] then parts.dropLast else parts

/-- Whether a host can only be an IPv4 address. -/
def endsInNumber (cs : List Char) : Bool :=
  match (hostParts cs).getLast? with
  | some (c :: rest) => (c :: rest).all (·.isDigit) || (ipv4Number? (c :: rest)).isSome
  | _ => false

/-- The address of up to four parts; the last one fills all the bytes that are left. -/
def parseIpv4 (cs : List Char) : Except ParseError Nat :=
  match (hostParts cs).mapM ipv4Number? with
  | none => .error .invalidIpv4
  | some numbers =>
    let before := numbers.dropLast
    match numbers.getLast? with
    | none => .error .invalidIpv4
    | some last =>
      if 3 < before.length || before.any (255 < ·) || Nat.pow 256 (4 - before.length) ≤ last then
        .error .invalidIpv4
      else
        .ok (before.zipIdx.foldl (fun sum n => sum + n.1 * Nat.pow 256 (3 - n.2)) last)

def ipv4Text (n : Nat) : List Char :=
  ((toString (n / 0x1000000 % 256)) ++ "." ++ toString (n / 0x10000 % 256) ++ "." ++
    toString (n / 256 % 256) ++ "." ++ toString (n % 256)).toList

/-! ## IPv6 -/

/-- A group of one to four hexadecimal digits. -/
def hexGroup? (cs : List Char) : Option Nat :=
  if cs.isEmpty || 4 < cs.length then none else numberIn? 16 0 cs

/-- A decimal byte without a leading zero. -/
def decimalByte? (cs : List Char) : Option Nat :=
  if cs.isEmpty || 3 < cs.length || (1 < cs.length && cs.head? = some '0') then none
  else (numberIn? 10 0 cs).filter (· < 256)

/-- The two groups of an IPv4 address written with dots. -/
def dottedGroups? (cs : List Char) : Option (List Nat) :=
  match (splitAt '.' cs).mapM decimalByte? with
  | some [a, b, c, d] => some [a * 256 + b, c * 256 + d]
  | _ => none

/-- Groups separated by colons; the last may be an IPv4 address if `dotted`. -/
def groups? (dotted : Bool) : List (List Char) → Option (List Nat)
  | [] => some []
  | [s] => if dotted && s.contains '.' then dottedGroups? s else (hexGroup? s).map ([·])
  | s :: rest => do return (← hexGroup? s) :: (← groups? dotted rest)

/-- The groups of one side of a double colon. -/
def side? (dotted : Bool) (cs : List Char) : Option (List Nat) :=
  if cs.isEmpty then some [] else groups? dotted (splitAt ':' cs)

/-- The text before the first double colon and behind it. -/
def splitDoubleColon : List Char → Option (List Char × List Char)
  | ':' :: ':' :: rest => some ([], rest)
  | c :: cs => (splitDoubleColon cs).map fun r => (c :: r.1, r.2)
  | [] => none

/-- The eight groups of an address. -/
def parseIpv6 (cs : List Char) : Except ParseError (List Nat) :=
  let groups : Option (List Nat) :=
    match splitDoubleColon cs with
    | none => (side? true cs).filter (·.length == 8)
    | some (l, r) => do
      let before ← side? false l
      let after ← side? true r
      if 7 < before.length + after.length then none
      else some (before ++ List.replicate (8 - before.length - after.length) 0 ++ after)
  match groups with
  | some gs => .ok gs
  | none => .error .invalidIpv6

/-- How many zeros a list begins with. -/
def zeros (gs : List Nat) : Nat := (gs.takeWhile (· == 0)).length

/-- The start and length of the longest run of zeros, the first one if there are several. -/
def longestZeros : List Nat → Nat × Nat
  | [] => (0, 0)
  | g :: gs =>
    let r := longestZeros gs
    if r.2 ≤ zeros (g :: gs) then (0, zeros (g :: gs)) else (r.1 + 1, r.2)

def hexText (n : Nat) : List Char := Nat.toDigits 16 n

/-- Groups with colons between them. -/
def colonText : List Nat → List Char
  | [] => []
  | [g] => hexText g
  | g :: gs => hexText g ++ ':' :: colonText gs

/-- An address between brackets.  A run of at least two zeros is left out. -/
def ipv6Text (gs : List Nat) : List Char :=
  let (start, count) := longestZeros gs
  let inside :=
    if count < 2 then colonText gs
    else colonText (gs.take start) ++ [':', ':'] ++ colonText (gs.drop (start + count))
  '[' :: inside ++ [']']

end DriveDelta.Url
