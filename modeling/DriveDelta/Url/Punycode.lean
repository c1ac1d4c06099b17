/-!
# Punycode

A label with characters outside ASCII is written in ASCII: first the characters that are in ASCII,
then, as numbers of varying length in base 36, where the others go.

## What is here

* `Punycode.encode` and `Punycode.decode?`.
-/

set_option autoImplicit false

namespace DriveDelta.Url.Punycode

/-- A digit in base 36: letters first. -/
def digit (n : Nat) : Char := if n < 26 then Char.ofNat (97 + n) else Char.ofNat (22 + n)

def value? (c : Char) : Option Nat :=
  if 'a' ≤ c ∧ c ≤ 'z' then some (c.toNat - 97)
  else if 'A' ≤ c ∧ c ≤ 'Z' then some (c.toNat - 65)
  else if '0' ≤ c ∧ c ≤ '9' then some (c.toNat - 22)
  else none

/-- Digits below the threshold end a number. -/
def threshold (position bias : Nat) : Nat := min (max (36 * (position + 1) - bias) 1) 26

/-- Divide until the number is small; returns how often, and the rest. -/
def reduce (delta : Nat) : Nat × Nat :=
  if 455 < delta then
    let r := reduce (delta / 35)
    (r.1 + 1, r.2)
  else (0, delta)
termination_by delta
decreasing_by omega

/-- The bias after a number, given how many characters are in place and whether it was the first. -/
def adapt (delta size : Nat) (first : Bool) : Nat :=
  let d := if first then delta / 700 else delta / 2
  let r := reduce (d + d / size)
  36 * r.1 + 36 * r.2 / (r.2 + 38)

/-- A number as digits, from a position on.  Thirteen positions hold every number that a label can
need. -/
def number (bias : Nat) : Nat → Nat → Nat → List Char
  | 0, _, _ => []
  | fuel + 1, position, n =>
    let t := threshold position bias
    if n < t then [digit n]
    else digit (t + (n - t) % (36 - t)) :: number bias fuel (position + 1) ((n - t) / (36 - t))

structure Encoder where
  out : List Char
  delta : Nat
  bias : Nat
  /-- How many characters are in place. -/
  placed : Nat

/-- Pass over one character of the label while placing the character with code `m`. -/
def Encoder.pass (basic m : Nat) (s : Encoder) (c : Char) : Encoder :=
  if c.toNat < m then { s with delta := s.delta + 1 }
  else if c.toNat = m then
    { out := s.out ++ number s.bias 13 0 s.delta
      delta := 0
      bias := adapt s.delta (s.placed + 1) (s.placed == basic)
      placed := s.placed + 1 }
  else s

/-- Place the characters with the given codes, in ascending order. -/
def place (label : List Char) (basic : Nat) : List Nat → Nat → Encoder → Encoder
  | [], _, s => s
  | m :: rest, n, s =>
    let s := { s with delta := s.delta + (m - n) * (s.placed + 1) }
    let s := label.foldl (Encoder.pass basic m) s
    place label basic rest (m + 1) { s with delta := s.delta + 1 }

/-- Insert into an ascending list without repetition. -/
def insert (n : Nat) : List Nat → List Nat
  | [] => [n]
  | m :: ms => if n < m then n :: m :: ms else if n = m then m :: ms else m :: insert n ms

/-- The ASCII form of a label, without its mark. -/
def encode (label : List Char) : List Char :=
  let basic := label.filter (·.toNat < 128)
  let others := label.filter (128 ≤ ·.toNat)
  let codes := (others.map (·.toNat)).foldr insert []
  let s := place label basic.length codes 128 ⟨[], 0, 72, basic.length⟩
  basic ++ (if basic.isEmpty then [] else ['-']) ++ s.out

structure Decoder where
  out : List Char
  /-- The code of the next character. -/
  code : Nat
  /-- Where it goes. -/
  index : Nat
  bias : Nat
  /-- The number that is being read: where it began, its weight and its position. -/
  before : Nat
  weight : Nat
  position : Nat

/-- Numbers are kept in 32 bits. -/
def greatest : Nat := 0xFFFFFFFF

/-- One digit. -/
def Decoder.read (s : Decoder) (c : Char) : Option Decoder := do
  let d ← value? c
  let index := s.index + d * s.weight
  let t := threshold s.position s.bias
  if greatest < index then none
  if d < t then
    let size := s.out.length + 1
    let code := s.code + index / size
    if 0x10FFFF < code || (0xD800 ≤ code && code ≤ 0xDFFF) then none
    let at_ := index % size
    return {
      out := s.out.take at_ ++ Char.ofNat code :: s.out.drop at_
      code
      index := at_ + 1
      bias := adapt (index - s.before) size (s.before == 0)
      before := at_ + 1
      weight := 1
      position := 0 }
  else if greatest < s.weight * (36 - t) then none
  else
    return { s with index, weight := s.weight * (36 - t), position := s.position + 1 }

/-- The label whose ASCII form, without its mark, is given.  The hyphen before the numbers is not
the first character. -/
def decode? (cs : List Char) : Option (List Char) := do
  let tail := (cs.reverse.takeWhile (· ≠ '-')).reverse
  let head := cs.take (cs.length - tail.length)
  if head = ['-'] then none
  let basic := head.dropLast
  let s ← tail.foldlM Decoder.read ⟨basic, 128, 0, 72, 0, 1, 0⟩
  if s.position = 0 && s.weight = 1 then some s.out else none

end DriveDelta.Url.Punycode
