/-!
# Blank characters

## What is here

* `Text.isBlank`, the characters of the Unicode property `White_Space`, and `Text.trim`;
* `Text.digit?`, an ASCII digit, and `Text.natural?`, a whole number in ASCII digits;
* `Text.sameIgnoringCase`, equality up to the case of ASCII letters.
-/

set_option autoImplicit false

namespace DriveDelta.Text

/-- The characters of the Unicode property `White_Space`. -/
def isBlank (c : Char) : Bool :=
  let n := c.toNat
  (0x9 ≤ n && n ≤ 0xD) || n == 0x20 || n == 0x85 || n == 0xA0 || n == 0x1680 ||
    (0x2000 ≤ n && n ≤ 0x200A) || n == 0x2028 || n == 0x2029 || n == 0x202F || n == 0x205F ||
    n == 0x3000

/-- A list of characters without the blanks at both ends. -/
def trim (cs : List Char) : List Char :=
  ((cs.dropWhile isBlank).reverse.dropWhile isBlank).reverse

/-- The value of an ASCII digit. -/
def digit? (c : Char) : Option Nat :=
  if '0' ≤ c ∧ c ≤ '9' then some (c.toNat - '0'.toNat) else none

/-- The number that ASCII digits continue. -/
def digitsFrom (n : Nat) : List Char → Option Nat
  | [] => some n
  | c :: cs => (digit? c).bind fun d => digitsFrom (n * 10 + d) cs

/-- A whole number: one or more ASCII digits, with an optional plus sign before them. -/
def natural? : List Char → Option Nat
  | [] => none
  | ['+'] => none
  | '+' :: cs => digitsFrom 0 cs
  | cs => digitsFrom 0 cs

/-- Equality up to the case of ASCII letters. -/
def sameIgnoringCase (s t : String) : Bool :=
  s.toList.map Char.toLower == t.toList.map Char.toLower

end DriveDelta.Text
