/-!
# Sets of characters

A set of characters is a list of ranges of code points.  A long one is written as a text: the ranges
in hexadecimal, in lower case, with blanks or line ends between them.

## What is here

* `CodeSet`, `CodeSet.has` and `CodeSet.ofText`;
* `CodeSet.words` and `CodeSet.hex`, with which such a text is read.
-/

set_option autoImplicit false

namespace DriveDelta

/-- Ranges of code points, both ends included. -/
abbrev CodeSet := List (Nat × Nat)

namespace CodeSet

/-- Whether a character is in a set. -/
def has (s : CodeSet) (c : Char) : Bool := s.any fun r => r.1 ≤ c.toNat && c.toNat ≤ r.2

/-! ## Reading -/

/-- The words between characters that separate them.  There are no empty words. -/
def words (isSeparator : Char → Bool) (cs : List Char) : List (List Char) :=
  let close (r : List Char × List (List Char)) : List (List Char) :=
    if r.1.isEmpty then r.2 else r.1.reverse :: r.2
  let r := cs.foldl (fun r c => if isSeparator c then ([], close r) else (c :: r.1, r.2)) ([], [])
  (close r).reverse

/-- A blank or a line end. -/
def isGap (c : Char) : Bool := c == ' ' || c == '\n'

/-- The number that hexadecimal digits in lower case stand for. -/
def hex (cs : List Char) : Nat :=
  cs.foldl (fun n c => n * 16 + (if c ≤ '9' then c.toNat - 48 else c.toNat - 87)) 0

/-- A range: its ends with a hyphen between them, or one code point. -/
def range (w : List Char) : Nat × Nat :=
  let (first, last) := w.span (· ≠ '-')
  (hex first, hex (if last.isEmpty then first else last.drop 1))

/-- The set that a text stands for. -/
def ofText (s : String) : CodeSet := (words isGap s.toList).map range

end CodeSet

end DriveDelta
