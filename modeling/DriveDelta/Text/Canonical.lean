import DriveDelta.Text.Composite

/-!
# Canonical texts

The same characters can be written in several ways: a base and its marks apart or composed, and
marks in different places in either order.  The canonical way has the marks in the order of their
places and composes whatever can be composed.

## What is here

* `Text.decompose`, `Text.arrange` and `Text.compose`, the three steps; `Text.arrange_perm` says that
  the second one loses nothing;
* `Text.canonical`, the canonical way to write a text.
-/

set_option autoImplicit false

namespace DriveDelta.Text

/-- No character has more parts than this. -/
def mostParts : Nat := 4

/-- The parts of a character, and the parts of its base, and so on. -/
def decomposeChar : Nat → Char → List Char
  | 0, c => [c]
  | n + 1, c =>
    match parts? c with
    | some (base, mark) => decomposeChar n base ++ [mark]
    | none => [c]

def decompose (cs : List Char) : List Char := cs.flatMap (decomposeChar mostParts)

/-- Put a mark before others, but behind those that are written in an earlier place. -/
def insertMark (c : Char) : List Char → List Char
  | [] => [c]
  | d :: rest =>
    if place d ≠ 0 ∧ place d < place c then d :: insertMark c rest else c :: d :: rest

/-- Put the marks behind each base into the order of their places. -/
def arrange (cs : List Char) : List Char := cs.foldr insertMark []

theorem insertMark_perm (c : Char) : ∀ cs : List Char, (insertMark c cs).Perm (c :: cs)
  | [] => .refl _
  | d :: rest => by
    unfold insertMark
    split
    · exact ((insertMark_perm c rest).cons d).trans (.swap c d rest)
    · exact .refl _

/-- Nothing is lost when marks are put in order. -/
theorem arrange_perm (cs : List Char) : (arrange cs).Perm cs := by
  induction cs with
  | nil => exact .refl _
  | cons c rest ih => exact (insertMark_perm c (arrange rest)).trans (ih.cons c)

/-- A text that is being composed. -/
structure Composer where
  /-- What is done with, last character first. -/
  done : List Char := []
  /-- The base that a mark may be composed with. -/
  base : Option Char := none
  /-- Marks behind the base that could not be composed with it, last one first. -/
  marks : List Char := []

namespace Composer

/-- All characters, last one first. -/
def all (s : Composer) : List Char := s.marks ++ s.base.toList ++ s.done

/-- Whether something between the base and a character keeps them apart. -/
def keepsApart (s : Composer) (c : Char) : Bool :=
  match s.marks with
  | [] => false
  | m :: _ => place c ≤ place m

/-- Compose a character with the base, or put it behind the marks; what is no mark is a new base. -/
def add (s : Composer) (c : Char) : Composer :=
  let whole? := if s.keepsApart c then none else s.base.bind (Text.whole? · c)
  match whole? with
  | some whole => { s with base := some whole }
  | none =>
    if place c = 0 then { done := s.all, base := some c }
    else { s with marks := c :: s.marks }

end Composer

/-- Compose what can be composed. -/
def compose (cs : List Char) : List Char :=
  (cs.foldl Composer.add {}).all.reverse

/-- The canonical way to write a text. -/
def canonical (cs : List Char) : List Char := compose (arrange (decompose cs))

end DriveDelta.Text
