import DriveDelta.Text.Canonical
import DriveDelta.Text.Direction
import DriveDelta.Text.Joining
import DriveDelta.Text.Unprinted
import DriveDelta.Url.Address
import DriveDelta.Url.Domain.Folding
import DriveDelta.Url.Punycode

/-!
# Domain names

A domain name may be written with characters of any script.  It is kept in ASCII and lower case: a
label with other characters is written in Punycode behind a mark.

## What is here

* `Url.foldName?`, a name in its canonical way of writing;
* `Url.Label` and `Url.readLabel?`, a label as it is shown and as it is kept;
* `Url.joinersFit` and `Url.directionsFit`, rules for labels of scripts whose letters join, and of
  those that run from right to left;
* `Url.domainName?`, a name as it is kept.
-/

set_option autoImplicit false

namespace DriveDelta.Url

open Text

/-! ## Characters -/

def isAscii (c : Char) : Bool := c.toNat < 0x80

/-- ASCII characters that no domain name may hold. -/
def isForbiddenInDomain (c : Char) : Bool :=
  c.toNat ≤ 0x20 || c.toNat == 0x7F ||
    ['%', '#', '/', ':', '<', '>', '?', '@', '[', '\\', ']', '^', '|'].contains c

/-- The character that keeps letters apart, and the one that joins them. -/
def isJoiner (c : Char) : Bool := c.toNat == 0x200C || c.toNat == 0x200D

/-- Characters that are printed but that no name may hold, as they hold a full stop or describe
other characters. -/
def misleading : CodeSet := .ofText
  "2024-2026 2488-249b 2ff0-2fff 31ef 33c2 33c7 33d8 fe12 fe19 fe30 fe52 fffc-fffd 1f100"

/-- The way in which a character is written in a name; none if no name may hold it. -/
def fold? (c : Char) : Option (List Char) :=
  if isAscii c then some [c.toLower]
  else
    match folded? c with
    | some cs => some cs
    | none => if !isJoiner c && (isUnprinted c || misleading.has c) then none else some [c]

/-- A name in its canonical way of writing; none if it holds a character that no name may hold. -/
def foldName? (cs : List Char) : Option (List Char) :=
  ((cs.mapM fold?).map fun parts => canonical parts.flatten).filter (!·.any isForbiddenInDomain)

/-! ## Labels -/

/-- A label of a domain name. -/
structure Label where
  /-- As it is shown to people. -/
  shown : List Char
  /-- As it is kept, in ASCII. -/
  kept : List Char
  deriving DecidableEq, Repr, Inhabited

/-- The mark of a label that is kept in Punycode. -/
def punycodeMark : List Char := ['x', 'n', '-', '-']

/-- The most characters of a label that is kept in Punycode, as it is shown. -/
def longestShown : Nat := 1000

/-- The most characters of a label that is read from Punycode, behind the mark. -/
def longestKept : Nat := 2000

/-- A label in its canonical way of writing; none if it stands for no label in Punycode. -/
def readLabel? (cs : List Char) : Option Label :=
  if punycodeMark.isPrefixOf cs then
    let digits := cs.drop 4
    if !cs.all isAscii || cs.getLast? = some '-' || longestKept < digits.length then none
    else do
      let shown ← Punycode.decode? digits
      if shown.all (fun c => fold? c == some [c]) && foldName? shown == some shown &&
          !shown.contains '.' then
        return ⟨shown, cs⟩
      else none
  else if cs.all isAscii then some ⟨cs, cs⟩
  else some ⟨cs, punycodeMark ++ Punycode.encode cs⟩

/-! ## Scripts whose letters join -/

/-- Whether the first letter, passing over marks, is of a kind. -/
def leadsTo (kind : Char → Bool) : List Char → Bool
  | [] => false
  | c :: rest => kind c || (isTransparent c && leadsTo kind rest)

/-- Whether a joiner may stand behind some characters, nearest first, and before others.  It may
stand behind a linker; the one that keeps letters apart also between letters that would join. -/
def joinerFits (c : Char) (before after : List Char) : Bool :=
  match before with
  | [] => false
  | b :: _ =>
    place b == linkerPlace ||
      (c.toNat == 0x200C && leadsTo joinsNext before && leadsTo joinsPrevious after)

/-- Whether every joiner may stand where it stands; the characters before are given nearest
first. -/
def joinersFit (before : List Char) : List Char → Bool
  | [] => true
  | c :: rest => (!isJoiner c || joinerFits c before rest) && joinersFit (c :: before) rest

/-! ## Scripts that run from right to left -/

/-- Whether a name holds anything that runs from right to left. -/
def runsBack (name : List (List Char)) : Bool :=
  name.any (·.any fun c => direction c == .rightToLeft || direction c == .arabicNumber)

/-- The directions of a label, without the marks at its end. -/
def directions (label : List Char) : List Direction :=
  ((label.map direction).reverse.dropWhile (· == .mark)).reverse

/-- Whether a label may stand in a name that holds anything that runs from right to left.  It begins
with a letter, and holds letters of that direction only; it ends in one of them or in a number; and
the two kinds of digits do not stand together. -/
def directionsFit (label : List Char) : Bool :=
  match label with
  | [] => true
  | c :: _ =>
    let ds := directions label
    let ending := ds.getLast?.getD .neutral
    match direction c with
    | .leftToRight =>
      !ds.contains .rightToLeft && !ds.contains .arabicNumber &&
        (ending == .leftToRight || ending == .europeanNumber)
    | .rightToLeft =>
      !ds.contains .leftToRight && !(ds.contains .arabicNumber && ds.contains .europeanNumber) &&
        ending != .neutral
    | _ => false

/-! ## Names -/

/-- Whether a label as it is shown obeys all rules for single labels. -/
def isFit (label : List Char) : Bool :=
  !label.head?.any isMark && joinersFit [] label &&
    (label.all isAscii || label.length ≤ longestShown)

/-- Put separators between texts. -/
def join (sep : List Char) : List (List Char) → List Char
  | [] => []
  | [s] => s
  | s :: rest => s ++ sep ++ join sep rest

/-- A name as it is kept; none if it is no domain name. -/
def domainName? (cs : List Char) : Option (List Char) := do
  let name ← foldName? cs
  let labels ← (splitAt '.' name).mapM readLabel?
  let shown := labels.map (·.shown)
  if shown.all isFit && (!runsBack shown || shown.all directionsFit) then
    return join ['.'] (labels.map (·.kept))
  else none

end DriveDelta.Url
