import DriveDelta.Double
import DriveDelta.Text.Blank

/-!
# Decimals

A decimal is a sign, digits, and the power of ten that they are multiplied by.  Its nearest double
is found from these three, whatever the way in which it was written.

## What is here

* `Decimal` and `Decimal.toDouble`;
* `Decimal.read?`, which reads digits, an optional fraction and an optional exponent.
-/

set_option autoImplicit false

namespace DriveDelta

/-- `digits * 10 ^ exponent`, with a sign. -/
structure Decimal where
  negative : Bool
  digits : Nat
  exponent : Int
  deriving DecidableEq, Repr, Inhabited

namespace Decimal

def toDouble (d : Decimal) : Double := .ofDecimal d.negative d.digits d.exponent

/-- The leading ASCII digits, and what follows them. -/
def spanDigits (cs : List Char) : List Char × List Char :=
  cs.span fun c => (Text.digit? c).isSome

/-- The number that digits continue. -/
def continued (n : Nat) (cs : List Char) : Nat := (Text.digitsFrom n cs).getD n

/-- An exponent behind its letter: an optional sign and digits. -/
def readExponent? : List Char → Option Int
  | '-' :: cs => if cs.isEmpty then none else (Text.digitsFrom 0 cs).map fun n => -(n : Int)
  | '+' :: cs => if cs.isEmpty then none else (Text.digitsFrom 0 cs).map Int.ofNat
  | cs => if cs.isEmpty then none else (Text.digitsFrom 0 cs).map Int.ofNat

/-- A decimal without its sign. -/
def readMagnitude? (negative : Bool) (cs : List Char) : Option Decimal := do
  let (whole, rest) := spanDigits cs
  let (fraction, rest) :=
    match rest with
    | '.' :: rest => spanDigits rest
    | rest => ([], rest)
  if whole.isEmpty && fraction.isEmpty then none
  let exponent ←
    match rest with
    | [] => some 0
    | 'e' :: rest | 'E' :: rest => readExponent? rest
    | _ => none
  return ⟨negative, continued (continued 0 whole) fraction, exponent - fraction.length⟩

/-- A decimal with an optional sign. -/
def read? : List Char → Option Decimal
  | '-' :: cs => readMagnitude? true cs
  | '+' :: cs => readMagnitude? false cs
  | cs => readMagnitude? false cs

/-- A double: a decimal, or the name of what is no finite number, with an optional sign. -/
def readDouble? (cs : List Char) : Option Double :=
  let signed (negative : Bool) (cs : List Char) : Option Double :=
    if cs = ['i', 'n', 'f'] then some ⟨negative, Double.infiniteMagnitude⟩
    else if cs = ['n', 'a', 'n'] then some .nan
    else (readMagnitude? negative cs).map toDouble
  match cs with
  | '-' :: cs => signed true cs
  | '+' :: cs => signed false cs
  | cs => signed false cs

end Decimal

end DriveDelta
