import DriveDelta.Nanos

/-!
# Double precision numbers

A double is a sign and a magnitude, where the magnitude is the low 63 bits of the interchange
format read as one number.  That number grows with the absolute value: the finite magnitudes come
first, then infinity, and every larger one means that there is no number.  A finite double is a
whole multiple of the smallest positive one, so every operation here is one step of exact
arithmetic on whole numbers followed by one rounding, `Double.round`, to the nearest double with
ties to the even neighbour.

## What is here

* `Double`, with `isNaN`, `isInfinite`, `isFinite`, and `bits`, the interchange format;
* `Double.units`, the size of a finite double as a multiple of the smallest one, and
  `Double.value`, its exact value;
* `Double.round`, the nearest double to a quotient, and the arithmetic built on it;
* `Double.max` and `Double.min`, which return the other operand when one is not a number;
* `Double.ofDecimal`, the nearest double to a decimal, and `Double.nanos?`, the nearest nanosecond
  to a double number of seconds.
-/

set_option autoImplicit false

namespace DriveDelta

/-- The quotient of two whole numbers rounded to the nearest whole number, a half to the even
neighbour. -/
def roundHalfEven (num den : Nat) : Nat :=
  let q := num / den
  let r := num % den
  if 2 * r < den then q
  else if den < 2 * r then q + 1
  else if q % 2 = 0 then q else q + 1

/-- A sign and the low 63 bits of the interchange format. -/
structure Double where
  negative : Bool
  magnitude : Nat
  deriving DecidableEq, Repr, Inhabited

namespace Double

/-- The magnitude of infinity. -/
def infiniteMagnitude : Nat := 0x7ff0000000000000

/-- How many magnitudes have the same exponent. -/
def binade : Nat := 0x10000000000000

/-- The reciprocal of the smallest positive double. -/
def one : Nat := Nat.pow 2 1074

def isNaN (x : Double) : Bool := infiniteMagnitude < x.magnitude
def isInfinite (x : Double) : Bool := x.magnitude == infiniteMagnitude
def isFinite (x : Double) : Bool := x.magnitude < infiniteMagnitude

def nan : Double := ⟨false, 0x7ff8000000000000⟩
def infinity : Double := ⟨false, infiniteMagnitude⟩
def zero : Double := ⟨false, 0⟩

def neg (x : Double) : Double := ⟨!x.negative, x.magnitude⟩

/-- The interchange format. -/
def bits (x : Double) : Nat := (if x.negative then 0x8000000000000000 else 0) + x.magnitude

/-- A finite magnitude as a multiple of the smallest positive double. -/
def unitsOf (m : Nat) : Nat :=
  if m < binade then m else (binade + m % binade) * Nat.pow 2 (m / binade - 1)

/-- The absolute value of a finite double as a multiple of the smallest positive one. -/
def units (x : Double) : Nat := unitsOf x.magnitude

/-- A finite double as a multiple of the smallest positive one. -/
def signedUnits (x : Double) : Int := if x.negative then -(x.units : Int) else x.units

/-- The exact value of a finite double. -/
def value (x : Double) : Rat := mkRat x.signedUnits one

/-- The magnitude nearest to `num / den` smallest doubles. -/
def roundMagnitude (num den : Nat) : Nat :=
  let shift := (num / den).log2 - 52
  min infiniteMagnitude (shift * binade + roundHalfEven num (den * Nat.pow 2 shift))

/-- The double nearest to `num / den`, with the given sign. -/
def round (negative : Bool) (num den : Nat) : Double :=
  ⟨negative, roundMagnitude (num * one) den⟩

/-- The double nearest to a whole number of smallest doubles; a zero has the sign given for it. -/
def ofSignedUnits (zeroSign : Bool) (n : Int) : Double :=
  ⟨if n = 0 then zeroSign else n < 0, roundMagnitude n.natAbs 1⟩

def ofNat (n : Nat) : Double := round false n 1

/-! ## Arithmetic -/

def add (x y : Double) : Double :=
  if x.isNaN || y.isNaN then nan
  else if x.isInfinite then
    if y.isInfinite && x.negative != y.negative then nan else x
  else if y.isInfinite then y
  else ofSignedUnits (x.negative && y.negative) (x.signedUnits + y.signedUnits)

def sub (x y : Double) : Double := add x y.neg

def mul (x y : Double) : Double :=
  let negative := x.negative != y.negative
  if x.isNaN || y.isNaN then nan
  else if x.isInfinite || y.isInfinite then
    if x.magnitude = 0 || y.magnitude = 0 then nan else ⟨negative, infiniteMagnitude⟩
  else ⟨negative, roundMagnitude (x.units * y.units) one⟩

def div (x y : Double) : Double :=
  let negative := x.negative != y.negative
  if x.isNaN || y.isNaN then nan
  else if x.isInfinite then if y.isInfinite then nan else ⟨negative, infiniteMagnitude⟩
  else if y.isInfinite then ⟨negative, 0⟩
  else if y.magnitude = 0 then
    if x.magnitude = 0 then nan else ⟨negative, infiniteMagnitude⟩
  else round negative x.units y.units

/-! ## Order -/

/-- A whole number in the order of the doubles; both zeros are `0`. -/
def rank (x : Double) : Int := if x.negative then -(x.magnitude : Int) else x.magnitude

/-- Strictly less; false when either is not a number. -/
def lt (x y : Double) : Bool := !x.isNaN && !y.isNaN && x.rank < y.rank

/-- Less or equal; false when either is not a number. -/
def le (x y : Double) : Bool := !x.isNaN && !y.isNaN && x.rank ≤ y.rank

/-- The larger one, or the other one when one is not a number. -/
def max (x y : Double) : Double :=
  if x.isNaN then y else if y.isNaN then x else if x.lt y then y else x

/-- The smaller one, or the other one when one is not a number. -/
def min (x y : Double) : Double :=
  if x.isNaN then y else if y.isNaN then x else if y.lt x then y else x

/-! ## Decimals and spans -/

/-- The double nearest to `digits * 10 ^ exponent`.  The two outer branches answer decimals far
outside the range of the finite doubles without building their powers of ten. -/
def ofDecimal (negative : Bool) (digits : Nat) (exponent : Int) : Double :=
  if digits = 0 then ⟨negative, 0⟩
  else
    let size : Int := digits.log2 / 4 + exponent
    if 400 < size then ⟨negative, infiniteMagnitude⟩
    else if exponent < 0 then
      if digits.log2 / 3 + 1 + exponent < -400 then ⟨negative, 0⟩
      else round negative digits (Nat.pow 10 exponent.natAbs)
    else round negative (digits * Nat.pow 10 exponent.natAbs) 1

/-- A span in seconds: the whole seconds as a double, plus the rest as a double over a billion. -/
def seconds (d : Nat) : Double :=
  add (ofNat (Nanos.wholeSeconds d)) (div (ofNat (Nanos.subsecond d)) (ofNat Nanos.second))

/-- The nearest nanosecond to a number of seconds, a half to the even neighbour; none for a
negative number, for what is not finite, and for what is longer than the longest span. -/
def nanos? (x : Double) : Option Nat :=
  if !x.isFinite then none
  else if x.negative && x.magnitude != 0 then none
  else
    let n := roundHalfEven (x.units * Nanos.second) one
    if n ≤ Nanos.longest then some n else none

end Double

end DriveDelta
