import DriveDelta.Double
import DriveDelta.Text.Utf8

/-!
# JSON values

A JSON text is first read for its syntax alone.  What syntax leaves open stays open in the value:
a string is kept in pieces, some of which may be no part of any text, and a number in its digits,
whatever its size.  Who needs the string, or a number that can be stored, asks for it and may be
refused.

## What is here

* `Json`, with `Json.Piece` and `Json.Numeral`, and `Json.get?`, the last member of a name;
* `Json.textOf?`, the text that pieces stand for;
* `Json.Numeral.isStorable`, whether a number is finite as it is stored;
* `Json.isStorable`, whether a value can be stored: its strings are texts, its numbers storable,
  and it is not nested too deep.
-/

set_option autoImplicit false

namespace DriveDelta

namespace Json

/-- A part of a string: a byte that stands for itself, or the UTF-16 unit that an escape names. -/
inductive Piece where
  | byte (b : UInt8)
  | unit (n : Nat)
  deriving DecidableEq, Repr, Inhabited

/-- A number as written: its sign, the whole part, the digits behind the point, the exponent. -/
structure Numeral where
  negative : Bool
  whole : Nat
  fraction : List Nat
  exponent : Int
  deriving DecidableEq, Repr, Inhabited

end Json

/-- A JSON value. -/
inductive Json where
  | null
  | bool (b : Bool)
  | number (n : Json.Numeral)
  | string (s : List Json.Piece)
  | array (items : List Json)
  | object (members : List (List Json.Piece × Json))
  deriving Repr, Inhabited

namespace Json

/-! ## Strings -/

/-- The bytes of a code point. -/
def bytesOf (code : Nat) : Bytes := String.utf8EncodeChar (Char.ofNat code)

/-- The bytes that pieces stand for.  The two halves of a surrogate pair have to follow each
other. -/
def bytes? : List Piece → Option Bytes
  | [] => some []
  | .byte b :: rest => (bytes? rest).map (b :: ·)
  | .unit n :: rest =>
    if 0xD800 ≤ n ∧ n ≤ 0xDBFF then
      match rest with
      | .unit m :: rest' =>
        if 0xDC00 ≤ m ∧ m ≤ 0xDFFF then
          (bytes? rest').map (bytesOf (0x10000 + (n - 0xD800) * 0x400 + (m - 0xDC00)) ++ ·)
        else none
      | _ => none
    else if 0xDC00 ≤ n ∧ n ≤ 0xDFFF then none
    else (bytes? rest).map (bytesOf n ++ ·)

/-- The text that pieces stand for. -/
def textOf? (s : List Piece) : Option String :=
  ((bytes? s).bind Utf8.decode?).map String.ofList

/-! ## Numbers -/

namespace Numeral

/-- The largest significand that is kept exactly. -/
def maxSignificand : Nat := 0xFFFFFFFFFFFFFFFF

/-- Append digits to a significand until one no longer fits; returns how many did. -/
def absorb (s : Nat) : List Nat → Nat × Nat
  | [] => (s, 0)
  | d :: ds =>
    if maxSignificand < s * 10 + d then (s, 0)
    else
      let r := absorb (s * 10 + d) ds
      (r.1, r.2 + 1)

/-- The decimal digits of a number, first digit first. -/
def digitsOf (n : Nat) : List Nat := (Nat.toDigits 10 n).map fun c => c.toNat - '0'.toNat

/-- The largest power of ten that is a double. -/
def maxPower : Int := 308

/-- Whether a number is finite as it is stored.  The significand, as far as it is kept, and the power
of ten are rounded to doubles and multiplied, so that a number just below the largest double may be
refused. -/
def isStorable (n : Numeral) : Bool :=
  let digits := digitsOf n.whole
  let (s, kept) := absorb 0 digits
  let dropped := digits.length - kept
  let (s, places) := absorb s n.fraction
  let exponent : Int := dropped - places + n.exponent
  s == 0 || exponent ≤ 0 ||
    (exponent ≤ maxPower && (Double.mul (.ofNat s) (.ofDecimal false 1 exponent)).isFinite)

end Numeral

/-! ## Objects -/

/-- The value of the last member whose name is the given text. -/
def get? (members : List (List Piece × Json)) (name : String) : Option Json :=
  (members.reverse.find? fun m => textOf? m.1 == some name).map (·.2)

/-- How many members have the given name. -/
def count (members : List (List Piece × Json)) (name : String) : Nat :=
  members.countP fun m => textOf? m.1 == some name

/-! ## Storable values -/

mutual

/-- Whether a value can be stored within `levels` levels of arrays and objects. -/
def isStorable (levels : Nat) : Json → Bool
  | null | bool _ => true
  | number n => n.isStorable
  | string s => (textOf? s).isSome
  | array items => 0 < levels && allStorable (levels - 1) items
  | object members => 0 < levels && membersStorable (levels - 1) members

def allStorable (levels : Nat) : List Json → Bool
  | [] => true
  | v :: vs => isStorable levels v && allStorable levels vs

def membersStorable (levels : Nat) : List (List Piece × Json) → Bool
  | [] => true
  | (k, v) :: ms => (textOf? k).isSome && isStorable levels v && membersStorable levels ms

end

end Json

end DriveDelta
