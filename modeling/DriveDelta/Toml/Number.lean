import DriveDelta.Text.Decimal
import DriveDelta.Toml.Text
import DriveDelta.Toml.Value

/-!
# TOML numbers, dates and times

Digits may have single underscores between them.  A whole number has 64 bits with its sign; a number
with a point or an exponent is the nearest double, unless that is positive infinity.

## What is here

* `Toml.digits?`, digits in a base;
* `Toml.integer?` and `Toml.decimal?`, the range of whole numbers and the parts of a fraction;
* `Toml.number?`, a number of any kind;
* `Toml.moment?`, a date, a time, or both.
-/

set_option autoImplicit false

namespace DriveDelta.Toml

/-- More digits behind a number `n` of `k` digits; an underscore must have a digit behind it. -/
def moreDigits? (base n k : Nat) : Reader (Nat × Nat)
  | '_' :: c :: cs => (digit? base c).bind fun d => moreDigits? base (n * base + d) (k + 1) cs
  | ['_'] => none
  | c :: cs =>
    match digit? base c with
    | some d => moreDigits? base (n * base + d) (k + 1) cs
    | none => some ((n, k), c :: cs)
  | [] => some ((n, k), [])

/-- A number in digits of a base, and how many they are. -/
def digits? (base : Nat) : Reader (Nat × Nat)
  | c :: cs => (digit? base c).bind fun d => moreDigits? base d 1 cs
  | [] => none

/-- The whole part of a decimal number: a zero has no digit behind it. -/
def whole? : Reader Nat
  | '0' :: cs => some (0, cs)
  | cs => (digits? 10 cs).map fun ((n, _), rest) => (n, rest)

/-- The whole numbers are those of 64 bits with a sign. -/
def integer? (n : Int) : Option Value :=
  if -0x8000000000000000 ≤ n ∧ n < 0x8000000000000000 then some (.integer n) else none

/-- The digits of an exponent behind its letter. -/
def exponent? : Reader Int
  | '-' :: cs => (digits? 10 cs).map fun ((n, _), rest) => (-(n : Int), rest)
  | '+' :: cs => (digits? 10 cs).map fun ((n, _), rest) => ((n : Int), rest)
  | cs => (digits? 10 cs).map fun ((n, _), rest) => ((n : Int), rest)

/-- An exponent, if one follows. -/
def optionalExponent? : Reader Int
  | 'e' :: cs => exponent? cs
  | 'E' :: cs => exponent? cs
  | cs => some (0, cs)

/-- The value of a decimal with a point or an exponent; what is too large has none. -/
def float? (d : Decimal) : Option Value :=
  let x := d.toDouble
  if x = .infinity then none else some (.float x)

/-- A decimal number behind its sign. -/
def decimal? (negative : Bool) (cs : List Char) : Option (Value × List Char) := do
  let (n, rest) ← whole? cs
  match rest with
  | '.' :: rest =>
    let ((f, k), rest) ← digits? 10 rest
    let (e, rest) ← optionalExponent? rest
    let v ← float? ⟨negative, n * Nat.pow 10 k + f, e - k⟩
    return (v, rest)
  | 'e' :: rest | 'E' :: rest =>
    let (e, rest) ← exponent? rest
    let v ← float? ⟨negative, n, e⟩
    return (v, rest)
  | rest =>
    let v ← integer? (if negative then -(n : Int) else n)
    return (v, rest)

/-- A whole number in another base, behind the letter of the base. -/
def based? (base : Nat) (cs : List Char) : Option (Value × List Char) := do
  let ((n, _), rest) ← digits? base cs
  let v ← integer? n
  return (v, rest)

/-- A number behind its sign: infinity, what is not a number, or decimal. -/
def signed? (negative : Bool) : Reader Value
  | 'i' :: 'n' :: 'f' :: cs => some (.float ⟨negative, Double.infiniteMagnitude⟩, cs)
  | 'n' :: 'a' :: 'n' :: cs => some (.float .nan, cs)
  | cs => decimal? negative cs

/-- A number. -/
def number? : Reader Value
  | '0' :: 'x' :: cs => based? 16 cs
  | '0' :: 'o' :: cs => based? 8 cs
  | '0' :: 'b' :: cs => based? 2 cs
  | '-' :: cs => signed? true cs
  | '+' :: cs => signed? false cs
  | cs => signed? false cs

/-! ## Dates and times -/

/-- A number of two digits in a range. -/
def pair? (low high : Nat) : Reader Nat
  | a :: b :: cs => do
    let n := (← digit? 10 a) * 10 + (← digit? 10 b)
    if low ≤ n ∧ n ≤ high then some (n, cs) else none
  | _ => none

/-- The days of a month. -/
def daysIn (year month : Nat) : Nat :=
  if month = 2 then if year % 4 = 0 ∧ (year % 100 ≠ 0 ∨ year % 400 = 0) then 29 else 28
  else if month ∈ [4, 6, 9, 11] then 30
  else 31

/-- A date, of which the year is given. -/
def dayOf? (year : Nat) (cs : List Char) : Option (List Char) := do
  let (month, rest) ← pair? 1 12 cs
  match rest with
  | '-' :: rest =>
    let (_, rest) ← pair? 1 (daysIn year month) rest
    return rest
  | _ => none

/-- The fraction of a second, if one follows. -/
def skipFraction : List Char → List Char
  | '.' :: c :: cs =>
    if (digit? 10 c).isSome then cs.dropWhile fun c => (digit? 10 c).isSome else '.' :: c :: cs
  | cs => cs

/-- A time of day; a leap second may stand at its end. -/
def time? (cs : List Char) : Option (List Char) := do
  let (_, rest) ← pair? 0 23 cs
  match rest with
  | ':' :: rest =>
    let (_, rest) ← pair? 0 59 rest
    match rest with
    | ':' :: rest =>
      let (_, rest) ← pair? 0 60 rest
      return skipFraction rest
    | _ => none
  | _ => none

/-- The offset of a time from universal time, if one follows. -/
def skipOffset : List Char → List Char
  | 'Z' :: cs | 'z' :: cs => cs
  | c :: cs =>
    if c = '+' ∨ c = '-' then
      match pair? 0 23 cs with
      | some (_, ':' :: rest) => ((pair? 0 59 rest).map (·.2)).getD (c :: cs)
      | _ => c :: cs
    else c :: cs
  | [] => []

/-- The time behind a date, if one follows. -/
def skipTime : List Char → List Char
  | c :: cs =>
    if c = 'T' ∨ c = 't' ∨ c = ' ' then ((time? cs).map skipOffset).getD (c :: cs) else c :: cs
  | [] => []

/-- Whether a date or a time begins here: four digits and a dash, or two digits and a colon. -/
def beginsMoment : List Char → Bool
  | a :: b :: ':' :: _ => (digit? 10 a).isSome && (digit? 10 b).isSome
  | a :: b :: c :: d :: '-' :: _ => [a, b, c, d].all fun x => (digit? 10 x).isSome
  | _ => false

/-- A date, a time, or both. -/
def moment? : Reader Value
  | a :: b :: ':' :: cs => (time? (a :: b :: ':' :: cs)).map fun rest => (.moment, rest)
  | a :: b :: c :: d :: '-' :: cs => do
    let ((year, _), _) ← digits? 10 [a, b, c, d]
    let rest ← dayOf? year cs
    return (.moment, skipTime rest)
  | _ => none

end DriveDelta.Toml
