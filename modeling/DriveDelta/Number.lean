import DriveDelta.Double

/-!
# The arithmetic of token amounts

Buckets count tokens, rates and waits in doubles, but what they promise is a statement about exact
amounts.  Their definitions are therefore written once, over any type with the operations of
`Number`, and used at two: `Double`, which is what runs, and `Rat`, in which nothing is rounded
except the span that a wait is turned into.
-/

set_option autoImplicit false

namespace DriveDelta

/-- The operations that a token bucket computes with. -/
class Number (α : Type) extends Add α, Sub α, Mul α, Div α where
  ofNat : Nat → α
  /-- The amount nearest to a quotient of whole numbers. -/
  ofQuotient : Nat → Nat → α
  larger : α → α → α
  smaller : α → α → α
  lt : α → α → Bool
  le : α → α → Bool
  /-- A span of nanoseconds as an amount of seconds. -/
  seconds : Nat → α
  /-- The nearest nanosecond to an amount of seconds, a half to the even neighbour. -/
  nanos : α → Nat

instance : Add Double := ⟨Double.add⟩
instance : Sub Double := ⟨Double.sub⟩
instance : Mul Double := ⟨Double.mul⟩
instance : Div Double := ⟨Double.div⟩

instance : Number Double where
  ofNat := Double.ofNat
  ofQuotient := Double.round false
  larger := Double.max
  smaller := Double.min
  lt := Double.lt
  le := Double.le
  seconds := Double.seconds
  nanos x := x.nanos?.getD 0

instance : Number Rat where
  ofNat n := (n : Rat)
  ofQuotient num den := mkRat num den
  larger x y := if x < y then y else x
  smaller x y := if y < x then y else x
  lt x y := decide (x < y)
  le x y := decide (x ≤ y)
  seconds d := mkRat d Nanos.second
  nanos x := roundHalfEven (x.num.toNat * Nanos.second) x.den

end DriveDelta
