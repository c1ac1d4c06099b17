import DriveDelta.Number

/-!
# Token pools

A pool holds at most `capacity` tokens and gains `rate` of them per second.  Nothing happens to it
between two uses: each use first credits what has accrued since the last one (`Pool.filled`), so a
pool is a plain value and time is an argument.

## What is here

* `Pool`, `Pool.new`, a full pool, and `Pool.filled`, the pool as it stands at a later time;
* `Pool.take`, which removes the tokens of one admission or says how long they will take to accrue;
* `Pool.setRate`, which credits the time before it at the old rate.
-/

set_option autoImplicit false

namespace DriveDelta

open Number

variable {α : Type} [Number α]

/-- A token bucket: its burst size, what it holds, its rate per second, and when that was true. -/
structure Pool (α : Type) where
  capacity : Nat
  tokens : α
  rate : α
  filledAt : Nat
  deriving DecidableEq, Repr

namespace Pool

/-- The lowest rate that a pool works with, one token in a hundred seconds. -/
def leastRate : α := ofQuotient 1 100

/-- A full pool.  A capacity of zero counts as one, and a rate below the lowest as the lowest. -/
def new (capacity : Nat) (rate : α) (now : Nat) : Pool α where
  capacity := max capacity 1
  tokens := ofNat (max capacity 1)
  rate := larger rate leastRate
  filledAt := now

/-- The pool at time `now`: what has accrued is credited, up to the capacity. -/
def filled (p : Pool α) (now : Nat) : Pool α :=
  { p with
    tokens := smaller (p.tokens + seconds (now - p.filledAt) * p.rate) (ofNat p.capacity)
    filledAt := now }

/-- Change the rate from `now` on. -/
def setRate (p : Pool α) (rate : α) (now : Nat) : Pool α :=
  { p.filled now with rate := larger rate leastRate }

/-- What an admission of `cost` tokens removes: never more than the pool can hold. -/
def charge (p : Pool α) (cost : Nat) : α := smaller (ofNat cost) (ofNat p.capacity)

/-- The seconds until a pool that lacks tokens holds `cost` of them. -/
def shortfall (p : Pool α) (cost : Nat) : α := (p.charge cost - p.tokens) / p.rate

/-- How a try to take tokens ends. -/
inductive Take where
  /-- The tokens have been removed. -/
  | granted
  /-- Nothing has been removed; the tokens will have accrued after this span. -/
  | wait (span : Nat)
  deriving DecidableEq, Repr

/-- Remove `cost` tokens if the pool holds them. -/
def take (p : Pool α) (cost now : Nat) : Pool α × Take :=
  let q := p.filled now
  if le (q.charge cost) q.tokens then
    ({ q with tokens := q.tokens - q.charge cost }, .granted)
  else (q, .wait (nanos (q.shortfall cost)))

end Pool

end DriveDelta
