import DriveDelta.Admission.Pool

/-!
# Adaptive pools

An adaptive pool is a token pool whose rate follows what its admissions observed.  Each throttled
exchange halves the rate, down to a floor; each full run of successes adds a tenth of the ceiling,
up to the ceiling.

## What is here

* `Adaptive`, `Adaptive.new`;
* `Adaptive.recordThrottled` and `Adaptive.recordSuccess`, which return the rate change they made,
  if they made one.
-/

set_option autoImplicit false

namespace DriveDelta

open Number

variable {α : Type} [Number α]

/-- The largest value of a 32-bit counter. -/
def maxCount : Nat := 0xFFFFFFFF

/-- A pool whose rate moves between a floor and a ceiling. -/
structure Adaptive (α : Type) where
  pool : Pool α
  ceiling : α
  floor : α
  /-- Length of the run of successes that raises the rate. -/
  recovery : Nat
  /-- Successes since the last throttled exchange or the last full run. -/
  successes : Nat
  /-- Throttled exchanges so far. -/
  throttled : Nat
  deriving DecidableEq, Repr

/-- The rates before and after a change; `raised` tells its direction. -/
structure RateChange (α : Type) where
  raised : Bool
  before : α
  after : α
  deriving DecidableEq, Repr

namespace Adaptive

/-- The part of the ceiling that a full run of successes restores. -/
def recoveryStep : α := ofQuotient 1 10

/-- A full pool that starts at its ceiling.  The floor never exceeds the ceiling, and a run has at
least one success. -/
def new (capacity : Nat) (ceiling floor : α) (recovery now : Nat) : Adaptive α where
  pool := .new capacity ceiling now
  ceiling := ceiling
  floor := smaller floor ceiling
  recovery := max recovery 1
  successes := 0
  throttled := 0

/-- The rate after a throttled exchange. -/
def slower (a : Adaptive α) : α := larger (a.pool.rate / ofNat 2) a.floor

/-- The rate after a full run of successes. -/
def faster (a : Adaptive α) : α :=
  smaller (a.pool.rate + a.ceiling * recoveryStep) a.ceiling

/-- Halve the rate, never below the floor, and start a new run of successes. -/
def recordThrottled (a : Adaptive α) (now : Nat) : Adaptive α × Option (RateChange α) :=
  let b := { a with successes := 0, throttled := min (a.throttled + 1) maxCount }
  if lt a.slower a.pool.rate then
    ({ b with pool := a.pool.setRate a.slower now }, some ⟨false, a.pool.rate, a.slower⟩)
  else (b, none)

/-- Count a success; a full run steps the rate up, never above the ceiling. -/
def recordSuccess (a : Adaptive α) (now : Nat) : Adaptive α × Option (RateChange α) :=
  let run := min (a.successes + 1) maxCount
  if run < a.recovery then ({ a with successes := run }, none)
  else
    let b := { a with successes := 0 }
    if lt a.pool.rate a.faster then
      ({ b with pool := a.pool.setRate a.faster now }, some ⟨true, a.pool.rate, a.faster⟩)
    else (b, none)

end Adaptive

end DriveDelta
