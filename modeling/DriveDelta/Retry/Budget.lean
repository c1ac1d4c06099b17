import DriveDelta.Retry.Decision

/-!
# Retry budgets

A budget says how many attempts a call may make, how long it pauses between them, and how long
one attempt may take.

## What is here

* `RetryBudget` and `RetryBudget.standard`;
* `RetryBudget.backoff`, the pause that doubles with each attempt;
* `RetryBudget.decide`, whether an attempt gets a successor, and after what pause.
-/

set_option autoImplicit false

namespace DriveDelta

/-- Limits of one call.  Spans are in nanoseconds. -/
structure RetryBudget where
  /-- Attempts in all, the first one included. -/
  maxAttempts : Nat
  /-- The pause after the first attempt. -/
  minBackoff : Nat
  /-- No pause is longer, whatever the server asks for. -/
  maxBackoff : Nat
  /-- No attempt takes longer. -/
  perCallTimeout : Nat
  deriving DecidableEq, Repr, Inhabited

/-- Whether an attempt gets a successor. -/
inductive Verdict where
  /-- It does not: its outcome is the outcome of the call. -/
  | stop
  /-- It does, after a pause. -/
  | again (pause : Nat)
  deriving DecidableEq, Repr, Inhabited

namespace RetryBudget

def standard : RetryBudget where
  maxAttempts := 4
  minBackoff := Nanos.ofSeconds 3
  maxBackoff := Nanos.ofSeconds 180
  perCallTimeout := Nanos.ofSeconds 3600

/-- The pause stops doubling after this many attempts. -/
def lastDoubling : Nat := 16

/-- The pause after attempt number `attempt`, counted from one. -/
def backoff (b : RetryBudget) (attempt : Nat) : Nat :=
  min (Nanos.times b.minBackoff (Nat.pow 2 (min (attempt - 1) lastDoubling))) b.maxBackoff

/-- What follows attempt number `attempt`, counted from one. -/
def decide (b : RetryBudget) (attempt : Nat) (d : Decision) : Verdict :=
  if b.maxAttempts ≤ attempt then .stop
  else
    match d with
    | .noRetry | .fatal => .stop
    | .retryNow => .again 0
    | .retryAfter (some hint) => .again (min hint b.maxBackoff)
    | .retryAfter none => .again (b.backoff attempt)

end RetryBudget

end DriveDelta
