import DriveDelta.Error
import DriveDelta.Wire.Message

/-!
# Is another attempt worth while?

One attempt ends with a response or with a transport error.  Either is classified, by rules of
which the first that applies wins.

## What is here

* `Decision` and `Decision.isRetry`;
* `Decision.classify`, for a status and a transport error, and its two uses,
  `Decision.ofResponse` and `Decision.ofError`.
-/

set_option autoImplicit false

namespace DriveDelta

/-- What the outcome of one attempt calls for. -/
inductive Decision where
  /-- It stands: a success, or a rejection that would be repeated. -/
  | noRetry
  /-- Another attempt at once: whoever sent this status has already waited. -/
  | retryNow
  /-- Another attempt after the span that the server asked for, or after a growing pause. -/
  | retryAfter (hint : Option Nat)
  /-- Nothing that an exchange can end with. -/
  | fatal
  deriving DecidableEq, Repr, Inhabited

namespace Decision

def isRetry : Decision → Bool
  | retryNow | retryAfter _ => true
  | noRetry | fatal => false

/-- The decision on a status that came without a transport error. -/
def ofStatus (status : Nat) : Decision :=
  if 200 ≤ status ∧ status ≤ 399 then noRetry
  else if status = 429 ∨ status = 502 then retryAfter none
  else if 400 ≤ status ∧ status ≤ 499 then noRetry
  else if status = 503 ∨ status = 504 then retryNow
  else if 500 ≤ status ∧ status ≤ 599 then retryAfter none
  else fatal

/-- The decision on a status and a transport error.  A transport error always calls for another
attempt; with neither there is nothing to judge. -/
def classify : Option Nat → Option TransportError → Decision
  | _, some _ => retryAfter none
  | some status, none => ofStatus status
  | none, none => fatal

/-- The decision on a response, with the span that its server asked for. -/
def ofResponse (r : Response) : Decision :=
  match classify (some r.status) none with
  | retryAfter _ => retryAfter r.retryAfter?
  | other => other

/-- The decision on an attempt that produced no response. -/
def ofError (e : TransportError) : Decision := classify none (some e)

/-- The decision on either. -/
def ofOutcome : Except TransportError Response → Decision
  | .ok r => ofResponse r
  | .error e => ofError e

end Decision

end DriveDelta
