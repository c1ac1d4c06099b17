/-!
# What can go wrong

Three kinds of trouble are told apart: a context that is done (`CancelReason`), an exchange that
produced no response (`TransportError`), and the error of an operation (`Error`), which may carry
either of the others.

## What is here

* the three types;
* the text of each: `CancelReason.message`, `TransportError.message`, `Error.message`;
* `TransportError.isTransient`, the transport errors that are retried whatever the status was.
-/

set_option autoImplicit false

namespace DriveDelta

/-- Why a context is done. -/
inductive CancelReason where
  /-- It was cancelled, or a context that it was derived from was. -/
  | cancelled
  /-- Its deadline has passed. -/
  | deadlineExceeded
  deriving DecidableEq, Repr, Inhabited

def CancelReason.message : CancelReason → String
  | .cancelled => "context cancelled"
  | .deadlineExceeded => "context deadline exceeded"

/-- Why an exchange, or the request for a credential before it, produced no response. -/
inductive TransportError where
  /-- The peer dropped the connection. -/
  | connectionReset
  /-- The exchange took longer than one attempt may take. -/
  | handlerTimeout
  /-- No credential could be obtained. -/
  | auth (problem : String)
  /-- Anything else. -/
  | other (problem : String)
  deriving DecidableEq, Repr, Inhabited

namespace TransportError

def message : TransportError → String
  | connectionReset => "connection reset by peer"
  | handlerTimeout => "handler timeout"
  | auth problem => "auth: " ++ problem
  | other problem => problem

/-- Resets and timeouts may be gone at the next attempt. -/
def isTransient : TransportError → Bool
  | connectionReset | handlerTimeout => true
  | auth _ | other _ => false

end TransportError

/-- The error of an operation. -/
inductive Error where
  /-- The caller's input is malformed. -/
  | invalidArgument (problem : String)
  /-- The item is not in a cache that is known to be fresh. -/
  | notFound (id : String)
  /-- The item was deleted at the source. -/
  | gone (id : String)
  /-- The retry budget ran out on failures that might have passed. -/
  | throttled (attempts : Nat) (lastStatus : Option Nat) (lastError : Option String)
  /-- The context of the operation is done. -/
  | cancelled (reason : CancelReason)
  /-- A failure that no retry can mend. -/
  | fatal (status : Option Nat) (problem : String)
  /-- The remote no longer accepts the cursor it was given. -/
  | cursorExpired
  /-- A refresh went through, but some of its records were malformed. -/
  | incomplete (errors : List Error)
  deriving Repr, Inhabited

namespace Error

/-- The text of an error.  That of an incomplete refresh quotes its first record error. -/
def message : Error → String
  | invalidArgument problem => "invalid argument: " ++ problem
  | notFound id => "item " ++ id ++ " not found in cache"
  | gone id => "item " ++ id ++ " was deleted"
  | throttled attempts lastStatus lastError =>
    "throttled after " ++ toString attempts ++ " attempts (last status: " ++
      (lastStatus.map toString).getD "none" ++ ", last error: " ++ lastError.getD "none" ++ ")"
  | cancelled reason => reason.message
  | fatal none problem => "fatal: " ++ problem
  | fatal (some status) problem => "fatal (HTTP " ++ toString status ++ "): " ++ problem
  | cursorExpired => "delta cursor expired"
  | incomplete [] => "0 record errors during refresh; first: "
  | incomplete (e :: es) =>
    toString (es.length + 1) ++ " record errors during refresh; first: " ++ e.message

/-- Whether an operation ended because its context was done. -/
def isCancelled : Error → Bool
  | cancelled _ => true
  | _ => false

mutual

/-- Whether two errors are the same. -/
def same : Error → Error → Bool
  | invalidArgument p, invalidArgument q => p == q
  | notFound i, notFound j => i == j
  | gone i, gone j => i == j
  | throttled a s e, throttled b t f => a == b && s == t && e == f
  | cancelled r, cancelled t => r == t
  | fatal s p, fatal t q => s == t && p == q
  | cursorExpired, cursorExpired => true
  | incomplete es, incomplete fs => sameAll es fs
  | _, _ => false

/-- Whether two lists of errors are the same. -/
def sameAll : List Error → List Error → Bool
  | [], [] => true
  | e :: es, f :: fs => same e f && sameAll es fs
  | _, _ => false

end

mutual

theorem same_iff (e f : Error) : e.same f = true ↔ e = f := by
  cases e <;> cases f <;> simp [same, and_assoc]
  exact sameAll_iff _ _

theorem sameAll_iff (es fs : List Error) : sameAll es fs = true ↔ es = fs := by
  cases es <;> cases fs <;> simp [sameAll]
  rw [same_iff, sameAll_iff]

end

instance : DecidableEq Error := fun e f => decidable_of_iff _ (same_iff e f)

end Error

end DriveDelta
