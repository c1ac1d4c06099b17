import DriveDelta.Nanos
import DriveDelta.Text.Utf8
import DriveDelta.Wire.Headers

/-!
# Requests and responses

## What is here

* `Request`, with `setHeader` and `withBody`, and `Response`;
* `Response.isSuccess`, the statuses 200 to 399;
* `Response.retryAfter?`, how long the server asks to wait, when it says so in whole seconds.
-/

set_option autoImplicit false

namespace DriveDelta

/-- What a request asks for. -/
inductive Method where
  | get | post | put | patch | delete
  deriving DecidableEq, Repr, Inhabited

/-- One outbound request. -/
structure Request where
  method : Method
  url : String
  headers : Headers := []
  body : Bytes := []
  deriving DecidableEq, Repr, Inhabited

namespace Request

/-- Replace every header of a name, in any case, by this one. -/
def setHeader (r : Request) (name value : String) : Request :=
  { r with headers := r.headers.set name value }

def withBody (r : Request) (body : Bytes) : Request := { r with body := body }

def header? (r : Request) (name : String) : Option String := r.headers.get? name

end Request

/-- What came back from a completed exchange. -/
structure Response where
  status : Nat
  headers : Headers := []
  body : Bytes := []
  deriving DecidableEq, Repr, Inhabited

namespace Response

def header? (r : Response) (name : String) : Option String := r.headers.get? name

/-- Whether the exchange did what was asked. -/
def isSuccess (r : Response) : Bool := 200 ≤ r.status && r.status < 400

/-- The largest whole number of seconds that a wait is understood in. -/
def maxHint : Nat := 0xFFFFFFFFFFFFFFFF

/-- The wait that the server asks for.  Anything but a whole number of seconds is no answer. -/
def retryAfter? (r : Response) : Option Nat := do
  let value ← r.header? "retry-after"
  let n ← Text.natural? (Text.trim value.toList)
  if n ≤ maxHint then some (Nanos.ofSeconds n) else none

/-- The beginning of the body, for messages. -/
def excerpt (r : Response) : String := Utf8.excerpt r.body

end Response

end DriveDelta
