import DriveDelta.Delta.Address
import DriveDelta.Delta.Decode
import DriveDelta.Retry.Call

/-!
# Fetching a page

A page is fetched by one call, which counts as bulk traffic: a `GET` of the cursor, or of the
address of the first page when there is none.

## What is here

* `PageRequest`, which page is wanted;
* `PageRequest.address`, where it is, `PageRequest.call`, the call that fetches it, and
  `PageRequest.result`, the page that the call's result gives.
-/

set_option autoImplicit false

namespace DriveDelta

/-- Which page is wanted. -/
structure PageRequest where
  container : String
  cursor : Option String
  page : PageConfig
  deriving DecidableEq, Repr, Inhabited

namespace PageRequest

def emptyDrive : Error := .invalidArgument "drive id is empty"

/-- The address of a page: its cursor, unless that is empty. -/
def address (r : PageRequest) (base : String) : Except Error String :=
  if r.container = "" then .error emptyDrive
  else
    match r.cursor.filter (· ≠ "") with
    | some cursor => .ok cursor
    | none => DriveAddress.firstPage base r.container r.page

/-- The call that fetches what is at an address. -/
def call (address : String) (context : Context) (standard : RetryBudget) (authenticated : Bool) :
    Call where
  context := context.withServiceClass .bulkContainer
  budget := context.retryBudget?.getD standard
  build _ := .ok { method := .get, url := address }
  authenticated := authenticated

/-- The status with which the remote rejects a cursor. -/
def expiredStatus : Nat := 410

/-- The page that the result of the call gives. -/
def result (r : PageRequest) (answer : Except Error Response) : Except Error DeltaPage :=
  match answer with
  | .error (.fatal (some status) problem) =>
    if status = expiredStatus ∧ r.cursor.isSome then .error .cursorExpired
    else .error (.fatal (some status) problem)
  | .error e => .error e
  | .ok response =>
    match DeltaPage.decode response.body with
    | .error (.fatal _ problem) => .error (.fatal (some response.status) problem)
    | decoded => decoded

end PageRequest

end DriveDelta
