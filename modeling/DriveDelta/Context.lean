import DriveDelta.Admission.ServiceClass
import DriveDelta.Retry.Budget

/-!
# Operation contexts

Everything that waits does so on behalf of a context.  A context names a cancellation token, may
have a deadline, and carries options that the limiter and the retry loop read.  Deriving a context
never changes the one it is derived from.

## What is here

* `Forest`, the cancellation tokens of a run, each below at most one other: `Forest.root`,
  `Forest.child`, `Forest.cancel`, `Forest.isCancelled`;
* `Context` and its decorators;
* `Context.status`, why a context is done, if it is.
-/

set_option autoImplicit false

namespace DriveDelta

/-! ## Cancellation tokens -/

/-- One cancellation token: the token it is below, and whether it was itself cancelled. -/
structure TokenNode where
  parent : Option Nat
  cancelled : Bool
  deriving DecidableEq, Repr, Inhabited

/-- The tokens of a run, latest first.  A token is named by how many were made before it. -/
structure Forest where
  nodes : List TokenNode := []
  deriving DecidableEq, Repr, Inhabited

namespace Forest

def size (f : Forest) : Nat := f.nodes.length

/-- Add a token; its name is the size of the forest before. -/
def add (f : Forest) (parent : Option Nat) : Forest := ⟨⟨parent, false⟩ :: f.nodes⟩

/-- Whether a token, or one that it is below, was cancelled.  Only tokens made earlier count as
being above. -/
def cancelledIn : List TokenNode → Nat → Bool
  | [], _ => false
  | n :: older, token =>
    if token = older.length then
      n.cancelled || (n.parent.map (cancelledIn older)).getD false
    else cancelledIn older token

def isCancelled (f : Forest) (token : Nat) : Bool := cancelledIn f.nodes token

/-- Mark the node of a token as cancelled. -/
def cancelIn : List TokenNode → Nat → List TokenNode
  | [], _ => []
  | n :: older, token =>
    if token = older.length then { n with cancelled := true } :: older
    else n :: cancelIn older token

/-- Cancel a token, and with it all that are below it. -/
def cancel (f : Forest) (token : Nat) : Forest := ⟨cancelIn f.nodes token⟩

end Forest

/-! ## Contexts -/

/-- What a context asks of the calls made with it; what is absent is left to the callee. -/
structure CallOptions where
  serviceClass : Option ServiceClass := none
  cost : Option Int := none
  retryBudget : Option RetryBudget := none
  sliding : Bool := false
  deriving DecidableEq, Repr, Inhabited

/-- A cancellation token, a deadline and options. -/
structure Context where
  token : Nat
  deadline : Option Nat := none
  options : CallOptions := {}
  deriving DecidableEq, Repr, Inhabited

namespace Context

/-- The largest number of tokens that one admission can ask for. -/
def maxCost : Nat := 0xFFFFFFFF

/-- The tokens that a requested cost stands for: what is not positive counts as one. -/
def normalCost : Option Int → Nat
  | some n => if 0 < n then min n.toNat maxCost else 1
  | none => 1

/-- The earlier of the deadline and this one. -/
def withDeadline (c : Context) (deadline : Nat) : Context :=
  { c with deadline := some ((c.deadline.map (min · deadline)).getD deadline) }

/-- A deadline `timeout` from now; none if the clock cannot represent it. -/
def withTimeout? (c : Context) (now timeout : Nat) : Option Context :=
  (Nanos.after? now timeout).map c.withDeadline

def withServiceClass (c : Context) (s : ServiceClass) : Context :=
  { c with options := { c.options with serviceClass := some s } }

def withCost (c : Context) (n : Int) : Context :=
  { c with options := { c.options with cost := some n } }

def withRetryBudget (c : Context) (b : RetryBudget) : Context :=
  { c with options := { c.options with retryBudget := some b } }

def withSliding (c : Context) (enabled : Bool) : Context :=
  { c with options := { c.options with sliding := enabled } }

def serviceClass (c : Context) : ServiceClass := c.options.serviceClass.getD .standard

def cost (c : Context) : Nat := normalCost c.options.cost

def retryBudget? (c : Context) : Option RetryBudget := c.options.retryBudget

/-- Why a context is done, if it is.  A cancellation counts before a deadline. -/
def status (c : Context) (f : Forest) (now : Nat) : Option CancelReason :=
  if f.isCancelled c.token then some .cancelled
  else
    match c.deadline with
    | some d => if d ≤ now then some .deadlineExceeded else none
    | none => none

end Context

end DriveDelta
