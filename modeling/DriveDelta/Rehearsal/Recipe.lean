import DriveDelta.Context

/-!
# Recipes for contexts

A rehearsal makes the context of a task when the task starts.  The recipe says which options the
context gets, how long it may last, and when it is cancelled.
-/

set_option autoImplicit false

namespace DriveDelta

/-- What a context is made from. -/
structure Recipe where
  serviceClass : Option ServiceClass := none
  cost : Option Int := none
  retryBudget : Option RetryBudget := none
  sliding : Option Bool := none
  /-- The span until its deadline. -/
  timeout : Option Nat := none
  /-- Whether it is cancelled at once. -/
  cancelled : Bool := false
  /-- The span after which it is cancelled. -/
  cancelAfter : Option Nat := none
  deriving Inhabited

/-- The contexts of a run: the time and the cancellation tokens. -/
structure Stage where
  now : Nat := 0
  forest : Forest := {}
  deriving Inhabited

namespace Stage

/-- A new root context. -/
def root (s : Stage) : Stage × Context :=
  ({ s with forest := s.forest.add none }, { token := s.forest.size })

/-- A context whose token is below that of another. -/
def child (s : Stage) (c : Context) : Stage × Context :=
  ({ s with forest := s.forest.add (some c.token) }, { c with token := s.forest.size })

def cancel (s : Stage) (token : Nat) : Stage := { s with forest := s.forest.cancel token }

/-- Let the clock show a later time. -/
def moveTo (s : Stage) (t : Nat) : Stage := { s with now := t }

def status (s : Stage) (c : Context) : Option CancelReason := c.status s.forest s.now

/-- The options that a recipe asks for. -/
def options (r : Recipe) : CallOptions where
  serviceClass := r.serviceClass
  cost := r.cost
  retryBudget := r.retryBudget
  sliding := r.sliding.getD false

/-- Make a context; none if its deadline lies beyond the clock.  A later cancellation is not part of
it: whoever runs the task carries that out. -/
def make? (s : Stage) (r : Recipe) : Option (Stage × Context) := do
  let (s, c) := s.root
  let c := { c with options := options r }
  let c ← match r.timeout with
    | some d => c.withTimeout? s.now d
    | none => some c
  return (if r.cancelled then s.cancel c.token else s, c)

end Stage

end DriveDelta
