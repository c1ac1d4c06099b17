import DriveDelta.Nanos

/-!
# Scripted answers

In a rehearsal the services that the library relies on follow a script.  Each request that they
receive consumes one cue, which says what the answer is and when it comes.
-/

set_option autoImplicit false

namespace DriveDelta

/-- One scripted answer. -/
structure Cue (β : Type) where
  /-- A pause before anything else happens. -/
  delay : Option Nat := none
  /-- Whether the answer never comes. -/
  hangs : Bool := false
  /-- Whether the context of the request is cancelled just before the answer is given. -/
  cancels : Bool := false
  answer : β

/-- An answer that has been asked for. -/
structure Pending (β : Type) where
  /-- When it is given; nothing if it never is. -/
  due : Option Nat
  cancels : Bool
  answer : β

namespace Cue

variable {β : Type}

/-- Ask for the answer. -/
def ask (c : Cue β) (now : Nat) : Pending β where
  due := if c.hangs then none else some ((c.delay.map (Nanos.wake now)).getD now)
  cancels := c.cancels
  answer := c.answer

/-- The answer to the next request: the next cue, or what is said after the last one. -/
def next (script : List (Cue β)) (afterwards : β) : Cue β × List (Cue β) :=
  match script with
  | c :: rest => (c, rest)
  | [] => ({ answer := afterwards }, [])

end Cue

namespace Pending

variable {β : Type}

/-- Whether the answer is given. -/
def isGiven (p : Pending β) (now : Nat) : Bool := (p.due.map (decide <| · ≤ now)).getD false

end Pending

end DriveDelta
