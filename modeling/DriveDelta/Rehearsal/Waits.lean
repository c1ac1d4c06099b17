import DriveDelta.Rehearsal.Run

/-!
# Rehearsing waits

Tasks that do nothing but wait: for a span of time, or for their context to be done.
-/

set_option autoImplicit false

namespace DriveDelta

/-- What a task waits for. -/
inductive WaitTask where
  /-- For a span to pass, which has not begun. -/
  | sleep (span : Nat)
  /-- For a time to come. -/
  | asleep (until_ : Nat)
  /-- For the context to be done. -/
  | watch
  deriving DecidableEq, Repr, Inhabited

namespace WaitTask

/-- Go on; none if what the task waits for has not happened.  A context that is done ends every
wait. -/
def step (g : Glance) (t : WaitTask) : Option (WaitTask ⊕ Except Error Unit) :=
  match g.status, t with
  | some reason, _ => some (.inr (.error (.cancelled reason)))
  | none, sleep span => some (.inl (asleep (Nanos.wake g.now span)))
  | none, asleep until_ => if until_ ≤ g.now then some (.inr (.ok ())) else none
  | none, watch => none

/-- Tasks that wait, and share nothing. -/
def machine : Machine Unit WaitTask (Except Error Unit) where
  step g _ t := (t.step g).map fun state => { shared := (), state }
  alarms
    | asleep until_ => [until_]
    | sleep _ | watch => []

end WaitTask

end DriveDelta
