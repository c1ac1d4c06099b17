import DriveDelta.Admission.Limiter
import DriveDelta.Context

/-!
# Waiting for tokens

Whoever wants tokens tries, and on failure sleeps for the span that the pool named and tries
again, until the tokens are granted or the context is done.  Every look begins with the context,
so a context that is done costs nothing.

## What is here

* `Turn`, how one look at a pool ends, `Pool.turn`, such a look, and `Pool.resume`, the look of one
  who has been asleep;
* `Limiter.arrive` and `Limiter.resume`, the same for a pool of a limiter; the first look of a
  newcomer is preceded by a try that reports, in an `AdmissionEvent`, how long the wait will be.
-/

set_option autoImplicit false

namespace DriveDelta

variable {α : Type} [Number α]

/-- How one look at a pool ends. -/
inductive Turn where
  /-- The tokens have been removed. -/
  | granted
  /-- They were not there; look again at this time. -/
  | asleep (until_ : Nat)
  /-- The context is done. -/
  | cancelled (reason : CancelReason)
  deriving DecidableEq, Repr, Inhabited

/-- What waiting for tokens and changing a rate leave in the log. -/
inductive AdmissionEvent (α : Type) where
  | waiting (c : ServiceClass) (cost wait : Nat)
  | rateChanged (c : ServiceClass) (change : RateChange α)
  deriving DecidableEq, Repr

namespace Pool

/-- Try to take tokens unless the context is done.  A sleep lasts at least a millisecond. -/
def turn (p : Pool α) (cost now : Nat) (status : Option CancelReason) : Pool α × Turn :=
  match status with
  | some reason => (p, .cancelled reason)
  | none =>
    match p.take cost now with
    | (q, .granted) => (q, .granted)
    | (q, .wait span) => (q, .asleep (Nanos.wake now (max span Nanos.milli)))

/-- Look again after having slept; nothing happens before the time has come or the context is
done. -/
def resume (p : Pool α) (cost now : Nat) (status : Option CancelReason) (until_ : Nat) :
    Option (Pool α × Turn) :=
  if status.isSome || until_ ≤ now then some (p.turn cost now status) else none

end Pool

namespace Limiter

/-- The first look of a newcomer. -/
def arrive (l : Limiter α) (c : ServiceClass) (k : PoolKind) (cost now : Nat)
    (status : Option CancelReason) : Limiter α × Turn × List (AdmissionEvent α) :=
  match status with
  | some reason => (l, .cancelled reason, [])
  | none =>
    match (l.pool c k).take cost now with
    | (q, .granted) => (l.setPool c k q, .granted, [])
    | (q, .wait span) =>
      let r := q.turn cost now none
      (l.setPool c k r.1, r.2, [.waiting c cost span])

/-- Look again after having slept. -/
def resume (l : Limiter α) (c : ServiceClass) (k : PoolKind) (cost now : Nat)
    (status : Option CancelReason) (until_ : Nat) : Option (Limiter α × Turn) :=
  ((l.pool c k).resume cost now status until_).map fun r => (l.setPool c k r.1, r.2)

/-- Pass on what an admitted call observed, if it was admitted by an adaptive pool. -/
def complete (l : Limiter α) (c : ServiceClass) (k : PoolKind) (f : Feedback) (now : Nat) :
    Limiter α × List (AdmissionEvent α) :=
  match k with
  | .static => (l, [])
  | .sliding =>
    let r := l.feed c f now
    (r.1, (r.2.map (AdmissionEvent.rateChanged c)).toList)

end Limiter

end DriveDelta
