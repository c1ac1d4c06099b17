import DriveDelta.Rehearsal.Run

/-!
# Rehearsing admissions

Tasks that take tokens from one pool, and tasks that ask a limiter for admission.
-/

set_option autoImplicit false

namespace DriveDelta

/-! ## One pool -/

/-- A task that takes tokens from a pool; it is asleep once it has tried in vain. -/
structure PoolTask where
  cost : Nat
  asleep : Option Nat := none

namespace PoolTask

variable {σ : Type}

/-- What a look at the pool leads to. -/
def progress (t : PoolTask) (shared : σ) : Turn → Progress σ PoolTask (Except Error Unit)
  | .granted => { shared, state := .inr (.ok ()) }
  | .asleep until_ => { shared, state := .inl { t with asleep := some until_ } }
  | .cancelled reason => { shared, state := .inr (.error (.cancelled reason)) }

/-- Tasks that take tokens from a pool that is part of a larger state. -/
def machine (get : σ → Pool Double) (set : σ → Pool Double → σ) :
    Machine σ PoolTask (Except Error Unit) where
  step g s t :=
    let look :=
      match t.asleep with
      | none => some ((get s).turn t.cost g.now g.status)
      | some until_ => (get s).resume t.cost g.now g.status until_
    look.map fun r => t.progress (set s r.1) r.2
  alarms t := t.asleep.toList

end PoolTask

/-! ## A limiter -/

/-- What was admitted, and by which pool. -/
structure Admission where
  serviceClass : ServiceClass
  kind : PoolKind
  tokens : Nat
  deriving DecidableEq, Repr, Inhabited

/-- A task that asks for admission.  Class and cost, if given, win over those of its context. -/
structure AdmissionTask where
  serviceClass : Option ServiceClass := none
  cost : Option Int := none
  /-- What the admission is completed with as soon as it is granted. -/
  completion : Option Feedback := none
  asleep : Option Nat := none

namespace AdmissionTask

abbrev Result := Except Error Admission

/-- What the task asks for on behalf of a context. -/
def target (t : AdmissionTask) (c : Context) (l : Limiter Double) : Admission :=
  let s := t.serviceClass.getD c.serviceClass
  { serviceClass := s
    kind := l.kind s c.options.sliding
    tokens := if t.cost.isSome then Context.normalCost t.cost else c.cost }

/-- What a look at the limiter leads to. -/
def progress (t : AdmissionTask) (a : Admission) (now : Nat) (l : Limiter Double)
    (log : List (AdmissionEvent Double)) :
    Turn → Progress (Limiter Double) AdmissionTask Result
  | .cancelled reason =>
    { shared := l, state := .inr (.error (.cancelled reason)), log := log.map .admission }
  | .asleep until_ =>
    { shared := l, state := .inl { t with asleep := some until_ }, log := log.map .admission }
  | .granted =>
    let r :=
      match t.completion with
      | some f => l.complete a.serviceClass a.kind f now
      | none => (l, [])
    { shared := r.1, state := .inr (.ok a), log := (log ++ r.2).map .admission }

/-- Tasks that ask a limiter for admission. -/
def machine : Machine (Limiter Double) AdmissionTask Result where
  step g l t :=
    let a := t.target g.context l
    match t.asleep with
    | none =>
      let (l', turn, log) := l.arrive a.serviceClass a.kind a.tokens g.now g.status
      some (t.progress a g.now l' log turn)
    | some until_ =>
      (l.resume a.serviceClass a.kind a.tokens g.now g.status until_).map fun r =>
        t.progress a g.now r.1 [] r.2
  alarms t := t.asleep.toList

end AdmissionTask

end DriveDelta
