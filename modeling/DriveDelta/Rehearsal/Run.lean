import DriveDelta.LogEvent
import DriveDelta.Rehearsal.Recipe

/-!
# Rehearsals

A rehearsal runs tasks that share a state, one at a time, under a simulated clock.  A member of it,
which is a task or a cancellation to come, keeps its turn until it has to wait.  Members get their
turns in the order in which they became able to go on; of those that become able at once, the ones
that wait come first, longest wait first, and then the tasks that are to start, earliest start
first.  When none can go on the clock jumps to the next point in time that a member waits for.

A task that is performed alone leads: it gets its turn as soon as the clock has jumped, before the
members that the jump makes able, and in between only when no other member can go on.

## What is here

* `Machine`, what the tasks of a rehearsal do: `Machine.step` and `Machine.alarms`;
* `Run`, the state of a rehearsal, with `Run.launch`, `Run.lead` and `Run.cancelLater`, which add
  members;
* `Run.advance`, one step of the rehearsal, and `Run.settle`, steps until every task has ended.
-/

set_option autoImplicit false

namespace DriveDelta

/-- What a step of a task does. -/
structure Progress (σ τ ρ : Type) where
  shared : σ
  /-- The task goes on, or has ended with a result. -/
  state : τ ⊕ ρ
  /-- Whether the context of the task is cancelled in this step. -/
  cancels : Bool := false
  log : List (LogEvent Double) := []

/-- What a task sees when it gets its turn. -/
structure Glance where
  /-- The number of the task. -/
  me : Nat
  now : Nat
  context : Context
  status : Option CancelReason

/-- The tasks of a rehearsal, as machines that share a state. -/
structure Machine (σ τ ρ : Type) where
  /-- Go on; none if what the task waits for has not happened. -/
  step : Glance → σ → τ → Option (Progress σ τ ρ)
  /-- Points in time that a task waits for. -/
  alarms : τ → List Nat

/-- A member of a rehearsal. -/
inductive Member (τ : Type) where
  /-- A task to be started at a time, with a context made then. -/
  | later (me start : Nat) (recipe : Recipe) (body : τ)
  /-- A task that has started. -/
  | active (me : Nat) (context : Context) (body : τ)
  /-- A cancellation after a span, which begins with its first turn. -/
  | cancelAfter (token span : Nat)
  /-- A cancellation at a time. -/
  | cancelAt (token due : Nat)

namespace Member

variable {τ : Type}

/-- The number of a task that has started. -/
def number? : Member τ → Option Nat
  | active me .. => some me
  | _ => none

def isTask : Member τ → Bool
  | later .. | active .. => true
  | cancelAfter .. | cancelAt .. => false

def isToStart : Member τ → Bool
  | later .. => true
  | _ => false

/-- The points in time that a member waits for. -/
def alarms {σ ρ : Type} (m : Machine σ τ ρ) : Member τ → List Nat
  | later _ start .. => [start]
  | active _ context body => context.deadline.toList ++ m.alarms body
  | cancelAfter .. => []
  | cancelAt _ due => [due]

end Member

/-- How a task ended. -/
structure Ending (ρ : Type) where
  me : Nat
  result : ρ
  finish : Nat
  context : Context

/-- The state of a rehearsal. -/
structure Run (σ τ ρ : Type) where
  stage : Stage := {}
  shared : σ
  /-- The number of the next task. -/
  tasks : Nat := 0
  /-- The task that leads, if one does. -/
  leader : Option Nat := none
  /-- The member that has the turn. -/
  turn : Option (Member τ) := none
  /-- The members that can go on, in the order of their turns. -/
  ready : List (Member τ) := []
  /-- The members that wait, longest first. -/
  line : List (Member τ) := []
  endings : List (Ending ρ) := []
  log : List (Nat × LogEvent Double) := []
  /-- Whether the clock could represent every deadline that was asked for. -/
  sound : Bool := true

namespace Run

variable {σ τ ρ : Type}

/-- Cancel a token after a span, which begins when those that can go on already have had their
turns. -/
def cancelLater (r : Run σ τ ρ) (token span : Nat) : Run σ τ ρ :=
  { r with ready := r.ready ++ [.cancelAfter token span] }

/-- End a turn by cancelling a token. -/
def cancel (r : Run σ τ ρ) (token : Nat) : Run σ τ ρ :=
  { r with stage := r.stage.cancel token, turn := none }

/-- Give a member its turn; none if it has to go on waiting. -/
def play (m : Machine σ τ ρ) (r : Run σ τ ρ) : Member τ → Option (Run σ τ ρ)
  | .later me start recipe body =>
    if start ≤ r.stage.now then
      match r.stage.make? recipe with
      | some (stage, context) =>
        let r := { r with stage, turn := some (.active me context body) }
        some (recipe.cancelAfter.elim r (r.cancelLater context.token))
      | none => some { r with sound := false, turn := none }
    else none
  | .active me context body => do
    let p ← m.step ⟨me, r.stage.now, context, r.stage.status context⟩ r.shared body
    let r := { r with
      shared := p.shared
      stage := if p.cancels then r.stage.cancel context.token else r.stage
      log := r.log ++ p.log.map (r.stage.now, ·) }
    match p.state with
    | .inl body => some { r with turn := some (.active me context body) }
    | .inr result =>
      some { r with
        turn := none
        endings := r.endings ++ [⟨me, result, r.stage.now, context⟩] }
  | .cancelAfter token span =>
    let due := Nanos.wake r.stage.now span
    some (if due ≤ r.stage.now then r.cancel token
      else { r with turn := none, line := r.line ++ [.cancelAt token due] })
  | .cancelAt token due => if due ≤ r.stage.now then some (r.cancel token) else none

/-- Whether a member can go on. -/
def isAble (m : Machine σ τ ρ) (r : Run σ τ ρ) (x : Member τ) : Bool := (r.play m x).isSome

/-- Whether a member leads. -/
def isLed (r : Run σ τ ρ) (x : Member τ) : Bool := x.number?.isSome && x.number? = r.leader

/-- The next time at which anything may happen. -/
def nextTime (m : Machine σ τ ρ) (r : Run σ τ ρ) : Option Nat :=
  ((r.line.flatMap (·.alarms m)).map Nanos.tick |>.filter (r.stage.now < ·)).min?

/-- Let those who can go on, and do not lead, step out of the line. -/
def gather (m : Machine σ τ ρ) (r : Run σ τ ρ) : Run σ τ ρ :=
  let steps (x : Member τ) : Bool := r.isAble m x && !r.isLed x
  let able := r.line.filter steps
  { r with
    ready := r.ready ++ able.filter (!·.isToStart) ++ able.filter (·.isToStart)
    line := r.line.filter (!steps ·) }

/-- Give the turn to the leader; none if nobody leads or the leader has to go on waiting. -/
def callLeader (m : Machine σ τ ρ) (r : Run σ τ ρ) : Option (Run σ τ ρ) := do
  let x ← r.line.find? r.isLed
  if r.isAble m x then some { r with turn := some x, line := r.line.filter (!r.isLed ·) } else none

/-- Let the clock jump to the next point in time that a member waits for, if there is one. -/
def jump (m : Machine σ τ ρ) (r : Run σ τ ρ) : Option (Run σ τ ρ) :=
  (r.nextTime m).map fun t =>
    let r := { r with stage := r.stage.moveTo t }.gather m
    (r.callLeader m).getD r

/-- Whether every task has ended. -/
def isOver (r : Run σ τ ρ) : Bool :=
  r.turn.isNone && !r.ready.any (·.isTask) && !r.line.any (·.isTask)

/-- One step of a rehearsal; none when nothing is left to do. -/
def advance (m : Machine σ τ ρ) (r : Run σ τ ρ) : Option (Run σ τ ρ) :=
  match r.turn with
  | some x => (r.play m x).getD { r with turn := none, line := r.line ++ [x] }
  | none =>
    if r.isOver then none
    else
      let r := r.gather m
      match r.ready with
      | x :: ready => some { r with turn := some x, ready }
      | [] => r.callLeader m <|> r.jump m

/-- Take up to `fuel` steps, until nothing is left to do. -/
def settle (m : Machine σ τ ρ) : Nat → Run σ τ ρ → Run σ τ ρ
  | 0, r => r
  | fuel + 1, r =>
    match r.advance m with
    | some r' => settle m fuel r'
    | none => r

/-- Add tasks, each to be started a span from now. -/
def launch (r : Run σ τ ρ) (tasks : List (Nat × Recipe × τ)) : Run σ τ ρ :=
  let plan := (tasks.zipIdx r.tasks).mergeSort (·.1.1 ≤ ·.1.1)
  { r with
    tasks := r.tasks + tasks.length
    leader := none
    line := r.line ++ plan.map fun t =>
      .later t.2 (r.stage.now + t.1.1) t.1.2.1 t.1.2.2 }

/-- Give the turn to a new task that leads. -/
def lead (r : Run σ τ ρ) (x : Nat → Member τ) : Run σ τ ρ :=
  { r with tasks := r.tasks + 1, leader := some r.tasks, turn := some (x r.tasks) }

/-- Start a task that leads. -/
def start (r : Run σ τ ρ) (recipe : Recipe) (body : τ) : Run σ τ ρ :=
  r.lead (.later · r.stage.now recipe body)

/-- Add a task that leads and whose context has been made before. -/
def join (r : Run σ τ ρ) (context : Context) (body : τ) : Run σ τ ρ :=
  r.lead (.active · context body)

/-- Let the clock move on by a span while all that is to come are cancellations.  Those that can go
on already get their turns; those that become due are able to go on afterwards. -/
def wait (m : Machine σ τ ρ) (r : Run σ τ ρ) (span : Nat) : Run σ τ ρ :=
  let r := { r with stage := r.stage.moveTo (r.stage.now + span) }
  (r.ready.foldl (fun (r : Run σ τ ρ) x => (r.play m x).getD r) { r with ready := [] }).gather m

end Run

end DriveDelta
