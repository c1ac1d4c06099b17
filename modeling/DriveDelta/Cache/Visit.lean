import DriveDelta.Cache.Refresh
import DriveDelta.Context

/-!
# Visits to the cache

Whoever looks up an item, asks for a refresh or counts the records makes a visit.  A visit is a
machine: its phase says what it is waiting for, and `Visit.step` takes it to the next wait, or says
that it has to go on waiting.  Several visits to one cache take their steps in any order; the two
lines of the cache are all that connects them.

A refresher that had to wait while another refresh ended takes over that refresh's outcome, unless
it was a cancellation.

## What is here

* `Visit.Purpose`, `Visit.Answer` and `Visit.Phase`;
* `Visit.afterRefresh`, how a visit goes on once it has done with refreshing, and
  `Visit.endRefresh`, what the end of a refresh does to the cache and to the visit that ran it;
* `Visit.step`.
-/

set_option autoImplicit false

namespace DriveDelta

namespace Visit

/-- What a visit is for. -/
inductive Purpose where
  | lookup (id : String)
  | refresh
  /-- Count the records. -/
  | count
  /-- Ask whether the cache is stale. -/
  | staleness
  deriving DecidableEq, Repr, Inhabited

/-- How a visit ends. -/
inductive Answer where
  | record (result : Except Error Record)
  | refreshed (result : Except Error Unit)
  | count (records : Nat)
  | stale (yes : Bool)

/-- Where a visit stands. -/
inductive Phase where
  | arriving
  /-- In the line of refreshers, having seen this many shareable outcomes. -/
  | queued (seen : Nat)
  /-- Refreshing since a time. -/
  | refreshing (since : Nat) (stage : Refresh.Stage)
  /-- In line to read. -/
  | reading
  | finished (answer : Answer)

/-- The state of the cache and of the visit after a step, and what the step did. -/
structure Step where
  cache : Cache
  phase : Phase
  effects : List Effect := []

def emptyId : Error := .invalidArgument "item id is empty"

/-- Get in line to read. -/
def toReading (c : Cache) (me : Nat) (effects : List Effect) : Step :=
  ⟨{ c with accessors := c.accessors.join me .read }, .reading, effects⟩

/-- Go on after the cache has been found fresh, or refreshed with this outcome.  A lookup goes on to
read also when only some records were malformed. -/
def afterRefresh (p : Purpose) (c : Cache) (me : Nat) (outcome : Except Error Unit)
    (effects : List Effect) : Step :=
  let effects := effects ++ [.returned outcome]
  match p, outcome with
  | .lookup _, .ok () => toReading c me effects
  | .lookup _, .error (.incomplete es) =>
    toReading c me (effects ++ [.event (.malformedSkipped es.length)])
  | .lookup _, .error e => ⟨c, .finished (.record (.error e)), effects⟩
  | _, _ => ⟨c, .finished (.refreshed outcome), effects⟩

/-- Leave both lines. -/
def leave (c : Cache) (me : Nat) : Cache :=
  { c with refreshers := c.refreshers.leave me, accessors := c.accessors.leave me }

/-- End a refresh: note its outcome for those who waited, and give both locks back. -/
def endRefresh (p : Purpose) (c : Cache) (me : Nat) (outcome : Except Error Unit)
    (effects : List Effect) : Step :=
  afterRefresh p (leave (c.record outcome) me) me outcome (effects ++ [.ended outcome])

/-- Whether a reader may use the records although they are stale: in shadow mode, when there are
some and a refresh is under way. -/
def servesStale (c : Cache) : Bool :=
  c.options.strategy == .shadow && c.populated && !c.refreshers.isFree

/-- Get in line to refresh. -/
def toQueue (c : Cache) (me : Nat) (effects : List Effect) : Step :=
  ⟨{ c with refreshers := c.refreshers.join me .write }, .queued c.attempts, effects⟩

/-- The first step of a visit. -/
def arrive (p : Purpose) (c : Cache) (me now : Nat) : Step :=
  match p with
  | .lookup id =>
    if id = "" then ⟨c, .finished (.record (.error emptyId)), [.arrived]⟩
    else if c.needsRefresh now && !servesStale c then toQueue c me [.arrived]
    else toReading c me [.arrived]
  | .refresh => toQueue c me [.arrived]
  | .count => toReading c me [.arrived]
  | .staleness => ⟨c, .finished (.stale (c.needsRefresh now)), [.arrived]⟩

/-- Begin a refresh while first in the line of refreshers, unless it has become unnecessary. -/
def begin (p : Purpose) (c : Cache) (me seen now : Nat) : Step :=
  if c.attempts ≠ seen then afterRefresh p (leave c me) me c.outcome [.admitted]
  else if !c.needsRefresh now then afterRefresh p (leave c me) me (.ok ()) [.admitted]
  else
    let (c', stage) := Refresh.begin c me
    ⟨c', .refreshing now stage, [.admitted, .event (.refreshing c.options.strategy)]⟩

/-- What a reader takes away. -/
def read (p : Purpose) (c : Cache) : Answer :=
  match p with
  | .lookup id => .record (c.lookup id)
  | _ => .count c.records.length

/-- Go on to the next wait.  `me` is the number of the visit, `status` that of its context when it
gets its turn; none means that what the visit waits for has not happened. -/
def step (p : Purpose) (c : Cache) (me now : Nat) (status : Option CancelReason)
    (incoming : Option Refresh.Incoming) : Phase → Option Step
  | .arriving => some (arrive p c me now)
  | .queued seen =>
    match status with
    | some reason => some (afterRefresh p (leave c me) me (.error (.cancelled reason)) [])
    | none => if c.refreshers.holds me then some (begin p c me seen now) else none
  | .refreshing since stage =>
    (Refresh.step c me since now status incoming stage).map fun
      | .waiting c' stage' effects => ⟨c', .refreshing since stage', effects⟩
      | .ended c' outcome effects => endRefresh p c' me outcome effects
  | .reading =>
    match p, status with
    | .lookup _, some reason =>
      some ⟨leave c me, .finished (.record (.error (.cancelled reason))), []⟩
    | _, _ =>
      if c.accessors.holds me then some ⟨leave c me, .finished (read p c), []⟩ else none
  | .finished _ => none

end Visit

end DriveDelta
