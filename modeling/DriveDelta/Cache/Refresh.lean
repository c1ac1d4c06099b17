import DriveDelta.Cache.Basic

/-!
# Refreshes

A refresh fetches one round of pages and installs it.  It is a machine: its stage says what it is
waiting for, and `Refresh.step` takes it to the next wait, or to its end.  In exclusive mode it
writes from the first page to the last; in shadow mode it reads the cursor, lets go, and gets in
line to write when the round is complete.

## What is here

* `Visit.Event`, what is told in the log, and `Visit.Effect`, everything that a visit does;
* `Refresh.Stage`, `Refresh.Incoming` and `Refresh.Turn`;
* `Refresh.begin`, `Refresh.ask`, `Refresh.afterPage` and `Refresh.install`;
* `Refresh.step`.
-/

set_option autoImplicit false

namespace DriveDelta

namespace Visit

/-- What a visit leaves in the log. -/
inductive Event where
  | refreshing (strategy : RefreshStrategy)
  | round (event : RoundEvent)
  | merged (merged : Cache.Merged)
  | refreshed (elapsed : Nat)
  | refreshFailed (error : Error)
  | malformedSkipped (errors : Nat)

/-- What a visit does, in order. -/
inductive Effect where
  /-- It begins. -/
  | arrived
  /-- It is let in by the line of refreshers. -/
  | admitted
  /-- A page is asked for. -/
  | asked (cursor : Option String)
  /-- The answer to the request for a page is taken in. -/
  | received (answer : Except Error DeltaPage)
  /-- A listing is installed, which leaves these records. -/
  | installed (listing : Listing) (records : Records)
  /-- The refresh that it runs ends. -/
  | ended (outcome : Except Error Unit)
  /-- It has done with refreshing, by a refresh of its own or without one. -/
  | returned (outcome : Except Error Unit)
  | event (event : Event)

end Visit

namespace Refresh

open Visit (Effect)

/-- Where a refresh stands. -/
inductive Stage where
  /-- In line to write before the first page is asked for. -/
  | claiming
  /-- In line to read the cursor. -/
  | peeking
  /-- Waiting for a page. -/
  | fetching (round : Round)
  /-- In line to write what was fetched. -/
  | installing (listing : Listing)
  deriving Repr, Inhabited

/-- An answer to the request for a page, with the status that the context has once it is given. -/
structure Incoming where
  answer : Except Error DeltaPage
  status : Option CancelReason

/-- Where a step of a refresh leads. -/
inductive Turn where
  /-- To another wait. -/
  | waiting (cache : Cache) (stage : Stage) (effects : List Effect)
  | ended (cache : Cache) (outcome : Except Error Unit) (effects : List Effect)

/-- Get in line for what the strategy needs first. -/
def begin (c : Cache) (me : Nat) : Cache × Stage :=
  match c.options.strategy with
  | .exclusive => ({ c with accessors := c.accessors.join me .write }, .claiming)
  | .shadow => ({ c with accessors := c.accessors.join me .read }, .peeking)

/-- How the log tells that a refresh ended. -/
def endEvent (since now : Nat) : Except Error Unit → Visit.Event
  | .ok () | .error (.incomplete _) => .refreshed (now - since)
  | .error e => .refreshFailed e

/-- End a refresh that has got as far as asking for pages. -/
def finish (c : Cache) (since now : Nat) (outcome : Except Error Unit) (effects : List Effect) :
    Turn :=
  .ended c outcome (effects ++ [.event (endEvent since now outcome)])

/-- Ask for the next page of a round, unless the context is done. -/
def ask (c : Cache) (since now : Nat) (status : Option CancelReason) (round : Round)
    (effects : List Effect) : Turn :=
  match status with
  | some reason => finish c since now (.error (.cancelled reason)) effects
  | none => .waiting c (.fetching round) (effects ++ [.asked round.cursor])

/-- Install a listing while holding the records, and end. -/
def install (c : Cache) (since now : Nat) (listing : Listing) (effects : List Effect) : Turn :=
  let (c', outcome, merged) := c.commit listing now
  finish c' since now outcome
    (effects ++ [.installed listing c'.records, .event (.merged merged)])

/-- Go on after the answer to the request for a page. -/
def afterPage (c : Cache) (me since now : Nat) (round : Round) (i : Incoming) : Turn :=
  let (next, told) := round.next i.answer
  let effects := .received i.answer :: told.map fun e => .event (.round e)
  match next with
  | .more round' => ask c since now i.status round' effects
  | .failed e => finish c since now (.error e) effects
  | .complete listing =>
    match c.options.strategy with
    | .exclusive => install c since now listing effects
    | .shadow =>
      .waiting { c with accessors := c.accessors.join me .write } (.installing listing) effects

/-- Wait for the lock on the records, unless the context is done, and go on with it. -/
def whenHeld (c : Cache) (me : Nat) (status : Option CancelReason) (turn : Turn) : Option Turn :=
  match status with
  | some reason => some (.ended c (.error (.cancelled reason)) [])
  | none => if c.accessors.holds me then some turn else none

/-- Go on to the next wait, or to the end.  `me` is the number of the visit that refreshes, `since`
the time at which it began to, and `status` that of its context when it gets its turn; none means
that what the refresh waits for has not happened. -/
def step (c : Cache) (me since now : Nat) (status : Option CancelReason)
    (incoming : Option Incoming) : Stage → Option Turn
  | .claiming => whenHeld c me status (ask c since now none (.start c.cursor) [])
  | .peeking =>
    whenHeld c me status
      (ask { c with accessors := c.accessors.leave me } since now none (.start c.cursor) [])
  | .fetching round => incoming.map (afterPage c me since now round)
  | .installing listing => whenHeld c me status (install c since now listing [])

end Refresh

end DriveDelta
