import DriveDelta.Rehearsal.Pages

/-!
# Rehearsing visits

Visits share a cache and a source of pages: a script, or a remote that is reached through a
pipeline.
-/

set_option autoImplicit false

namespace DriveDelta

/-- Where the pages of a rehearsed cache come from. -/
inductive Source where
  | script (cues : List (Cue (Except Error DeltaPage)))
  | remote (remote : Remote)

/-- A request that has reached a scripted source. -/
structure PageArrival where
  time : Nat
  request : PageRequest

/-- What visits share. -/
structure Depot where
  cache : Cache
  source : Source
  arrivals : List PageArrival := []

/-- The page that a visit waits for. -/
inductive Expected where
  | nothing
  | scripted (p : Pending (Except Error DeltaPage))
  | called (task : PageTask)
  /-- The page, or the reason why there is none. -/
  | answered (answer : Except Error DeltaPage)

/-- A visit in progress. -/
structure VisitTask where
  purpose : Visit.Purpose
  phase : Visit.Phase := .arriving
  expected : Expected := .nothing

namespace VisitTask

def scriptExhausted : Error := .fatal none "script exhausted"

/-- Ask the source for a page. -/
def request (d : Depot) (g : Glance) (cursor : Option String) : Depot × Expected :=
  let q : PageRequest :=
    { container := d.cache.container, cursor, page := d.cache.options.page }
  match d.source with
  | .script cues =>
    let (cue, rest) := Cue.next cues (.error scriptExhausted)
    ({ d with source := .script rest, arrivals := d.arrivals ++ [⟨g.now, q⟩] },
      .scripted (cue.ask g.now))
  | .remote _ => (d, .called (.opening q))

/-- The answer that has been given, as the visit receives it, and whether it cancels the context. -/
def incoming (t : VisitTask) (g : Glance) : Option Refresh.Incoming × Bool :=
  match t.expected with
  | .scripted p =>
    if p.isGiven g.now then
      (some ⟨p.answer, if p.cancels then some .cancelled else g.status⟩, p.cancels)
    else (none, false)
  | .answered answer => (some ⟨answer, g.status⟩, false)
  | .nothing | .called _ => (none, false)

/-- What visits share, what this one waits for, and the log, while the effects of a step are carried
out. -/
structure Scene where
  depot : Depot
  expected : Expected := .nothing
  log : List (LogEvent Double) := []

/-- Carry out one effect. -/
def Scene.perform (g : Glance) (s : Scene) : Visit.Effect → Scene
  | .asked cursor =>
    let (depot, expected) := request s.depot g cursor
    { s with depot, expected }
  | .event e => { s with log := s.log ++ [.visit s.depot.cache.container e] }
  | .arrived | .admitted | .received _ | .installed .. | .ended _ | .returned _ => s

/-- Go on with the visit itself. -/
def visit (g : Glance) (d : Depot) (t : VisitTask) :
    Option (Progress Depot VisitTask Visit.Answer) :=
  let (incoming, cancels) := t.incoming g
  (Visit.step t.purpose d.cache g.me g.now g.status incoming t.phase).map fun s =>
    let scene := s.effects.foldl (Scene.perform g) { depot := { d with cache := s.cache } }
    { shared := scene.depot
      state :=
        match s.phase with
        | .finished answer => .inr answer
        | phase => .inl { t with phase, expected := scene.expected }
      cancels
      log := scene.log }

/-- Go on; none if what the visit waits for has not happened. -/
def step (g : Glance) (d : Depot) (t : VisitTask) :
    Option (Progress Depot VisitTask Visit.Answer) :=
  match t.expected, d.source with
  | .called task, .remote r =>
    (task.step g r).map fun p =>
      { shared := { d with source := .remote p.shared }
        state := .inl { t with expected := p.state.elim .called .answered }
        cancels := p.cancels
        log := p.log }
  | _, _ => visit g d t

def alarms (t : VisitTask) : List Nat :=
  match t.expected with
  | .scripted p => p.due.toList
  | .called task => task.alarms
  | .nothing | .answered _ => []

/-- Visits to one cache. -/
def machine : Machine Depot VisitTask Visit.Answer where
  step := step
  alarms := alarms

end VisitTask

end DriveDelta
