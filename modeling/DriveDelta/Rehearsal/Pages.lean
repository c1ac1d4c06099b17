import DriveDelta.Delta.Fetch
import DriveDelta.Rehearsal.Calls

/-!
# Rehearsing page fetches

Tasks that fetch one page each, over a pipeline.
-/

set_option autoImplicit false

namespace DriveDelta

/-- What tasks that fetch pages share: a base URL and the pipeline. -/
structure Remote where
  base : String
  pipeline : Pipeline

/-- A page fetch that has not begun, or whose call is in progress. -/
inductive PageTask where
  | opening (request : PageRequest)
  | calling (request : PageRequest) (task : CallTask)

namespace PageTask

abbrev Result := Except Error DeltaPage

/-- Begin a fetch: find the address and make up the call. -/
def begin (request : PageRequest) (r : Remote) (context : Context) : PageTask ⊕ Result :=
  match request.address r.base with
  | .error e => .inr (.error e)
  | .ok address =>
    .inl (.calling request
      { call := PageRequest.call address context r.pipeline.budget r.pipeline.provider.isSome })

/-- Go on; none if what the fetch waits for has not happened. -/
def step (g : Glance) (r : Remote) : PageTask → Option (Progress Remote PageTask Result)
  | .opening request => some { shared := r, state := begin request r g.context }
  | .calling request task =>
    (task.step g r.pipeline).map fun p =>
      { shared := { r with pipeline := p.shared }
        state := p.state.map (.calling request) fun result => request.result result.result
        cancels := p.cancels
        log := p.log }

def alarms : PageTask → List Nat
  | .opening _ => []
  | .calling _ task => task.alarms

/-- Tasks that fetch one page each. -/
def machine : Machine Remote PageTask Result where
  step := step
  alarms := alarms

end PageTask

end DriveDelta
