import DriveDelta.Rehearsal.Cue
import DriveDelta.Rehearsal.Run

/-!
# Rehearsing calls

Calls share a limiter, a wire that follows a script, and perhaps a provider of credentials that
follows another.
-/

set_option autoImplicit false

namespace DriveDelta

/-- A request that has reached the wire. -/
structure Arrival where
  time : Nat
  serviceClass : ServiceClass
  request : Request

/-- What calls share. -/
structure Pipeline where
  limiter : Limiter Double
  /-- The budget of calls whose context brings none. -/
  budget : RetryBudget
  wire : List (Cue Call.Outcome) := []
  /-- The script of the provider of credentials, if there is one. -/
  provider : Option (List (Cue (Except TransportError String))) := none
  /-- How often a credential has been asked for. -/
  asked : Nat := 0
  arrivals : List Arrival := []

namespace Pipeline

/-- The credential that is given when the script has ended. -/
def ticket (n : Nat) : Except TransportError String := .ok ("Bearer t" ++ toString n)

/-- Ask for a credential. -/
def askCredential (p : Pipeline) (now : Nat) :
    Pipeline × Pending (Except TransportError String) :=
  let (cue, rest) := Cue.next (p.provider.getD []) (ticket (p.asked + 1))
  ({ p with provider := p.provider.map fun _ => rest, asked := p.asked + 1 }, cue.ask now)

/-- Send a request. -/
def send (p : Pipeline) (now : Nat) (c : ServiceClass) (request : Request) :
    Pipeline × Pending Call.Outcome :=
  let (cue, rest) := Cue.next p.wire (.ok { status := 200 })
  ({ p with wire := rest, arrivals := p.arrivals ++ [⟨now, c, request⟩] }, cue.ask now)

end Pipeline

/-- An answer that a call waits for. -/
inductive Awaited where
  | nothing
  | credential (p : Pending (Except TransportError String))
  | response (p : Pending Call.Outcome)

namespace Awaited

/-- The time at which the answer is given. -/
def due : Awaited → Option Nat
  | nothing => none
  | credential p => p.due
  | response p => p.due

def isGiven (a : Awaited) (now : Nat) : Bool := (a.due.map (decide <| · ≤ now)).getD false

/-- Whether giving the answer cancels the context. -/
def cancels : Awaited → Bool
  | nothing => false
  | credential p => p.cancels
  | response p => p.cancels

/-- The answer as the call receives it. -/
def incoming (a : Awaited) (status : Option CancelReason) : Call.Incoming :=
  let after := if a.cancels then some .cancelled else status
  match a with
  | nothing => .nothing
  | credential p => .credential p.answer after
  | response p => .response p.answer after

end Awaited

/-- A call in progress. -/
structure CallTask where
  call : Call
  phase : Call.Phase := Call.start
  awaited : Awaited := .nothing
  /-- How often the builder has been invoked. -/
  builds : Nat := 0

namespace CallTask

/-- The result of a call, and how often its builder was invoked. -/
structure Result where
  result : Except Error Response
  builds : Nat

/-- The outside world and the task while the effects of a step are carried out. -/
structure Scene where
  pipeline : Pipeline
  awaited : Awaited
  builds : Nat
  log : List (LogEvent Double)

/-- Carry out one effect. -/
def Scene.perform (now : Nat) (c : ServiceClass) (s : Scene) : Call.Effect Double → Scene
  | .built => { s with builds := s.builds + 1 }
  | .askedCredential =>
    let r := s.pipeline.askCredential now
    { s with pipeline := r.1, awaited := .credential r.2 }
  | .sent request =>
    let r := s.pipeline.send now c request
    { s with pipeline := r.1, awaited := .response r.2 }
  | .charged .. | .fed .. => s
  | .admissionEvent e => { s with log := s.log ++ [.admission e] }
  | .callEvent e => { s with log := s.log ++ [.call e] }

/-- Points in time that a call waits for. -/
def alarms (t : CallTask) : List Nat :=
  t.awaited.due.toList ++
    match t.phase with
    | .admitting _ _ _ _ until_ | .backingOff _ _ until_ => [until_]
    | .exchanging _ _ _ _ expires => [expires]
    | _ => []

/-- Go on; none if what the call waits for has not happened. -/
def step (g : Glance) (p : Pipeline) (t : CallTask) :
    Option (Progress Pipeline CallTask Result) :=
  let given := t.awaited.isGiven g.now
  let incoming := if given then t.awaited.incoming g.status else .nothing
  (t.call.step p.limiter g.now g.status incoming t.phase).map fun s =>
    let scene : Scene :=
      { pipeline := { p with limiter := s.limiter }, awaited := .nothing, builds := t.builds,
        log := [] }
    let scene := s.effects.foldl (Scene.perform g.now t.call.context.serviceClass) scene
    { shared := scene.pipeline
      state :=
        match s.phase with
        | .finished result => .inr ⟨result, scene.builds⟩
        | phase =>
          .inl { t with phase, awaited := scene.awaited, builds := scene.builds }
      cancels := given && g.status.isNone && t.awaited.cancels
      log := scene.log }

end CallTask

/-- What a rehearsed call sends, and where its bodies come from. -/
structure CallScript where
  method : Method
  url : String
  headers : Headers := []
  /-- What the builder gives at its first, second, … invocation; the last one is repeated. -/
  builds : List (Except Error Bytes)

namespace CallScript

/-- The `n`-th entry, counted from one, or the last one. -/
def nthOrLast {β : Type} (xs : List β) (n : Nat) : Option β := xs[min (n - 1) (xs.length - 1)]?

/-- The request that the `n`-th attempt builds. -/
def build (s : CallScript) (n : Nat) : Except Error Request := do
  let body ← (nthOrLast s.builds n).getD (.ok [])
  let request : Request := { method := s.method, url := s.url, body }
  return s.headers.foldl (fun r h => r.setHeader h.1 h.2) request

end CallScript

/-- A task that makes one call; the call is made up when the task gets its first turn. -/
inductive CallerTask where
  | opening (script : CallScript)
  | calling (task : CallTask)

namespace CallerTask

/-- Tasks that make one call each. -/
def machine : Machine Pipeline CallerTask CallTask.Result where
  step g p t :=
    match t with
    | .opening script =>
      let call : Call :=
        { context := g.context
          budget := g.context.retryBudget?.getD p.budget
          build := script.build
          authenticated := p.provider.isSome }
      some { shared := p, state := .inl (.calling { call }) }
    | .calling task =>
      (task.step g p).map fun r =>
        { shared := r.shared, state := r.state.map .calling id, cancels := r.cancels,
          log := r.log }
  alarms
    | .opening _ => []
    | .calling task => task.alarms

end CallerTask

end DriveDelta
