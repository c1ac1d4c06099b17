import DriveDelta.Admission.Acquire

/-!
# Calls with retries

A call makes attempts until one of them settles it or its budget is used up.  Each attempt builds
its request, asks for a credential if there is a provider, waits to be admitted, and makes one
exchange.  A call is a machine: a phase says what it is waiting for, and `Call.step` takes it to the
next wait, or says that it has to go on waiting.

## What is here

* `Call`, what does not change during a call, and `Call.Phase`, where it stands;
* `Call.Incoming`, an answer from outside, and `Call.Effect`, what the call does to the outside;
* `Call.conclude`, what follows one attempt, and `Call.finish`, the result that the last one gives;
* `Call.step`.
-/

set_option autoImplicit false

namespace DriveDelta

variable {α : Type}

/-- What does not change during a call. -/
structure Call where
  context : Context
  budget : RetryBudget
  /-- The request that the `n`-th attempt builds, counted from one. -/
  build : Nat → Except Error Request
  /-- Whether every attempt asks for a credential. -/
  authenticated : Bool

/-- What a call leaves in the log. -/
inductive CallEvent where
  | retrying (url : String) (attempt maxAttempts : Nat) (outcome : Except TransportError Nat)
      (pause : Nat)
  | exhausted (attempts : Nat) (outcome : Except TransportError Nat)

namespace Call

/-- The result of one attempt. -/
abbrev Outcome := Except TransportError Response

/-- Where a call stands. -/
inductive Phase where
  /-- Before attempt number `attempt`; `length` is the size of the first body, if there was one. -/
  | building (attempt : Nat) (length : Option Nat)
  /-- Waiting for a credential. -/
  | authorizing (attempt length : Nat) (request : Request)
  /-- About to ask for admission. -/
  | arriving (attempt length : Nat) (request : Request)
  /-- Waiting for tokens until a time. -/
  | admitting (attempt length : Nat) (request : Request) (kind : PoolKind) (until_ : Nat)
  /-- Waiting for the response, which must come before a time. -/
  | exchanging (attempt length : Nat) (url : String) (kind : PoolKind) (expires : Nat)
  /-- Pausing until a time before the next attempt. -/
  | backingOff (attempt length : Nat) (until_ : Nat)
  | finished (result : Except Error Response)

/-- An answer from outside, with the status that the context has once it is given. -/
inductive Incoming where
  | nothing
  | credential (answer : Except TransportError String) (status : Option CancelReason)
  | response (answer : Outcome) (status : Option CancelReason)

/-- What a call does to the outside, in order. -/
inductive Effect (α : Type) where
  /-- The builder is invoked. -/
  | built
  /-- A credential is asked for. -/
  | askedCredential
  /-- Tokens are taken from a pool. -/
  | charged (c : ServiceClass) (kind : PoolKind) (cost : Nat)
  /-- A request goes out. -/
  | sent (request : Request)
  /-- The admission is completed. -/
  | fed (c : ServiceClass) (kind : PoolKind) (feedback : Feedback)
  | admissionEvent (event : AdmissionEvent α)
  | callEvent (event : CallEvent)

/-- The state of the limiter and of the call after a step, and what the step did. -/
structure Step (α : Type) where
  limiter : Limiter α
  phase : Phase
  effects : List (Effect α) := []

/-- What an exchange tells the pool that admitted it. -/
def feedback : Outcome → Feedback
  | .ok r =>
    if r.status = 429 ∨ r.status = 503 then .throttled
    else if r.isSuccess then .success
    else .neutral
  | .error _ => .neutral

/-- The status of an outcome, or its transport error. -/
def summary : Outcome → Except TransportError Nat := Except.map (·.status)

/-- The result of a call whose last attempt had this outcome, and what it leaves in the log. -/
def finish (outcome : Outcome) (d : Decision) (attempts : Nat) :
    Except Error Response × List CallEvent :=
  match outcome, d with
  | .ok r, .noRetry =>
    if r.isSuccess then (.ok r, []) else (.error (.fatal (some r.status) r.excerpt), [])
  | .ok r, .fatal =>
    (.error (.fatal (some r.status) ("unexpected status " ++ toString r.status)), [])
  | .error e, .fatal | .error e, .noRetry => (.error (.fatal none e.message), [])
  | .ok r, _ =>
    (.error (.throttled attempts (some r.status) none), [.exhausted attempts (.ok r.status)])
  | .error e, _ =>
    if e.isTransient then
      (.error (.throttled attempts none (some e.message)), [.exhausted attempts (.error e)])
    else
      (.error (.fatal none
        ("giving up after " ++ toString attempts ++ " attempts: " ++ e.message)), [])

/-- What follows an attempt: the end of the call, or a pause before the next attempt.  `status` is
that of the context after the attempt; a context that is done turns a transport error into its
cancellation, but not a response. -/
def conclude (call : Call) (attempt length : Nat) (url : String) (outcome : Outcome) (now : Nat)
    (status : Option CancelReason) : Phase × List CallEvent :=
  match outcome, status with
  | .error _, some reason => (.finished (.error (.cancelled reason)), [])
  | _, _ =>
    let d := Decision.ofOutcome outcome
    match call.budget.decide attempt d with
    | .stop =>
      let r := finish outcome d attempt
      (.finished r.1, r.2)
    | .again pause =>
      (if pause = 0 then .building (attempt + 1) (some length)
        else .backingOff attempt length (Nanos.wake now pause),
        [.retrying url attempt call.budget.maxAttempts (summary outcome) pause])

/-- The text of the error for a body that differs in size from the first one. -/
def bodyChanged (expected got : Nat) : String :=
  "request body changed between attempts: expected " ++ toString expected ++ " bytes, got " ++
    toString got

variable [Number α]

/-- What a look at the pool leads to. -/
def admitted (call : Call) (l : Limiter α) (now attempt length : Nat) (request : Request)
    (kind : PoolKind) (turn : Turn) (events : List (Effect α)) : Step α :=
  match turn with
  | .cancelled reason => ⟨l, .finished (.error (.cancelled reason)), events⟩
  | .asleep until_ => ⟨l, .admitting attempt length request kind until_, events⟩
  | .granted =>
    ⟨l, .exchanging attempt length request.url kind (Nanos.wake now call.budget.perCallTimeout),
      events ++ [.charged call.context.serviceClass kind call.context.cost, .sent request]⟩

/-- Go on to the next wait.  `status` is that of the context when the call gets its turn; none
means that what the call waits for has not happened. -/
def step (call : Call) (l : Limiter α) (now : Nat) (status : Option CancelReason)
    (incoming : Incoming) : Phase → Option (Step α)
  | .building attempt length =>
    match status with
    | some reason => some ⟨l, .finished (.error (.cancelled reason)), []⟩
    | none =>
      match call.build attempt with
      | .error e => some ⟨l, .finished (.error e), [.built]⟩
      | .ok request =>
        let size := request.body.length
        let expected := length.getD size
        if expected ≠ size then
          some ⟨l, .finished (.error (.fatal none (bodyChanged expected size))), [.built]⟩
        else if call.authenticated then
          some ⟨l, .authorizing attempt size request, [.built, .askedCredential]⟩
        else some ⟨l, .arriving attempt size request, [.built]⟩
  | .authorizing attempt length request =>
    match status, incoming with
    | some reason, _ => some ⟨l, .finished (.error (.cancelled reason)), []⟩
    | none, .credential (.ok value) _ =>
      some ⟨l, .arriving attempt length (request.setHeader "Authorization" value), []⟩
    | none, .credential (.error e) after =>
      let r := call.conclude attempt length request.url (.error e) now after
      some ⟨l, r.1, r.2.map .callEvent⟩
    | none, _ => none
  | .arriving attempt length request =>
    let c := call.context.serviceClass
    let kind := l.kind c call.context.options.sliding
    let (l', turn, events) := l.arrive c kind call.context.cost now status
    some (call.admitted l' now attempt length request kind turn (events.map .admissionEvent))
  | .admitting attempt length request kind until_ =>
    (l.resume call.context.serviceClass kind call.context.cost now status until_).map
      fun (l', turn) => call.admitted l' now attempt length request kind turn []
  | .exchanging attempt length url kind expires =>
    let conclude (outcome : Outcome) (after : Option CancelReason) : Step α :=
      let c := call.context.serviceClass
      let f := feedback outcome
      let (l', events) := l.complete c kind f now
      let r := call.conclude attempt length url outcome now after
      ⟨l', r.1, .fed c kind f :: events.map .admissionEvent ++ r.2.map .callEvent⟩
    match status, incoming with
    | some reason, _ => some ⟨l, .finished (.error (.cancelled reason)), []⟩
    | none, .response outcome after => some (conclude outcome after)
    | none, _ => if expires ≤ now then some (conclude (.error .handlerTimeout) none) else none
  | .backingOff attempt length until_ =>
    match status with
    | some reason => some ⟨l, .finished (.error (.cancelled reason)), []⟩
    | none => if until_ ≤ now then some ⟨l, .building (attempt + 1) (some length), []⟩ else none
  | .finished _ => none

/-- Where a call begins. -/
def start : Phase := .building 1 none

end Call

end DriveDelta
