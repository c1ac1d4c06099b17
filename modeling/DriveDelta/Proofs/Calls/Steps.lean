import DriveDelta.Proofs.Admission.Looks
import DriveDelta.Retry.Call

/-!
# Steps of a call

What one step of a call can do, whatever it waits for: end the call because its context is done,
pass on an answer, or spend tokens on a request.

## What is here

* `Call.conclude_phase` and `Call.conclude_eq`, what follows an attempt;
* `Call.Phase.Fits`, a call that draws from the pool its context names;
* `Call.step_of_done`: a context that is done ends the call and does nothing else;
* `Call.step_arriving`, `Call.step_admitting` and `Call.step_exchanging`, steps as equations, with
  `Call.authorized` and `Call.concluded`, what an answer leads to;
* `Call.Advance`, every way in which a call can go on: `Call.advance_of_step` says that there is no
  other;
* `Call.Spending`, what a step does with tokens, and `Call.step_spending`.
-/

set_option autoImplicit false

namespace DriveDelta

open Number

variable {α : Type}

/-! ## Effects -/

namespace Call.Effect

/-- Effects by which a call begins something: it builds a request, asks for a credential, pays, or
sends. -/
def begins : Effect α → Bool
  | .built | .askedCredential | .charged .. | .sent _ => true
  | .fed .. | .admissionEvent _ | .callEvent _ => false

def isCharge : Effect α → Bool
  | .charged .. => true
  | _ => false

def isRequest : Effect α → Bool
  | .sent _ => true
  | _ => false

end Call.Effect

namespace Call

section Conclusions

variable {call : Call} {attempt length now : Nat} {url : String} {outcome : Outcome}
  {status : Option CancelReason}

theorem conclude_error_of_done (call : Call) (attempt length : Nat) (url : String)
    (e : TransportError) (now : Nat) (reason : CancelReason) :
    call.conclude attempt length url (.error e) now (some reason)
      = (.finished (.error (.cancelled reason)), []) := rfl

/-- An attempt is followed by the end of the call, by the next attempt, or by a pause before it. -/
theorem conclude_phase (call : Call) (attempt length : Nat) (url : String) (outcome : Outcome)
    (now : Nat) (status : Option CancelReason) :
    (∃ result, (call.conclude attempt length url outcome now status).1 = .finished result) ∨
      (call.conclude attempt length url outcome now status).1 =
        .building (attempt + 1) (some length) ∨
      ∃ until_, (call.conclude attempt length url outcome now status).1 =
        .backingOff attempt length until_ := by
  rw [conclude.eq_def]
  split
  · exact .inl ⟨_, rfl⟩
  · dsimp only
    split
    · exact .inl ⟨_, rfl⟩
    · split
      · exact .inr (.inl rfl)
      · exact .inr (.inr ⟨_, rfl⟩)

/-- Unless the context is done and there is no response, the budget says what follows. -/
theorem conclude_eq (h : ∀ e, outcome = .error e → status = none) :
    call.conclude attempt length url outcome now status =
      match call.budget.decide attempt (.ofOutcome outcome) with
      | .stop =>
        (.finished (finish outcome (.ofOutcome outcome) attempt).1,
          (finish outcome (.ofOutcome outcome) attempt).2)
      | .again pause =>
        (if pause = 0 then .building (attempt + 1) (some length)
          else .backingOff attempt length (Nanos.wake now pause),
          [.retrying url attempt call.budget.maxAttempts (summary outcome) pause]) := by
  cases outcome with
  | error e => rw [h e rfl]; rfl
  | ok r => cases status <;> rfl

end Conclusions

/-! ## Tokens -/

/-- A call that waits for tokens, or has been admitted, has to do with the pool that its context
names. -/
def Phase.Fits (call : Call) (l : Limiter α) : Phase → Prop
  | .admitting _ _ _ kind _ | .exchanging _ _ _ kind _ =>
    kind = l.kind call.context.serviceClass call.context.options.sliding
  | _ => True

theorem Phase.Fits.of_alike {call : Call} {l l' : Limiter α} {phase : Phase} (h : phase.Fits call l)
    (hl : l.Alike l') : phase.Fits call l' := by
  cases phase with
  | admitting _ _ _ kind _ | exchanging _ _ _ kind _ => exact h.trans (hl.kind_eq _ _).symm
  | _ => trivial

/-- What follows an attempt has nothing to do with a pool. -/
theorem conclude_fits (call : Call) (l : Limiter α) (attempt length : Nat) (url : String)
    (outcome : Outcome) (now : Nat) (status : Option CancelReason) :
    (call.conclude attempt length url outcome now status).1.Fits call l := by
  rcases conclude_phase call attempt length url outcome now status with
    ⟨_, h⟩ | h | ⟨_, h⟩ <;> rw [h] <;> trivial

/-- Effects that begin nothing. -/
def Quiet (effects : List (Effect α)) : Prop := ∀ e ∈ effects, e.begins = false

/-- Effects that neither take tokens nor send. -/
def Free (effects : List (Effect α)) : Prop :=
  ∀ e ∈ effects, e.isCharge = false ∧ e.isRequest = false

theorem Quiet.free {effects : List (Effect α)} (h : Quiet effects) : Free effects := by
  intro e he
  have hq := h e he
  cases e with
  | charged | sent => exact absurd hq (by simp [Effect.begins])
  | _ => exact ⟨rfl, rfl⟩

theorem quiet_admissionEvents (events : List (AdmissionEvent α)) :
    Quiet (events.map .admissionEvent) := by
  intro e he
  obtain ⟨_, -, rfl⟩ := List.mem_map.1 he
  rfl

theorem quiet_callEvents (events : List CallEvent) :
    Quiet (events.map (.callEvent : CallEvent → Effect α)) := by
  intro e he
  obtain ⟨_, -, rfl⟩ := List.mem_map.1 he
  rfl

variable [Number α]

/-- What a step does with tokens, told from the limiter after it and its effects. -/
inductive Spending (call : Call) (now : Nat) (l l' : Limiter α) (effects : List (Effect α)) :
    Prop where
  /-- It takes none, and sends nothing. -/
  | nothing (h : l.Idles now l') (heffects : Free effects)
  /-- It is one admission, after which one request is sent. -/
  | request (request : Request) (events : List (AdmissionEvent α))
      (h : l.Admits call.context.serviceClass
        (l.kind call.context.serviceClass call.context.options.sliding) call.context.cost now l')
      (heffects : effects = events.map .admissionEvent ++
        [.charged call.context.serviceClass
          (l.kind call.context.serviceClass call.context.options.sliding) call.context.cost,
          .sent request])

variable {call : Call} {l l' : Limiter α} {now attempt length : Nat} {request : Request}
  {kind : PoolKind} {status : Option CancelReason} {turn : Turn}

theorem Spending.alike {effects : List (Effect α)} (h : Spending call now l l' effects) :
    l.Alike l' := by
  cases h with
  | nothing h => exact h.alike
  | request _ _ h => exact h.alike

/-- A step that leaves the limiter alone, and neither takes tokens nor sends. -/
theorem Spending.of_free {effects : List (Effect α)} (h : Free effects) :
    Spending call now l l effects := .nothing (.refl l now) h

/-- What a look at the pool leads to. -/
theorem admitted_spending
    (hkind : kind = l.kind call.context.serviceClass call.context.options.sliding)
    (hl : Limiter.Looked call.context.serviceClass kind call.context.cost now l status l' turn)
    (events : List (AdmissionEvent α)) {s : Step α}
    (hs : call.admitted l' now attempt length request kind turn (events.map .admissionEvent) = s) :
    Spending call now l s.limiter s.effects ∧ s.phase.Fits call l := by
  subst hs hkind
  have hevents := (quiet_admissionEvents events).free
  cases hl with
  | cancelled reason => exact ⟨.of_free hevents, trivial⟩
  | granted hl => exact ⟨.request request events hl rfl, rfl⟩
  | asleep hl _ _ => exact ⟨.nothing hl hevents, rfl⟩

/-- A context that is done ends the call, whatever it waits for, and nothing else happens. -/
theorem step_of_done (call : Call) (l : Limiter α) (now : Nat) (reason : CancelReason)
    (incoming : Incoming) {phase : Phase} (h : ∀ result, phase ≠ .finished result) :
    call.step l now (some reason) incoming phase
      = some ⟨l, .finished (.error (.cancelled reason)), []⟩ := by
  cases phase with
  | finished result => exact absurd rfl (h result)
  | admitting attempt length request kind until_ =>
    simp [step, Limiter.resume, Pool.resume, Pool.turn, admitted]
  | _ => rfl

/-- A newcomer looks at the pool at once. -/
theorem step_arriving (call : Call) (l : Limiter α) (now : Nat) (status : Option CancelReason)
    (incoming : Incoming) (attempt length : Nat) (request : Request) {kind : PoolKind}
    (hkind : l.kind call.context.serviceClass call.context.options.sliding = kind)
    {a : Limiter α × Turn × List (AdmissionEvent α)}
    (ha : l.arrive call.context.serviceClass kind call.context.cost now status = a) :
    call.step l now status incoming (.arriving attempt length request) =
      some (call.admitted a.1 now attempt length request kind a.2.1
        (a.2.2.map .admissionEvent)) := by
  subst hkind ha
  rfl

/-- A sleeper looks at the pool again once it is time. -/
theorem step_admitting (call : Call) (l : Limiter α) (now : Nat) (status : Option CancelReason)
    (incoming : Incoming) (attempt length : Nat) (request : Request) (kind : PoolKind)
    (until_ : Nat) :
    call.step l now status incoming (.admitting attempt length request kind until_) =
      (l.resume call.context.serviceClass kind call.context.cost now status until_).map
        fun a => call.admitted a.1 now attempt length request kind a.2 [] := rfl

/-- An attempt goes on once it has been given a credential, and is concluded when it has been
refused one. -/
def authorized {α : Type} (call : Call) (l : Limiter α) (now attempt length : Nat)
    (request : Request) (answer : Except TransportError String) (after : Option CancelReason) : Step α :=
  match answer with
  | .ok value => ⟨l, .arriving attempt length (request.setHeader "Authorization" value), []⟩
  | .error e =>
    let r := call.conclude attempt length request.url (.error e) now after
    ⟨l, r.1, r.2.map .callEvent⟩

omit [Number α] in
theorem quiet_authorized (call : Call) (l : Limiter α) (now attempt length : Nat)
    (request : Request) (answer : Except TransportError String) (after : Option CancelReason) :
    Quiet (call.authorized l now attempt length request answer after).effects := by
  cases answer with
  | ok value => simp [authorized, Quiet]
  | error e => exact quiet_callEvents _

/-- The end of an exchange: what it observed is passed on, and the attempt is concluded. -/
def concluded (call : Call) (l : Limiter α) (now attempt length : Nat) (url : String)
    (kind : PoolKind) (outcome : Outcome) (after : Option CancelReason) : Step α :=
  let fed := l.complete call.context.serviceClass kind (feedback outcome) now
  let r := call.conclude attempt length url outcome now after
  ⟨fed.1, r.1, .fed call.context.serviceClass kind (feedback outcome) ::
    fed.2.map .admissionEvent ++ r.2.map .callEvent⟩

/-- An exchange ends with a response or when its time is up. -/
theorem step_exchanging (call : Call) (l : Limiter α) (now : Nat) (incoming : Incoming)
    (attempt length : Nat) (url : String) (kind : PoolKind) (expires : Nat) :
    call.step l now none incoming (.exchanging attempt length url kind expires) =
      match incoming with
      | .response outcome after =>
        some (call.concluded l now attempt length url kind outcome after)
      | _ =>
        if expires ≤ now then
          some (call.concluded l now attempt length url kind (.error .handlerTimeout) none)
        else none := by
  cases incoming <;> rfl

theorem quiet_concluded (call : Call) (l : Limiter α) (now attempt length : Nat) (url : String)
    (kind : PoolKind) (outcome : Outcome) (after : Option CancelReason) :
    Quiet (call.concluded l now attempt length url kind outcome after).effects := by
  intro e he
  rcases List.mem_append.1 he with he | he
  · rcases List.mem_cons.1 he with rfl | he
    · rfl
    · exact quiet_admissionEvents _ e he
  · exact quiet_callEvents _ e he

/-! ## Every way to go on -/

/-- Every way in which a call can go on from a phase. -/
inductive Advance (call : Call) (l : Limiter α) (now : Nat) :
    Option CancelReason → Incoming → Phase → Step α → Prop
  /-- Its context is done. -/
  | stopped {incoming : Incoming} {phase : Phase} (reason : CancelReason)
      (hp : ∀ result, phase ≠ .finished result) :
      Advance call l now (some reason) incoming phase
        ⟨l, .finished (.error (.cancelled reason)), []⟩
  /-- No request can be built. -/
  | unbuilt {incoming : Incoming} {attempt : Nat} {length : Option Nat} {e : Error}
      (hb : call.build attempt = .error e) :
      Advance call l now none incoming (.building attempt length)
        ⟨l, .finished (.error e), [.built]⟩
  /-- The request that is built differs in size from the first one. -/
  | mismatched {incoming : Incoming} {attempt expected : Nat} {request : Request}
      (hb : call.build attempt = .ok request) (hne : expected ≠ request.body.length) :
      Advance call l now none incoming (.building attempt (some expected))
        ⟨l, .finished (.error (.fatal none (bodyChanged expected request.body.length))), [.built]⟩
  /-- A request is built, and a credential is asked for. -/
  | asked {incoming : Incoming} {attempt : Nat} {length : Option Nat} {request : Request}
      (hb : call.build attempt = .ok request) (hl : ∀ n ∈ length, n = request.body.length)
      (ha : call.authenticated = true) :
      Advance call l now none incoming (.building attempt length)
        ⟨l, .authorizing attempt request.body.length request, [.built, .askedCredential]⟩
  /-- A request is built that needs no credential. -/
  | ready {incoming : Incoming} {attempt : Nat} {length : Option Nat} {request : Request}
      (hb : call.build attempt = .ok request) (hl : ∀ n ∈ length, n = request.body.length)
      (ha : call.authenticated = false) :
      Advance call l now none incoming (.building attempt length)
        ⟨l, .arriving attempt request.body.length request, [.built]⟩
  /-- A credential is given, or refused. -/
  | answered {attempt length : Nat} {request : Request} (answer : Except TransportError String)
      (after : Option CancelReason) :
      Advance call l now none (.credential answer after) (.authorizing attempt length request)
        (call.authorized l now attempt length request answer after)
  /-- It looks at the pool for the first time. -/
  | arrived {incoming : Incoming} {attempt length : Nat} {request : Request} {kind : PoolKind}
      {a : Limiter α × Turn × List (AdmissionEvent α)}
      (hkind : l.kind call.context.serviceClass call.context.options.sliding = kind)
      (ha : l.arrive call.context.serviceClass kind call.context.cost now none = a) :
      Advance call l now none incoming (.arriving attempt length request)
        (call.admitted a.1 now attempt length request kind a.2.1 (a.2.2.map .admissionEvent))
  /-- It has slept and looks at the pool again. -/
  | resumed {incoming : Incoming} {attempt length : Nat} {request : Request} {kind : PoolKind}
      {until_ : Nat} {a : Limiter α × Turn}
      (ha : l.resume call.context.serviceClass kind call.context.cost now none until_ = some a) :
      Advance call l now none incoming (.admitting attempt length request kind until_)
        (call.admitted a.1 now attempt length request kind a.2 [])
  /-- There is a response, or none and an error for it. -/
  | responded {attempt length : Nat} {url : String} {kind : PoolKind} {expires : Nat}
      (outcome : Outcome) (after : Option CancelReason) :
      Advance call l now none (.response outcome after)
        (.exchanging attempt length url kind expires)
        (call.concluded l now attempt length url kind outcome after)
  /-- The time for a response is up. -/
  | expired {incoming : Incoming} {attempt length : Nat} {url : String} {kind : PoolKind}
      {expires : Nat} (hno : ∀ outcome after, incoming ≠ .response outcome after)
      (hdue : expires ≤ now) :
      Advance call l now none incoming (.exchanging attempt length url kind expires)
        (call.concluded l now attempt length url kind (.error .handlerTimeout) none)
  /-- A pause is over. -/
  | rested {incoming : Incoming} {attempt length until_ : Nat} (hdue : until_ ≤ now) :
      Advance call l now none incoming (.backingOff attempt length until_)
        ⟨l, .building (attempt + 1) (some length), []⟩

/-- A call goes on in no other way. -/
theorem advance_of_step {phase : Phase} {incoming : Incoming} {s : Step α}
    (h : call.step l now status incoming phase = some s) :
    Advance call l now status incoming phase s := by
  cases status with
  | some reason =>
    by_cases hf : ∃ result, phase = .finished result
    · obtain ⟨result, rfl⟩ := hf
      exact absurd h (by simp [step])
    · have hp : ∀ result, phase ≠ .finished result := fun result he => hf ⟨result, he⟩
      rw [step_of_done call l now reason incoming hp, Option.some_inj] at h
      exact h ▸ .stopped reason hp
  | none =>
    cases phase with
    | building attempt length =>
      simp only [step] at h
      split at h
      · rename_i e hb
        rw [Option.some_inj] at h
        exact h ▸ .unbuilt hb
      · rename_i request hb
        split at h
        · rename_i hne
          rw [Option.some_inj] at h
          cases length with
          | none => exact absurd rfl hne
          | some expected => exact h ▸ .mismatched hb hne
        · rename_i heq
          have hl : ∀ n ∈ length, n = request.body.length := by
            intro n hn
            rw [hn] at heq
            exact not_not.1 heq
          split at h
          · rename_i ha
            rw [Option.some_inj] at h
            exact h ▸ .asked hb hl ha
          · rename_i ha
            rw [Option.some_inj] at h
            exact h ▸ .ready hb hl (Bool.eq_false_iff.2 ha)
    | authorizing attempt length request =>
      cases incoming with
      | credential answer after =>
        have hs : step call l now none (.credential answer after)
            (.authorizing attempt length request) =
              some (call.authorized l now attempt length request answer after) := by
          cases answer <;> rfl
        rw [hs, Option.some_inj] at h
        exact h ▸ .answered answer after
      | _ => exact absurd h (by simp [step])
    | arriving attempt length request =>
      rw [step_arriving call l now none incoming attempt length request rfl rfl,
        Option.some_inj] at h
      exact h ▸ .arrived rfl rfl
    | admitting attempt length request kind until_ =>
      rw [step_admitting, Option.map_eq_some_iff] at h
      obtain ⟨a, ha, rfl⟩ := h
      exact .resumed ha
    | exchanging attempt length url kind expires =>
      rw [step_exchanging] at h
      split at h
      · rename_i outcome after
        rw [Option.some_inj] at h
        exact h ▸ .responded outcome after
      · rename_i hno
        split at h
        · rename_i hdue
          rw [Option.some_inj] at h
          exact h ▸ .expired hno hdue
        · exact absurd h (by simp)
    | backingOff attempt length until_ =>
      simp only [step] at h
      split at h
      · rename_i hdue
        rw [Option.some_inj] at h
        exact h ▸ .rested hdue
      · exact absurd h (by simp)
    | finished result => exact absurd h (by simp [step])

/-- **A step takes tokens only for a request that it sends.** -/
theorem step_spending {phase : Phase} {incoming : Incoming} {s : Step α}
    (hfits : phase.Fits call l) (h : call.step l now status incoming phase = some s) :
    Spending call now l s.limiter s.effects ∧ s.phase.Fits call s.limiter := by
  suffices hs : Spending call now l s.limiter s.effects ∧ s.phase.Fits call l from
    ⟨hs.1, hs.2.of_alike hs.1.alike⟩
  cases advance_of_step h with
  | stopped | rested => exact ⟨.of_free (by simp [Free]), trivial⟩
  | unbuilt | mismatched | asked | ready =>
    exact ⟨.of_free (by simp [Free, Effect.isCharge, Effect.isRequest]), trivial⟩
  | answered answer after =>
    cases answer with
    | ok value => exact ⟨.of_free (by simp [Free, authorized]), trivial⟩
    | error e => exact ⟨.of_free (quiet_callEvents _).free, conclude_fits ..⟩
  | arrived hkind ha =>
    subst hkind ha
    exact admitted_spending rfl (Limiter.arrive_looked (l.has_kind _ _) _ now none) _ rfl
  | @resumed _ _ _ _ kind _ a ha =>
    obtain rfl : kind = _ := hfits
    exact admitted_spending rfl (Limiter.resume_looked (l.has_kind _ _) ha).2 [] rfl
  | responded | expired =>
    exact ⟨.nothing (l.complete_idles _ _ _ now) (quiet_concluded _ _ _ _ _ _ _ _ _).free,
      conclude_fits ..⟩

end Call

end DriveDelta
