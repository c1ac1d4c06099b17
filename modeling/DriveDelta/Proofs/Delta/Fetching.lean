import DriveDelta.Proofs.Calls.Attempts
import DriveDelta.Proofs.Calls.Standing
import DriveDelta.Rehearsal.Pages

/-!
# Fetching a page from end to end

A page is fetched by one call with retries.  Nothing is said here about what happens between two
turns of the fetch: others may use the limiter and the wire, scripts may change, and the context may
become done at any time.  Still all that the fetch sends is for one address, all tokens that it
takes are for bulk traffic, and its answer is what the result of its call makes of it.

## What is here

* `Limiter.pools_arrive_of_ne`, `Limiter.pools_resume_of_ne` and `Limiter.pools_complete_of_ne`:
  whoever waits for tokens of one class leaves the pools of the others;
* `Call.Step.Sends` with `Call.Advance.sends`, what is sent is what was built, and
  `Call.Advance.pools_of_ne`;
* `Call.response?`, the response that a call is given in a turn, and what it ends with, with one
  (`Call.Advance.finished_of_response`) and without (`Call.Advance.finished_of_none`);
* `PageRequest.Answers`, what a request is answered by;
* `PageTask.Turns`, the turns of a fetch, and `PageTask.Underway`, where it stands between them;
* `PageTask.Refused` and `PageTask.Fetches`, what becomes of a fetch,
  `PageTask.fetch_page_from_end_to_end`, and `PageTask.alone`, the turns of a fetch on its own.
-/

set_option autoImplicit false

namespace DriveDelta

/-! ## Pools of other classes -/

namespace Limiter

variable {α : Type} [Number α] {l : Limiter α} {c c' : ServiceClass}

theorem pools_arrive_of_ne (h : c' ≠ c) (l : Limiter α) (k : PoolKind) (cost now : Nat)
    (status : Option CancelReason) :
    (l.arrive c k cost now status).1.pools c' = l.pools c' := by
  rw [arrive.eq_def]
  split
  · rfl
  · split <;> exact pools_setPool_of_ne h

theorem pools_resume_of_ne (h : c' ≠ c) {k : PoolKind} {cost now until_ : Nat}
    {status : Option CancelReason} {a : Limiter α × Turn}
    (ha : l.resume c k cost now status until_ = some a) : a.1.pools c' = l.pools c' := by
  obtain ⟨x, -, rfl⟩ := Option.map_eq_some_iff.1 ha
  exact pools_setPool_of_ne h

theorem pools_complete_of_ne (h : c' ≠ c) (l : Limiter α) (k : PoolKind) (f : Feedback)
    (now : Nat) : (l.complete c k f now).1.pools c' = l.pools c' := by
  cases k with
  | static => rfl
  | sliding =>
    show (l.feed c f now).1.pools c' = l.pools c'
    rw [feed.eq_def]
    split
    · rw [pools_setPools, if_neg h]
    · rw [pools_setPools, if_neg h]
    · rfl

end Limiter

/-! ## One step of a call -/

/-- An error that does not stand for a response that ended a call. -/
structure Error.Unanswered (e : Error) : Prop where
  not_expired : e ≠ .cursorExpired
  not_answered : ∀ status problem, e ≠ .fatal (some status) problem

namespace Call

variable {α : Type}

/-- The request that an attempt has built and has not sent yet. -/
def Phase.request? : Phase → Option Request
  | .authorizing _ _ request | .arriving _ _ request | .admitting _ _ request _ _ => some request
  | _ => none

/-- The response that a call is given when it gets its turn. -/
def response? (status : Option CancelReason) (incoming : Incoming) : Phase → Option Response
  | .exchanging .. =>
    match status, incoming with
    | none, .response (.ok response) _ => some response
    | _, _ => none
  | _ => none

variable {call : Call} {attempt length now : Nat} {url : String} {outcome : Outcome}
  {status : Option CancelReason} {result : Except Error Response}

theorem request?_conclude (call : Call) (attempt length : Nat) (url : String) (outcome : Outcome)
    (now : Nat) (status : Option CancelReason) :
    (call.conclude attempt length url outcome now status).1.request? = none := by
  rcases conclude_phase call attempt length url outcome now status with
    ⟨_, h⟩ | h | ⟨_, h⟩ <;> rw [h] <;> rfl

/-- An attempt that ends its call ends it with its own result, or because the context is done. -/
theorem conclude_finished
    (h : (call.conclude attempt length url outcome now status).1 = .finished result) :
    (∃ e reason, outcome = .error e ∧ result = .error (.cancelled reason)) ∨
      result = Call.result attempt outcome := by
  rw [conclude.eq_def] at h
  split at h
  · rename_i e reason
    exact .inl ⟨e, reason, rfl, (Phase.finished.inj h).symm⟩
  · dsimp only at h
    split at h
    · rw [← Phase.finished.inj h, finish_of_rules]
      exact .inr rfl
    · split at h <;> exact absurd h (by simp)

/-- Without a response, no result stands for one. -/
theorem unanswered_of_error {e : TransportError}
    (h : (call.conclude attempt length url (.error e) now status).1 = .finished result) :
    ∃ e', result = .error e' ∧ e'.Unanswered := by
  rcases conclude_finished h with ⟨-, reason, -, rfl⟩ | rfl
  · exact ⟨_, rfl, by simp, by simp⟩
  · rw [Call.result]
    split <;> exact ⟨_, rfl, by simp, by simp⟩

/-- Effects that begin nothing send nothing. -/
theorem Quiet.sent_eq_nil {effects : List (Effect α)} (h : Quiet effects) :
    effects.filterMap (·.sent?) = [] := by
  rw [List.filterMap_eq_nil_iff]
  intro e he
  have hbegins := h e he
  cases e with
  | built | askedCredential | charged | sent => exact absurd hbegins (by simp [Effect.begins])
  | _ => rfl

/-- What a step sends, and what it leaves to be sent, satisfies this. -/
structure Step.Sends (P : Request → Prop) (r : Step α) : Prop where
  next : ∀ request ∈ r.phase.request?, P request
  sent : ∀ request ∈ r.effects.filterMap (·.sent?), P request

variable {l : Limiter α} {phase : Phase} {incoming : Incoming} {r : Step α}
  {P : Request → Prop}

/-- Looking at the pool may send the request that waits for it. -/
theorem admitted_sends {request : Request} (hr : P request) (l : Limiter α) (now : Nat)
    (kind : PoolKind) (turn : Turn) (events : List (AdmissionEvent α)) :
    (call.admitted l now attempt length request kind turn
      (events.map .admissionEvent)).Sends P := by
  have hevents := (quiet_admissionEvents events).sent_eq_nil
  cases turn with
  | cancelled => exact ⟨by simp [admitted, Phase.request?], by simp [admitted, hevents]⟩
  | asleep =>
    exact ⟨by simpa [admitted, Phase.request?] using hr, by simp [admitted, hevents]⟩
  | granted =>
    refine ⟨by simp [admitted, Phase.request?], ?_⟩
    intro request' hr'
    rw [admitted, List.filterMap_append, hevents, List.nil_append] at hr'
    obtain rfl : request' = request := by simpa [Effect.sent?] using hr'
    exact hr

theorem limiter_admitted (l : Limiter α) (request : Request) (kind : PoolKind) (turn : Turn)
    (events : List (Effect α)) :
    (call.admitted l now attempt length request kind turn events).limiter = l := by
  cases turn <;> rfl

/-- A call that ends when it looks at the pool was cancelled. -/
theorem unanswered_of_admitted {request : Request} {kind : PoolKind} {turn : Turn}
    {events : List (Effect α)}
    (hf : (call.admitted l now attempt length request kind turn events).phase =
      .finished result) : ∃ e, result = .error e ∧ e.Unanswered := by
  cases turn with
  | cancelled reason =>
    obtain rfl := Phase.finished.inj hf
    exact ⟨_, rfl, by simp, by simp⟩
  | asleep | granted => exact absurd hf (by simp [admitted])

variable [Number α]

/-- **What is sent is what was built.**  Whatever holds of all requests that are built, with a
credential or without, holds of all that are sent. -/
theorem Advance.sends (ha : Advance call l now status incoming phase r)
    (hb : ∀ n request, call.build n = .ok request → P request)
    (hset : ∀ request value, P request → P (request.setHeader "Authorization" value))
    (hp : ∀ request ∈ phase.request?, P request) : r.Sends P := by
  have hquiet {r : Step α} (hr : r.phase.request? = none) (hq : Quiet r.effects) : r.Sends P :=
    ⟨by simp [hr], by simp [hq.sent_eq_nil]⟩
  cases ha with
  | stopped | rested => exact hquiet rfl (by simp [Quiet])
  | unbuilt | mismatched => exact ⟨by simp [Phase.request?], by simp [Effect.sent?]⟩
  | asked hbuild | ready hbuild =>
    exact ⟨by simpa [Phase.request?] using hb _ _ hbuild, by simp [Effect.sent?]⟩
  | answered answer after =>
    cases answer with
    | ok value =>
      exact ⟨by simpa [authorized, Phase.request?] using hset _ value (hp _ rfl),
        by simp [authorized]⟩
    | error e => exact hquiet (request?_conclude ..) (quiet_callEvents _)
  | arrived => exact admitted_sends (hp _ rfl) ..
  | resumed => exact admitted_sends (hp _ rfl) _ _ _ _ []
  | responded | expired => exact hquiet (request?_conclude ..) (quiet_concluded _ _ _ _ _ _ _ _ _)

/-- A call leaves the pools of other classes alone. -/
theorem Advance.pools_of_ne (ha : Advance call l now status incoming phase r) {c : ServiceClass}
    (hc : c ≠ call.context.serviceClass) : r.limiter.pools c = l.pools c := by
  cases ha with
  | stopped | unbuilt | mismatched | asked | ready | rested => rfl
  | answered answer after => cases answer <;> rfl
  | arrived hkind ha =>
    subst ha
    rw [limiter_admitted]
    exact Limiter.pools_arrive_of_ne hc ..
  | resumed ha =>
    rw [limiter_admitted]
    exact Limiter.pools_resume_of_ne hc ha
  | responded | expired => exact Limiter.pools_complete_of_ne hc ..

/-- A call that ends when it is given a response ends with what this response calls for. -/
theorem Advance.finished_of_response (ha : Advance call l now status incoming phase r)
    {response : Response} (hr : response? status incoming phase = some response)
    (hf : r.phase = .finished result) :
    ∃ attempt, result = Call.result attempt (.ok response) := by
  cases ha with
  | @responded attempt length url kind expires outcome after =>
    cases outcome with
    | error e => exact absurd hr (by simp [response?])
    | ok response' =>
      obtain rfl : response' = response := by simpa [response?] using hr
      rcases conclude_finished hf with ⟨e, -, he, -⟩ | hresult
      · exact absurd he (by simp)
      · exact ⟨attempt, hresult⟩
  | expired hno => exact absurd hr (by simp [response?, hno])
  | stopped =>
    rw [response?.eq_def] at hr
    split at hr <;> exact absurd hr (by simp)
  | _ => exact absurd hr (by simp [response?])

/-- A call that ends otherwise ends with an error that stands for no response, if the builder does
not fail. -/
theorem Advance.finished_of_none (ha : Advance call l now status incoming phase r)
    (hb : ∀ n e, call.build n ≠ .error e) (hr : response? status incoming phase = none)
    (hf : r.phase = .finished result) : ∃ e, result = .error e ∧ e.Unanswered := by
  cases ha with
  | stopped | mismatched =>
    obtain rfl := Phase.finished.inj hf
    exact ⟨_, rfl, by simp, by simp⟩
  | unbuilt he => exact absurd he (hb _ _)
  | asked | ready | rested => exact absurd hf (by simp)
  | answered answer after =>
    cases answer with
    | ok value => exact absurd hf (by simp [authorized])
    | error e => exact unanswered_of_error hf
  | arrived | resumed => exact unanswered_of_admitted hf
  | responded outcome after =>
    cases outcome with
    | error e => exact unanswered_of_error hf
    | ok response => exact absurd hr (by simp [response?])
  | expired => exact unanswered_of_error hf

end Call

/-! ## One turn of a call -/

namespace CallTask

/-- Of the effects that are carried out only those that send something reach the wire. -/
theorem Scene.pipeline_perform (now : Nat) (c : ServiceClass) (s : Scene)
    (effects : List (Call.Effect Double)) :
    (effects.foldl (Scene.perform now c) s).pipeline.limiter = s.pipeline.limiter ∧
      (effects.foldl (Scene.perform now c) s).pipeline.arrivals =
        s.pipeline.arrivals ++ (effects.filterMap (·.sent?)).map (Arrival.mk now c) := by
  induction effects generalizing s with
  | nil => exact ⟨rfl, (List.append_nil _).symm⟩
  | cons e effects ih =>
    obtain ⟨hlimiter, harrivals⟩ := ih (s.perform now c e)
    rw [List.foldl_cons, hlimiter, harrivals]
    cases e with
    | sent request =>
      exact ⟨rfl, List.append_assoc _ [Arrival.mk now c request] _⟩
    | _ => exact ⟨rfl, rfl⟩

/-- A turn of a call is a step of it, whose effects are carried out. -/
theorem exists_advance {g : Glance} {p : Pipeline} {t : CallTask}
    {x : Progress Pipeline CallTask Result} (h : t.step g p = some x) :
    ∃ s, t.call.Advance p.limiter g.now g.status (t.heard g.now g.status) t.phase s ∧
      x.shared.limiter = s.limiter ∧
      x.shared.arrivals = p.arrivals ++
        (s.effects.filterMap (·.sent?)).map (Arrival.mk g.now t.call.context.serviceClass) ∧
      ((∃ result builds, s.phase = .finished result ∧ x.state = .inr ⟨result, builds⟩) ∨
        ∃ awaited builds, x.state = .inl { t with phase := s.phase, awaited, builds }) := by
  obtain ⟨s, hs, rfl⟩ := Option.map_eq_some_iff.1 h
  obtain ⟨hlimiter, harrivals⟩ := Scene.pipeline_perform g.now t.call.context.serviceClass
    (opening p t.builds s.limiter) s.effects
  refine ⟨s, Call.advance_of_step hs, hlimiter, harrivals, ?_⟩
  cases hphase : s.phase with
  | finished result => exact .inl ⟨result, _, rfl, by simp only; rfl⟩
  | _ => exact .inr ⟨_, _, by simp only; rfl⟩

end CallTask

/-! ## Requests for pages -/

namespace PageRequest

/-- A request that has no address says that an argument is invalid. -/
theorem invalid_of_firstPage {base drive : String} {page : PageConfig} {e : Error}
    (h : DriveAddress.firstPage base drive page = .error e) :
    ∃ problem, e = .invalidArgument problem := by
  simp only [DriveAddress.firstPage] at h
  split at h
  · exact ⟨_, (Except.error.inj h).symm⟩
  · split at h
    · exact ⟨_, (Except.error.inj h).symm⟩
    · exact absurd h (by simp)

/-- What a request for a page is answered by, when its call has a result and was given a response,
or none, in its last turn. -/
structure Answers (q : PageRequest) (response? : Option Response) (result : Except Error Response)
    (answer : Except Error DeltaPage) : Prop where
  /-- The cursor has expired if there is one and the call has ended with 410. -/
  expired : answer = .error .cursorExpired ↔
    q.cursor.isSome = true ∧ ∃ response ∈ response?, response.status = 410
  /-- Otherwise an error of the call is passed on, and a response is a success, which is read. -/
  otherwise : answer = .error .cursorExpired ∨ (∃ e, result = .error e ∧ answer = .error e) ∨
    ∃ response ∈ response?, result = .ok response ∧ response.isSuccess = true ∧
      ((∃ page, DeltaPage.decode response.body = .ok page ∧ answer = .ok page) ∨
        (∀ page, DeltaPage.decode response.body ≠ .ok page) ∧
          answer = .error (.fatal (some response.status) "malformed delta page"))

variable {q : PageRequest}

/-- An error that stands for no response is passed on. -/
theorem answers_of_unanswered {e : Error} (h : e.Unanswered) :
    q.Answers none (.error e) (q.result (.error e)) := by
  have hresult : q.result (.error e) = .error e := by
    cases e with
    | fatal status problem =>
      cases status with
      | none => rfl
      | some status => exact absurd rfl (h.not_answered status problem)
    | _ => rfl
  rw [hresult]
  refine ⟨?_, .inr (.inl ⟨e, rfl, rfl⟩)⟩
  rw [Except.error.injEq]
  exact iff_of_false h.not_expired (by simp)

/-- A success is read. -/
theorem answers_of_success {response : Response}
    (h : 200 ≤ response.status ∧ response.status ≤ 399) :
    q.Answers (some response) (.ok response) (q.result (.ok response)) := by
  have hsuccess : response.isSuccess = true := by
    rw [Response.isSuccess, Bool.and_eq_true, decide_eq_true_eq, decide_eq_true_eq]
    omega
  have hstatus : response.status ≠ 410 := by omega
  cases hd : DeltaPage.decode response.body with
  | ok page =>
    have hresult : q.result (.ok response) = .ok page := by simp only [result, hd]
    rw [hresult]
    exact ⟨by simp [hstatus],
      .inr (.inr ⟨response, rfl, rfl, hsuccess, .inl ⟨page, hd, rfl⟩⟩)⟩
  | error e =>
    have he : e = DeltaPage.malformed := by
      rw [DeltaPage.decode] at hd
      split at hd
      · exact absurd hd (by simp)
      · exact (Except.error.inj hd).symm
    have hresult : q.result (.ok response) =
        .error (.fatal (some response.status) "malformed delta page") := by
      simp only [result, hd, he, DeltaPage.malformed]
    rw [hresult]
    exact ⟨by simp [hstatus],
      .inr (.inr ⟨response, rfl, rfl, hsuccess, .inr ⟨by simp [hd], rfl⟩⟩)⟩

/-- A response that ends a call is read, or it is an error, which means that the cursor has expired
if it is 410. -/
theorem answers_of_response (attempt : Nat) (response : Response) :
    q.Answers (some response) (Call.result attempt (.ok response))
      (q.result (Call.result attempt (.ok response))) := by
  by_cases hsuccess : 200 ≤ response.status ∧ response.status ≤ 399
  · rw [Call.result, if_pos hsuccess]
    exact answers_of_success hsuccess
  rw [Call.result, if_neg hsuccess]
  by_cases hterminal : Call.isTerminal (.ok response) = true
  · rw [if_pos hterminal]
    by_cases hexpired : response.status = expiredStatus ∧ q.cursor.isSome = true
    · rw [result, if_pos hexpired]
      exact ⟨iff_of_true rfl ⟨hexpired.2, response, rfl, hexpired.1⟩, .inl rfl⟩
    · rw [result, if_neg hexpired]
      refine ⟨iff_of_false (by simp) ?_, .inr (.inl ⟨_, rfl, rfl⟩)⟩
      rintro ⟨hcursor, response', hr, hstatus⟩
      obtain rfl := Option.some_inj.1 hr
      exact hexpired ⟨hstatus, hcursor⟩
  · rw [if_neg hterminal]
    refine ⟨iff_of_false (by simp [result]) ?_, .inr (.inl ⟨_, rfl, rfl⟩)⟩
    rintro ⟨-, response', hr, hstatus⟩
    obtain rfl := Option.some_inj.1 hr
    exact hterminal (Call.isTerminal_ok.2 (by omega))

end PageRequest

/-! ## The turns of a fetch -/

namespace PageTask

/-- A turn of a fetch: where it stood, what it saw, what it found, and what it made of that. -/
structure Turn where
  task : PageTask
  glance : Glance
  found : Remote
  progress : Progress Remote PageTask Result

/-- The turns of a fetch, as far as it has got: each is one of the machine, but between two of them
anything may happen to what it shares with others. -/
inductive Turns (base : String) (context : Context) (q : PageRequest) :
    List Turn → PageTask ⊕ Result → Prop
  | none : Turns base context q [] (.inl (.opening q))
  | more {turns : List Turn} {x : Turn} (h : Turns base context q turns (.inl x.task))
      (hcontext : x.glance.context = context) (hbase : x.found.base = base)
      (hstep : machine.step x.glance x.found x.task = some x.progress) :
      Turns base context q (turns ++ [x]) x.progress.state

namespace Turn

/-- The response that the call of the fetch is given in this turn. -/
def response? (x : Turn) : Option Response :=
  match x.task with
  | .opening _ => none
  | .calling _ t =>
    Call.response? x.glance.status (t.heard x.glance.now x.glance.status) t.phase

/-- The result of the call, if this turn is its last. -/
def result? (x : Turn) : Option (Except Error Response) :=
  match x.task with
  | .opening _ => none
  | .calling _ t =>
    (t.step x.glance x.found.pipeline).bind fun p => p.state.getRight?.map (·.result)

end Turn

/-- A fetch that is turned away in its only turn, and leaves everything as it is. -/
structure Refused (base : String) (q : PageRequest) (turns : List Turn) (e : Error) : Prop where
  begins : ∀ (g : Glance) (r : Remote), r.base = base →
    (opening q).step g r = some { shared := r, state := .inr (.error e) }
  ends : ∀ x ∈ turns, x.progress = { shared := x.found, state := .inr (.error e) }

/-- A request for what is at an address. -/
structure Gets (address : String) (request : Request) : Prop where
  method : request.method = .get
  url : request.url = address
  body : request.body = []

/-- What a turn of a fetch from an address does to what it shares with others. -/
structure Turn.Keeps (address : String) (x : Turn) : Prop where
  /-- What it sends is for the address. -/
  sends : ∃ requests : List Request,
    x.progress.shared.pipeline.arrivals = x.found.pipeline.arrivals ++
      requests.map (Arrival.mk x.glance.now .bulkContainer) ∧
    ∀ request ∈ requests, Gets address request
  /-- It never touches the pools of other traffic. -/
  spares : x.progress.shared.pipeline.limiter.pools .standard =
    x.found.pipeline.limiter.pools .standard

/-- A fetch from an address. -/
structure Fetches (q : PageRequest) (address : String) (turns : List Turn)
    (state : PageTask ⊕ Result) : Prop where
  keeps : ∀ x ∈ turns, x.Keeps address
  /-- Its answer is what its last turn makes of the result of the call. -/
  answers : ∀ answer, state = .inr answer → ∃ x result, turns.getLast? = some x ∧
    x.result? = some result ∧ q.Answers x.response? result answer

/-- Where a fetch from an address stands between two turns. -/
inductive Underway (context : Context) (q : PageRequest) (address : String) : PageTask → Prop
  | opening : Underway context q address (.opening q)
  | calling {t : CallTask} {standard : RetryBudget} {authenticated : Bool}
      (hcall : t.call = PageRequest.call address context standard authenticated)
      (hbuilt : ∀ request ∈ t.phase.request?, Gets address request) :
      Underway context q address (.calling q t)

variable {base address : String} {context : Context} {q : PageRequest} {x : Turn}

/-- The first turn of a fetch that has an address makes up the call. -/
theorem Turn.opened (ha : q.address x.found.base = .ok address)
    (htask : x.task = .opening q) (hcontext : x.glance.context = context)
    (hstep : x.task.step x.glance x.found = some x.progress) :
    x.Keeps address ∧ ∃ t, x.progress.state = .inl t ∧ Underway context q address t := by
  rw [htask, step, Option.some_inj] at hstep
  have hbegin : x.progress.state = .inl (.calling q
      { call := PageRequest.call address context x.found.pipeline.budget
          x.found.pipeline.provider.isSome }) := by
    rw [← hstep, hcontext]
    simp only [begin, ha]
  have hshared : x.progress.shared = x.found := by rw [← hstep]
  refine ⟨⟨⟨[], ?_, by simp⟩, by rw [hshared]⟩, _, hbegin, ?_⟩
  · rw [hshared, List.map_nil, List.append_nil]
  · exact .calling rfl (by simp [Call.start, Call.Phase.request?])

/-- Every other turn is one of the call, and the last one is answered by what it makes of the
result. -/
theorem Turn.called {t : CallTask} {standard : RetryBudget} {authenticated : Bool}
    (htask : x.task = .calling q t)
    (hcall : t.call = PageRequest.call address context standard authenticated)
    (hbuilt : ∀ request ∈ t.phase.request?, Gets address request)
    (hstep : x.task.step x.glance x.found = some x.progress) :
    x.Keeps address ∧ (∀ t', x.progress.state = .inl t' → Underway context q address t') ∧
      ∀ answer, x.progress.state = .inr answer →
        ∃ result, x.result? = some result ∧ q.Answers x.response? result answer := by
  rw [htask, step] at hstep
  obtain ⟨p, hp, hprogress⟩ := Option.map_eq_some_iff.1 hstep
  obtain ⟨s, hadvance, hlimiter, harrivals, hstate⟩ := CallTask.exists_advance hp
  have hshared : x.progress.shared.pipeline = p.shared := by rw [← hprogress]
  have hnext : x.progress.state =
      p.state.map (.calling q) fun result => q.result result.result := by
    rw [← hprogress]
  have hclass : t.call.context.serviceClass = .bulkContainer := by
    rw [hcall]
    rfl
  have hbuild (n : Nat) : t.call.build n = .ok { method := .get, url := address } := by
    rw [hcall]
    rfl
  obtain ⟨hphase, hsent⟩ := hadvance.sends (P := Gets address)
    (fun n request hn => by
      obtain rfl := Except.ok.inj ((hbuild n).symm.trans hn)
      exact ⟨rfl, rfl, rfl⟩)
    (fun request value hr => ⟨hr.method, hr.url, hr.body⟩) hbuilt
  refine ⟨⟨⟨_, by rw [hshared, harrivals, hclass], hsent⟩, ?_⟩, ?_⟩
  · rw [hshared, hlimiter]
    exact hadvance.pools_of_ne (by simp [hclass])
  rcases hstate with ⟨result, builds, hfinished, hstate⟩ | ⟨awaited, builds, hstate⟩
  · rw [hnext, hstate]
    refine ⟨by simp, fun answer hanswer => ⟨result, ?_, ?_⟩⟩
    · rw [Turn.result?, htask]
      simp [hp, hstate]
    obtain rfl := Sum.inr.inj hanswer
    rw [Turn.response?, htask]
    -- A response that was given decides the result; without one the result stands for none, so an
    -- error that passes cannot be mistaken for an expired cursor.
    cases hr : Call.response? x.glance.status (t.heard x.glance.now x.glance.status) t.phase with
    | some response =>
      obtain ⟨attempt, rfl⟩ := hadvance.finished_of_response hr hfinished
      show q.Answers (Call.response? ..) _ _
      rw [hr]
      exact PageRequest.answers_of_response attempt response
    | none =>
      obtain ⟨e, rfl, he⟩ := hadvance.finished_of_none (by simp [hbuild]) hr hfinished
      show q.Answers (Call.response? ..) _ _
      rw [hr]
      exact PageRequest.answers_of_unanswered he
  · rw [hnext, hstate]
    refine ⟨fun t' ht' => ?_, by simp⟩
    obtain rfl := Sum.inl.inj ht'
    exact .calling hcall hphase

/-- A fetch that has an address is one from there. -/
theorem Turns.fetches {turns : List Turn} {state : PageTask ⊕ Result}
    (h : Turns base context q turns state) (ha : q.address base = .ok address) :
    (∀ t, state = .inl t → Underway context q address t) ∧ Fetches q address turns state := by
  -- Only the last turn can give an answer, so where the fetch stands carries the induction.
  induction h with
  | none =>
    refine ⟨fun t ht => ?_, by simp, by simp⟩
    obtain rfl := Sum.inl.inj ht
    exact .opening
  | @more turns x _ hcontext hbase hstep ih =>
    obtain ⟨hunderway, hkeeps, -⟩ := ih
    have hlast (hx : x.Keeps address) : ∀ y ∈ turns ++ [x], y.Keeps address := by
      intro y hy
      rcases List.mem_append.1 hy with hy | hy
      · exact hkeeps y hy
      · exact List.mem_singleton.1 hy ▸ hx
    have hstands := hunderway x.task rfl
    generalize htask : x.task = t at hstands
    cases hstands with
    | opening =>
      obtain ⟨hx, t, hstate, ht⟩ := Turn.opened (hbase ▸ ha) htask hcontext hstep
      rw [hstate]
      refine ⟨fun t' ht' => ?_, hlast hx, by simp⟩
      obtain rfl := Sum.inl.inj ht'
      exact ht
    | calling hcall hbuilt =>
      obtain ⟨hx, hnext, hanswer⟩ := Turn.called htask hcall hbuilt hstep
      refine ⟨hnext, hlast hx, fun answer hstate => ?_⟩
      obtain ⟨result, hresult, hanswers⟩ := hanswer answer hstate
      exact ⟨x, result, List.getLast?_concat, hresult, hanswers⟩

/-- A fetch that has no address is turned away. -/
theorem Turns.refused {turns : List Turn} {state : PageTask ⊕ Result} {e : Error}
    (h : Turns base context q turns state) (ha : q.address base = .error e) :
    Refused base q turns e := by
  have hbegins (g : Glance) (r : Remote) (hr : r.base = base) :
      (opening q).step g r = some { shared := r, state := .inr (.error e) } := by
    simp only [step, begin, hr, ha]
  suffices hs : (∀ t, state = .inl t → t = .opening q ∧ turns = []) ∧
      ∀ x ∈ turns, x.progress = { shared := x.found, state := .inr (.error e) } from
    ⟨hbegins, hs.2⟩
  induction h with
  | none => exact ⟨fun t ht => ⟨(Sum.inl.inj ht).symm, rfl⟩, by simp⟩
  | @more turns x _ hcontext hbase hstep ih =>
    obtain ⟨htask, rfl⟩ := ih.1 x.task rfl
    rw [htask] at hstep
    have hprogress := Option.some_inj.1 ((hbegins _ _ hbase).symm.trans hstep)
    refine ⟨fun t ht => ?_, fun y hy => ?_⟩
    · rw [← hprogress] at ht
      exact absurd ht (by simp)
    · rw [List.nil_append, List.mem_singleton] at hy
      rw [hy, hprogress]

/-- **Fetching a page, from end to end.**  A fetch of no drive, or one that needs the address of a
first page where there is none, is turned away, and nothing happens.  Any other is one from its
cursor, unless that is empty, or from the address of the first page. -/
theorem fetch_page_from_end_to_end {turns : List Turn} {state : PageTask ⊕ Result}
    (h : Turns base context q turns state) :
    (q.container = "" → Refused base q turns (.invalidArgument "drive id is empty")) ∧
      (q.container ≠ "" → ∀ cursor, q.cursor = some cursor → cursor ≠ "" →
        Fetches q cursor turns state) ∧
      (q.container ≠ "" → q.cursor = none ∨ q.cursor = some "" →
        match DriveAddress.firstPage base q.container q.page with
        | .ok first => Fetches q first turns state
        | .error e => (∃ problem, e = .invalidArgument problem) ∧ Refused base q turns e) := by
  refine ⟨fun hcontainer => ?_, fun hcontainer cursor hcursor hne => ?_,
    fun hcontainer hcursor => ?_⟩
  · refine h.refused ?_
    rw [PageRequest.address, if_pos hcontainer]
    rfl
  · have ha : q.address base = .ok cursor := by
      simp [PageRequest.address, hcontainer, hcursor, Option.filter, hne]
    exact (h.fetches ha).2
  · have ha : q.address base = DriveAddress.firstPage base q.container q.page := by
      rcases hcursor with hcursor | hcursor <;>
        simp [PageRequest.address, hcontainer, hcursor, Option.filter]
    split
    · rename_i first hfirst
      exact (h.fetches (ha.trans hfirst)).2
    · rename_i e hfirst
      exact ⟨PageRequest.invalid_of_firstPage hfirst, h.refused (ha.trans hfirst)⟩

/-- The turns that a fetch takes when it is left alone and may go on at each of these times, and
where it stands then. -/
def alone (context : Context) :
    List Nat → List Turn → Remote → PageTask → List Turn × (PageTask ⊕ Result)
  | [], turns, _, task => (turns, .inl task)
  | now :: times, turns, r, task =>
    let glance : Glance := ⟨0, now, context, none⟩
    match task.step glance r with
    | none => alone context times turns r task
    | some p =>
      match p.state with
      | .inl task' => alone context times (turns ++ [⟨task, glance, r, p⟩]) p.shared task'
      | .inr answer => (turns ++ [⟨task, glance, r, p⟩], .inr answer)

theorem base_of_step {g : Glance} {r : Remote} {task : PageTask}
    {p : Progress Remote PageTask Result} (h : task.step g r = some p) :
    p.shared.base = r.base := by
  cases task with
  | opening q =>
    obtain rfl := Option.some_inj.1 h
    rfl
  | calling q t =>
    obtain ⟨p', -, rfl⟩ := Option.map_eq_some_iff.1 h
    rfl

theorem turns_alone (times : List Nat) {turns : List Turn} {r : Remote} {task : PageTask}
    (h : Turns base context q turns (.inl task)) (hr : r.base = base) :
    Turns base context q (alone context times turns r task).1
      (alone context times turns r task).2 := by
  induction times generalizing turns r task with
  | nil => exact h
  | cons now times ih =>
    rw [alone]
    split
    · exact ih h hr
    · rename_i p hp
      have hmore := Turns.more (x := ⟨task, ⟨0, now, context, none⟩, r, p⟩) h rfl hr hp
      split
      · rename_i task' hstate
        rw [hstate] at hmore
        exact ih hmore ((base_of_step hp).trans hr)
      · rename_i answer hstate
        rwa [hstate] at hmore

/-- A request with a cursor from long ago, for a page of a drive. -/
def stale : PageRequest where
  container := "drive"
  cursor := some "https://host/next"
  page := {}

/-- A service that is unavailable at first, and then says that what is asked for is gone. -/
def forgetful : Remote where
  base := "https://host"
  pipeline :=
    { limiter := .new .builtin 0
      budget := .standard
      wire := [{ answer := .ok { status := 503 } }, { answer := .ok { status := 410 } }] }

/-- The fetch makes a second attempt at once, and the answer to that ends it. -/
theorem fetch_page_from_end_to_end_forgetful :
    ∃ turns, Turns "https://host" { token := 0 } stale turns (.inr (.error .cursorExpired)) ∧
      stale.container ≠ "" ∧
      Fetches stale "https://host/next" turns (.inr (.error .cursorExpired)) := by
  let a := alone { token := 0 } (List.replicate 7 0) [] forgetful (.opening stale)
  have hturns : Turns "https://host" { token := 0 } stale a.1 a.2 := turns_alone _ .none rfl
  have hanswer : a.2 = .inr (.error .cursorExpired) := by
    have : a.2.getRight? = some (.error .cursorExpired) := by decide +kernel
    exact Sum.getRight?_eq_some_iff.1 this
  rw [hanswer] at hturns
  exact ⟨a.1, hturns, by decide,
    (fetch_page_from_end_to_end hturns).2.1 (by decide) _ rfl (by decide)⟩

end PageTask

end DriveDelta
