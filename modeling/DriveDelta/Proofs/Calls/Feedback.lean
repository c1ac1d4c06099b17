import DriveDelta.Proofs.Admission.Conformance
import DriveDelta.Proofs.Calls.Traffic

/-!
# What exchanges tell the adaptive pools

An adaptive pool follows what the exchanges that it admitted have observed.  Calls overlap, and each
carries its admission with it until its exchange ends; one that is given up takes the admission with
it.  Still each exchange is counted once or not at all, by the pool that admitted it, and in the
order in which exchanges end.

## What is here

* `Adaptive.Abreast`, adaptive pools that differ at most in what they hold, and `Adaptive.told`, one
  that has been told some observations;
* `Limiter.Untold`, what uses of a limiter do that tell its adaptive pools nothing;
* `Exchange` and `Traffic.endings`, the exchanges of a run in the order in which they end;
* `Traffic.Told`, which says that a limiter was told of these, and `Traffic.feedback_is_exact`.
-/

set_option autoImplicit false

namespace DriveDelta

open Number

/-! ## Adaptive pools that are told the same -/

namespace Adaptive

variable {α : Type}

/-- Two adaptive pools that stand alike, whatever tokens they hold. -/
structure Abreast (a b : Adaptive α) : Prop where
  rate_eq : b.pool.rate = a.pool.rate
  ceiling_eq : b.ceiling = a.ceiling
  floor_eq : b.floor = a.floor
  recovery_eq : b.recovery = a.recovery
  successes_eq : b.successes = a.successes
  throttled_eq : b.throttled = a.throttled

variable {a b c : Adaptive α}

theorem Abreast.refl (a : Adaptive α) : a.Abreast a := ⟨rfl, rfl, rfl, rfl, rfl, rfl⟩

theorem Abreast.trans (h : a.Abreast b) (h' : b.Abreast c) : a.Abreast c where
  rate_eq := h'.rate_eq.trans h.rate_eq
  ceiling_eq := h'.ceiling_eq.trans h.ceiling_eq
  floor_eq := h'.floor_eq.trans h.floor_eq
  recovery_eq := h'.recovery_eq.trans h.recovery_eq
  successes_eq := h'.successes_eq.trans h.successes_eq
  throttled_eq := h'.throttled_eq.trans h.throttled_eq

theorem Abreast.of_pool {p : Pool α} (h : p.rate = a.pool.rate) :
    a.Abreast { a with pool := p } := ⟨h, rfl, rfl, rfl, rfl, rfl⟩

variable [Number α]

theorem Abreast.recordThrottled (h : a.Abreast b) (now : Nat) :
    (a.recordThrottled now).1.Abreast (b.recordThrottled now).1 := by
  have hslower : b.slower = a.slower := by rw [slower, slower, h.rate_eq, h.floor_eq]
  rw [Adaptive.recordThrottled, Adaptive.recordThrottled, hslower, h.rate_eq, h.throttled_eq]
  by_cases hlt : lt a.slower a.pool.rate = true
  · rw [if_pos hlt, if_pos hlt]
    exact ⟨rfl, h.ceiling_eq, h.floor_eq, h.recovery_eq, rfl, rfl⟩
  · rw [if_neg hlt, if_neg hlt]
    exact ⟨h.rate_eq, h.ceiling_eq, h.floor_eq, h.recovery_eq, rfl, rfl⟩

theorem Abreast.recordSuccess (h : a.Abreast b) (now : Nat) :
    (a.recordSuccess now).1.Abreast (b.recordSuccess now).1 := by
  have hfaster : b.faster = a.faster := by rw [faster, faster, h.rate_eq, h.ceiling_eq]
  simp only [Adaptive.recordSuccess, hfaster, h.rate_eq, h.successes_eq, h.recovery_eq]
  by_cases hrun : min (a.successes + 1) maxCount < a.recovery
  · rw [if_pos hrun, if_pos hrun]
    exact ⟨h.rate_eq, h.ceiling_eq, h.floor_eq, rfl, rfl, h.throttled_eq⟩
  · rw [if_neg hrun, if_neg hrun]
    by_cases hlt : lt a.pool.rate a.faster = true
    · rw [if_pos hlt, if_pos hlt]
      exact ⟨rfl, h.ceiling_eq, h.floor_eq, rfl, rfl, h.throttled_eq⟩
    · rw [if_neg hlt, if_neg hlt]
      exact ⟨h.rate_eq, h.ceiling_eq, h.floor_eq, rfl, rfl, h.throttled_eq⟩

/-- What they are told keeps them alike. -/
theorem Abreast.observe (h : a.Abreast b) (f : Feedback) (now : Nat) :
    (a.observe f now).Abreast (b.observe f now) := by
  cases f with
  | success => exact h.recordSuccess now
  | throttled => exact h.recordThrottled now
  | neutral => exact h

/-- An adaptive pool after some observations, each with its time. -/
def told (a : Adaptive α) (fs : List (Feedback × Nat)) : Adaptive α :=
  fs.foldl (fun a f => a.observe f.1 f.2) a

theorem told_append (a : Adaptive α) (fs gs : List (Feedback × Nat)) :
    a.told (fs ++ gs) = (a.told fs).told gs := List.foldl_append ..

theorem Abreast.told (h : a.Abreast b) (fs : List (Feedback × Nat)) :
    (a.told fs).Abreast (b.told fs) := by
  induction fs generalizing a b with
  | nil => exact h
  | cons f fs ih => exact ih (h.observe f.1 f.2)

/-- The throttled exchanges are counted as far as the counter goes. -/
theorem throttled_told (h : a.throttled ≤ maxCount) (fs : List (Feedback × Nat)) :
    (a.told fs).throttled = min maxCount (a.throttled + fs.countP (·.1 = .throttled)) := by
  induction fs using List.reverseRecOn with
  | nil => exact (Nat.min_eq_right h).symm
  | append_singleton fs f ih =>
    rw [told_append, List.countP_append, List.countP_singleton]
    obtain ⟨f, now⟩ := f
    cases f with
    | success =>
      have hkeep (b : Adaptive α) : (b.recordSuccess now).1.throttled = b.throttled := by
        simp only [Adaptive.recordSuccess]
        split
        · rfl
        · split <;> rfl
      exact (hkeep _).trans ih
    | neutral => exact ih
    | throttled =>
      have hcount (b : Adaptive α) :
          (b.recordThrottled now).1.throttled = min (b.throttled + 1) maxCount := by
        rw [Adaptive.recordThrottled]
        split <;> rfl
      refine (hcount _).trans ?_
      rw [ih]
      simp only [decide_true, if_true]
      omega

end Adaptive

/-! ## Uses that tell nothing -/

theorem Pool.rate_take {α : Type} [Number α] (p : Pool α) (cost now : Nat) :
    (p.take cost now).1.rate = p.rate := by
  rw [take]
  split <;> rfl

theorem Pool.rate_turn {α : Type} [Number α] (p : Pool α) (cost now : Nat)
    (status : Option CancelReason) : (p.turn cost now status).1.rate = p.rate := by
  cases status with
  | some reason => rfl
  | none =>
    have hrate := p.rate_take cost now
    rw [turn]
    split <;> rename_i heq <;> rw [heq] at hrate <;> exact hrate

namespace Limiter

variable {α : Type}

/-- What uses do that tell the adaptive pools nothing. -/
def Untold (l l' : Limiter α) : Prop :=
  ∀ c a, (l.pools c).sliding = some a → ∃ b, (l'.pools c).sliding = some b ∧ a.Abreast b

variable {l l' : Limiter α} {c : ServiceClass} {k : PoolKind} {q : Pool α}

theorem Untold.refl (l : Limiter α) : l.Untold l := fun _ a ha => ⟨a, ha, .refl a⟩

theorem untold_setPool (h : q.rate = (l.pool c k).rate) : l.Untold (l.setPool c k q) := by
  intro c' a ha
  by_cases hc : c' = c
  · subst hc
    cases k with
    | static =>
      refine ⟨a, ?_, .refl a⟩
      rw [setPool_static, pools_setPools, if_pos rfl]
      exact ha
    | sliding =>
      have hpool : l.pool c' .sliding = a.pool := by
        rw [pool, ha]
        rfl
      refine ⟨{ a with pool := q }, ?_, .of_pool (hpool ▸ h)⟩
      rw [setPool_sliding ha, pools_setPools, if_pos rfl]
  · rw [pools_setPool_of_ne hc]
    exact ⟨a, ha, .refl a⟩

variable [Number α]

theorem untold_take (l : Limiter α) (c : ServiceClass) (k : PoolKind) (cost now : Nat) :
    l.Untold (l.take c k cost now).1 := untold_setPool (Pool.rate_take _ _ _)

theorem untold_arrive (l : Limiter α) (c : ServiceClass) (k : PoolKind) (cost now : Nat)
    (status : Option CancelReason) : l.Untold (l.arrive c k cost now status).1 := by
  cases status with
  | some reason => exact .refl l
  | none =>
    have hrate := (l.pool c k).rate_take cost now
    rw [arrive]
    split <;> rename_i heq <;> rw [heq] at hrate
    · exact untold_setPool hrate
    · exact untold_setPool ((Pool.rate_turn _ _ _ _).trans hrate)

theorem untold_resume {cost now until_ : Nat} {status : Option CancelReason} {turn : Turn}
    (h : l.resume c k cost now status until_ = some (l', turn)) : l.Untold l' := by
  obtain ⟨r, hr, heq⟩ := Option.map_eq_some_iff.1 h
  obtain ⟨rfl, -⟩ := Prod.mk.inj heq
  rw [Pool.resume] at hr
  split at hr
  · obtain rfl := Option.some_inj.1 hr
    exact untold_setPool (Pool.rate_turn _ _ _ _)
  · exact absurd hr (by simp)

/-- The adaptive pool that admitted an exchange is told what it observed, and no other one. -/
theorem sliding_complete {a : Adaptive α} (ha : (l.pools c).sliding = some a) (c' : ServiceClass)
    (k : PoolKind) (f : Feedback) (now : Nat) :
    ((l.complete c' k f now).1.pools c).sliding =
      some (if (c', k) = (c, .sliding) then a.observe f now else a) := by
  by_cases hplace : (c', k) = (c, .sliding)
  · obtain ⟨rfl, rfl⟩ := Prod.mk.inj hplace
    rw [if_pos rfl]
    cases f with
    | success | throttled => simp [complete, feed, ha, pools_setPools, Adaptive.observe]
    | neutral => simp [complete, feed, ha, Adaptive.observe]
  · rw [if_neg hplace]
    cases k with
    | static => exact ha
    | sliding =>
      have hc : c ≠ c' := fun hc => hplace (hc ▸ rfl)
      show ((l.feed c' f now).1.pools c).sliding = some a
      rw [feed.eq_def]
      split
      · rw [pools_setPools, if_neg hc]
        exact ha
      · rw [pools_setPools, if_neg hc]
        exact ha
      · exact ha

end Limiter

/-! ## Exchanges that end -/

/-- An exchange that has come to its end. -/
structure Exchange where
  /-- The pool that admitted it. -/
  serviceClass : ServiceClass
  kind : PoolKind
  finish : Nat
  /-- How it ended; none if it was given up because the context was done. -/
  outcome : Option Call.Outcome

namespace Exchange

/-- The pool that admitted an exchange. -/
def place (e : Exchange) : ServiceClass × PoolKind := (e.serviceClass, e.kind)

/-- What is passed on when an exchange ends, with the pool that it is passed on to. -/
def report? (e : Exchange) : Option (ServiceClass × PoolKind × Feedback) :=
  e.outcome.map fun outcome => (e.serviceClass, e.kind, Call.feedback outcome)

/-- What an exchange tells the adaptive pool of a class, and when. -/
def tells? (c : ServiceClass) (e : Exchange) : Option (Feedback × Nat) :=
  if e.place = (c, .sliding) then e.outcome.map fun outcome => (Call.feedback outcome, e.finish)
  else none

/-- Whether the adaptive pool of a class admitted an exchange that was answered by 429 or 503. -/
def throttles (c : ServiceClass) (e : Exchange) : Bool :=
  match e.outcome with
  | some (.ok r) => e.place = (c, .sliding) ∧ (r.status = 429 ∨ r.status = 503)
  | _ => false

end Exchange

namespace Call

theorem feedback_eq_throttled_iff (outcome : Outcome) : feedback outcome = .throttled ↔
    ∃ r, outcome = .ok r ∧ (r.status = 429 ∨ r.status = 503) := by
  cases outcome with
  | error e => simp [feedback]
  | ok r =>
    rw [feedback]
    by_cases h : r.status = 429 ∨ r.status = 503
    · simp [h]
    · rw [if_neg h]
      split <;> simp [h]

theorem feedback_eq_success_iff (outcome : Outcome) : feedback outcome = .success ↔
    ∃ r, outcome = .ok r ∧ 200 ≤ r.status ∧ r.status ≤ 399 := by
  cases outcome with
  | error e => simp [feedback]
  | ok r =>
    have hsuccess : r.isSuccess = true ↔ 200 ≤ r.status ∧ r.status ≤ 399 := by
      rw [Response.isSuccess, Bool.and_eq_true, decide_eq_true_eq, decide_eq_true_eq]
      omega
    rw [feedback]
    by_cases h : r.status = 429 ∨ r.status = 503
    · rw [if_pos h]
      refine iff_of_false (by simp) ?_
      rintro ⟨r', hr', hle⟩
      cases hr'
      omega
    · rw [if_neg h]
      simp [hsuccess]

namespace Effect

variable {α : Type}

/-- The pool that tokens are taken from. -/
def place? : Effect α → Option (ServiceClass × PoolKind)
  | .charged c kind _ => some (c, kind)
  | _ => none

/-- What is passed on, with the pool that it is passed on to. -/
def report? : Effect α → Option (ServiceClass × PoolKind × Feedback)
  | .fed c kind f => some (c, kind, f)
  | _ => none

end Effect

/-- The pool that admitted the exchange under way. -/
def Phase.underWay (call : Call) : Phase → Option (ServiceClass × PoolKind)
  | .exchanging _ _ _ kind _ => some (call.context.serviceClass, kind)
  | _ => none

/-- The response that an answer from outside brings, if it is about an exchange. -/
def Incoming.outcome? : Incoming → Option Outcome
  | .response outcome _ => some outcome
  | _ => none

/-- The exchange that ends when a call gets its turn: it is given up when the context is done, and
otherwise ends with the outcome that has come in, or because its time is up. -/
def ending? (call : Call) (now : Nat) (status : Option CancelReason) (answer : Option Outcome) :
    Phase → Option Exchange
  | .exchanging _ _ _ kind expires =>
    match status, answer with
    | some _, _ => some ⟨call.context.serviceClass, kind, now, none⟩
    | none, some outcome => some ⟨call.context.serviceClass, kind, now, some outcome⟩
    | none, none =>
      if expires ≤ now then
        some ⟨call.context.serviceClass, kind, now, some (.error .handlerTimeout)⟩
      else none
  | _ => none

variable {α : Type} [Number α]

/-- What a step makes of the exchange under way, of what it passes on, and of the limiter, with the
exchange that it ends. -/
structure Settles (call : Call) (now : Nat) (l : Limiter α) (phase : Phase) (r : Step α)
    (e : Option Exchange) : Prop where
  /-- The exchange under way has ended, or is one that was admitted or still is under way. -/
  places_eq : (phase.underWay call).toList ++ r.effects.filterMap (·.place?) =
    (e.map (·.place)).toList ++ (r.phase.underWay call).toList
  reports_eq : r.effects.filterMap (·.report?) = (e.bind (·.report?)).toList
  untold : e.bind (·.outcome) = none → l.Untold r.limiter
  complete : ∀ x outcome, e = some x → x.outcome = some outcome → x.finish = now ∧
    r.limiter = (l.complete x.serviceClass x.kind (feedback outcome) now).1

variable {call : Call} {l : Limiter α} {now : Nat} {phase : Phase} {r : Step α}

/-- A step that neither pays nor passes anything on, and has nothing to do with an exchange. -/
theorem Settles.nothing {phase' : Phase} {effects : List (Effect α)} {l' : Limiter α}
    (hphase : phase.underWay call = none) (hphase' : phase'.underWay call = none)
    (heffects : ∀ e ∈ effects, e.place? = none ∧ e.report? = none) (hl : l.Untold l') :
    Settles call now l phase ⟨l', phase', effects⟩ none where
  places_eq := by
    rw [hphase, hphase', List.filterMap_eq_nil_iff.2 fun e he => (heffects e he).1]
    rfl
  reports_eq := List.filterMap_eq_nil_iff.2 fun e he => (heffects e he).2
  untold _ := hl
  complete _ _ h := absurd h (by simp)

/-- What a look at the pool leads to. -/
theorem Settles.admitted {l' : Limiter α} (hphase : phase.underWay call = none) (hl : l.Untold l')
    (attempt length : Nat) (request : Request) (kind : PoolKind) (turn : Turn)
    (events : List (AdmissionEvent α)) :
    Settles call now l phase
      (call.admitted l' now attempt length request kind turn (events.map .admissionEvent))
      none := by
  have hevents : ∀ e ∈ events.map (Effect.admissionEvent : AdmissionEvent α → Effect α),
      e.place? = none ∧ e.report? = none := by
    intro e he
    obtain ⟨_, -, rfl⟩ := List.mem_map.1 he
    exact ⟨rfl, rfl⟩
  cases turn with
  | cancelled | asleep => exact .nothing hphase rfl hevents hl
  | granted =>
    refine ⟨?_, ?_, fun _ => hl, fun _ _ h => absurd h (by simp)⟩
    · show _ ++ List.filterMap _ (_ ++ [_, _]) = _
      rw [List.filterMap_append, List.filterMap_eq_nil_iff.2 fun e he => (hevents e he).1, hphase]
      rfl
    · show List.filterMap _ (_ ++ [_, _]) = _
      rw [List.filterMap_append, List.filterMap_eq_nil_iff.2 fun e he => (hevents e he).2]
      rfl

/-- An attempt that is concluded has no exchange under way. -/
theorem underWay_conclude (call : Call) (attempt length : Nat) (url : String) (outcome : Outcome)
    (now : Nat) (status : Option CancelReason) :
    (call.conclude attempt length url outcome now status).1.underWay call = none := by
  rcases conclude_phase call attempt length url outcome now status with
    ⟨_, h⟩ | h | ⟨_, h⟩ <;> rw [h] <;> rfl

/-- Of the effects by which an exchange ends, all but one are events of the log. -/
theorem filterMap_concluded {β : Type} {f : Effect α → Option β}
    (hadmission : ∀ event, f (.admissionEvent event) = none)
    (hcall : ∀ event, f (.callEvent event) = none) (call : Call) (l : Limiter α)
    (now attempt length : Nat) (url : String) (kind : PoolKind) (outcome : Outcome)
    (after : Option CancelReason) :
    (call.concluded l now attempt length url kind outcome after).effects.filterMap f =
      (f (.fed call.context.serviceClass kind (feedback outcome))).toList := by
  have hevents (events : List (AdmissionEvent α)) :
      (events.map Effect.admissionEvent).filterMap f = [] := by
    rw [List.filterMap_map, List.filterMap_eq_nil_iff]
    exact fun event _ => hadmission event
  have hcalls (events : List CallEvent) : (events.map Effect.callEvent).filterMap f = [] := by
    rw [List.filterMap_map, List.filterMap_eq_nil_iff]
    exact fun event _ => hcall event
  show List.filterMap f (_ :: _ ++ _) = _
  rw [List.filterMap_append, List.filterMap_cons, hevents, hcalls, List.append_nil]
  cases f (.fed call.context.serviceClass kind (feedback outcome)) <;> rfl

/-- The end of an exchange that was not given up. -/
theorem Settles.concluded (call : Call) (l : Limiter α) (now attempt length : Nat) (url : String)
    (kind : PoolKind) (expires : Nat) (outcome : Outcome) (after : Option CancelReason) :
    Settles call now l (.exchanging attempt length url kind expires)
      (call.concluded l now attempt length url kind outcome after)
      (some ⟨call.context.serviceClass, kind, now, some outcome⟩) where
  places_eq := by
    rw [filterMap_concluded (fun _ => rfl) fun _ => rfl]
    show [_] ++ [] = [_] ++
      ((call.conclude attempt length url outcome now after).1.underWay call).toList
    rw [underWay_conclude]
    rfl
  reports_eq := by
    rw [filterMap_concluded (fun _ => rfl) fun _ => rfl]
    rfl
  untold h := absurd h (by simp)
  complete x outcome' hx houtcome := by
    obtain rfl := Option.some_inj.1 hx
    obtain rfl := Option.some_inj.1 houtcome
    exact ⟨rfl, rfl⟩

/-- An exchange that ends tells the pool that admitted it what it observed, and no other one. -/
theorem Settles.tells {e : Option Exchange} {c : ServiceClass} {a : Adaptive α}
    (h : Settles call now l phase r e) (ha : (l.pools c).sliding = some a) :
    ∃ b, (r.limiter.pools c).sliding = some b ∧
      (a.told (e.bind (·.tells? c)).toList).Abreast b := by
  cases e with
  | none => exact h.untold rfl c a ha
  | some x =>
    cases houtcome : x.outcome with
    | none =>
      have htells : x.tells? c = none := by
        rw [Exchange.tells?, houtcome]
        split <;> rfl
      rw [Option.bind_some, htells]
      exact h.untold houtcome c a ha
    | some outcome =>
      obtain ⟨hfinish, hl⟩ := h.complete x outcome rfl houtcome
      have htells : x.tells? c = if (x.serviceClass, x.kind) = (c, .sliding) then
          some (feedback outcome, now) else none := by
        rw [Exchange.tells?, houtcome, hfinish]
        rfl
      have hsliding := Limiter.sliding_complete ha x.serviceClass x.kind (feedback outcome) now
      rw [← hl] at hsliding
      refine ⟨_, hsliding, ?_⟩
      rw [Option.bind_some, htells]
      split <;> exact .refl _

/-- **Each step of a call passes on what it ends, once, and tells the limiter nothing else.** -/
theorem step_settles {status : Option CancelReason} {incoming : Incoming}
    (h : call.step l now status incoming phase = some r) :
    Settles call now l phase r (call.ending? now status incoming.outcome? phase) := by
  cases advance_of_step h with
  | stopped reason hp =>
    cases phase with
    | exchanging attempt length url kind expires =>
      -- the exchange is given up, and nothing is passed on
      refine ⟨rfl, rfl, fun _ => .refl l, fun x outcome hx houtcome => ?_⟩
      obtain rfl := Option.some_inj.1 hx
      exact absurd houtcome (by simp)
    | _ => exact .nothing rfl rfl (by simp) (.refl l)
  | unbuilt | mismatched | asked | ready =>
    exact .nothing rfl rfl (by simp [Effect.place?, Effect.report?]) (.refl l)
  | answered answer after =>
    cases answer with
    | ok value => exact .nothing rfl rfl (by simp) (.refl l)
    | error e =>
      refine .nothing rfl (underWay_conclude ..) (fun e he => ?_) (.refl l)
      obtain ⟨_, -, rfl⟩ := List.mem_map.1 he
      exact ⟨rfl, rfl⟩
  | @arrived _ attempt length request kind a hkind ha =>
    subst hkind ha
    have hunder : (Phase.arriving attempt length request).underWay call = none := rfl
    exact .admitted hunder (l.untold_arrive _ _ _ now none) ..
  | resumed ha => exact .admitted rfl (Limiter.untold_resume ha) _ _ _ _ _ []
  | responded => exact .concluded ..
  | @expired _ attempt length url kind expires hno hdue =>
    have hending : call.ending? now none incoming.outcome?
        (.exchanging attempt length url kind expires) =
          some ⟨call.context.serviceClass, kind, now, some (.error .handlerTimeout)⟩ := by
      cases incoming with
      | response outcome after => exact absurd rfl (hno outcome after)
      | nothing | credential => exact if_pos hdue
    exact hending ▸ .concluded ..
  | rested => exact .nothing rfl rfl (by simp) (.refl l)

end Call

namespace Traffic

/-! ## Runs -/

namespace Move

/-- The outcome that a move brings for an exchange. -/
def outcome? : Move → Option Call.Outcome
  | response _ answer _ => some answer
  | _ => none

theorem outcome?_incoming (m : Move) (after : Option CancelReason) :
    (m.incoming after).outcome? = m.outcome? := by cases m <;> rfl

end Move

variable {α : Type}

/-- The exchange that ends with a move, and whose it was. -/
def ending? (calls : Nat → Call) (s : Traffic α) (m : Move) : Option (Nat × Exchange) :=
  m.call?.bind fun i =>
    ((calls i).ending? s.now (s.status calls i) m.outcome? (s.phase i)).map (i, ·)

/-- The exchange under way of a call. -/
def underWay (calls : Nat → Call) (s : Traffic α) (i : Nat) : Option (ServiceClass × PoolKind) :=
  (s.phase i).underWay (calls i)

/-- The pools that a call has drawn from, in order. -/
def places (s : Traffic α) (i : Nat) : List (ServiceClass × PoolKind) :=
  (s.effects i).filterMap (·.place?)

/-- What calls have passed on, in order. -/
def reports (s : Traffic α) : List (Nat × ServiceClass × PoolKind × Feedback) :=
  s.trace.filterMap fun e => e.2.report?.map (e.1, ·)

/-- What the adaptive pool of a class has been told by exchanges. -/
def tellings (es : List (Nat × Exchange)) (c : ServiceClass) : List (Feedback × Nat) :=
  es.filterMap (·.2.tells? c)

/-- The exchanges of a call. -/
def exchangesOf (es : List (Nat × Exchange)) (i : Nat) : List Exchange :=
  es.filterMap fun e => if e.1 = i then some e.2 else none

variable [Number α]

/-- The exchanges that end in a run of moves, in the order in which they end. -/
def endings (calls : Nat → Call) : Traffic α → List Move → List (Nat × Exchange)
  | _, [] => []
  | s, m :: ms =>
    match s.step calls m with
    | some s' => (s.ending? calls m).toList ++ endings calls s' ms
    | none => []

/-- The traffic over a new limiter before any call. -/
def fresh (cfg : LimiterConfig α) (start : Nat) (forest : Forest) : Traffic α :=
  { limiter := .new cfg start, now := start, forest }

/-- Whether the exchanges that have ended account for all that the calls have done. -/
structure Told (calls : Nat → Call) (l₀ : Limiter α) (s : Traffic α)
    (es : List (Nat × Exchange)) : Prop where
  places_eq : ∀ i, s.places i = (exchangesOf es i).map (·.place) ++ (s.underWay calls i).toList
  reports_eq : s.reports = es.filterMap fun e => e.2.report?.map (e.1, ·)
  abreast : ∀ c a₀, (l₀.pools c).sliding = some a₀ →
    ∃ a, (s.limiter.pools c).sliding = some a ∧ (a₀.told (tellings es c)).Abreast a

namespace Told

variable {calls : Nat → Call} {l₀ : Limiter α} {s s' : Traffic α} {es : List (Nat × Exchange)}
  {m : Move} {i : Nat}

theorem opening (cfg : LimiterConfig α) (start : Nat) (forest : Forest) :
    Told calls (.new cfg start) (fresh cfg start forest) [] where
  places_eq _ := rfl
  reports_eq := rfl
  abreast _ a₀ h := ⟨a₀, h, .refl a₀⟩

/-- Nothing that concerns an exchange has happened, and nothing was told. -/
theorem of_untold (h : Told calls l₀ s es) (hphase : s'.phase = s.phase)
    (htrace : s'.trace = s.trace) (hl : s.limiter.Untold s'.limiter) : Told calls l₀ s' es where
  places_eq i := by
    rw [places, effects, htrace, underWay, hphase]
    exact h.places_eq i
  reports_eq := by
    rw [reports, htrace]
    exact h.reports_eq
  abreast c a₀ h₀ := by
    obtain ⟨a, ha, habreast⟩ := h.abreast c a₀ h₀
    obtain ⟨b, hb, hab⟩ := hl c a ha
    exact ⟨b, hb, habreast.trans hab⟩

/-- A call gets its turn. -/
theorem after {forest : Forest} {r : Call.Step α} {e : Option Exchange} (h : Told calls l₀ s es)
    (hr : Call.Settles (calls i) s.now s.limiter (s.phase i) r e) :
    Told calls l₀ (s.after i forest r) (es ++ (e.map (i, ·)).toList) where
  places_eq j := by
    by_cases hj : j = i
    · subst hj
      have hexchanges : exchangesOf (es ++ (e.map (j, ·)).toList) j =
          exchangesOf es j ++ e.toList := by
        rw [exchangesOf, List.filterMap_append]
        cases e <;> simp [exchangesOf]
      have hplaces : (e.toList.map (·.place)) = (e.map (·.place)).toList := by cases e <;> rfl
      rw [places, effects_after_self, List.filterMap_append, hexchanges, List.map_append, hplaces,
        underWay, phase_after_self, List.append_assoc, ← hr.places_eq, ← List.append_assoc]
      exact congrArg (· ++ _) (h.places_eq j)
    · have hexchanges : exchangesOf (es ++ (e.map (i, ·)).toList) j = exchangesOf es j := by
        rw [exchangesOf, List.filterMap_append]
        cases e <;> simp [exchangesOf, Ne.symm hj]
      rw [places, effects_after_of_ne hj, hexchanges, underWay, phase_after_of_ne hj]
      exact h.places_eq j
  reports_eq := by
    have hnew : (r.effects.map (i, ·)).filterMap
        (fun e : Nat × Call.Effect α => e.2.report?.map (e.1, ·)) =
          (r.effects.filterMap (·.report?)).map (i, ·) := by
      rw [List.filterMap_map, List.map_filterMap]
      rfl
    rw [List.filterMap_append, ← h.reports_eq]
    show List.filterMap _ (s.trace ++ r.effects.map (i, ·)) = _
    rw [List.filterMap_append, hnew, hr.reports_eq]
    refine congrArg (_ ++ ·) ?_
    cases e with
    | none => rfl
    | some x => cases hx : x.report? <;> simp [hx]
  abreast c a₀ h₀ := by
    obtain ⟨a, ha, habreast⟩ := h.abreast c a₀ h₀
    obtain ⟨b, hb, hab⟩ := hr.tells ha
    have hnew : (e.map (i, ·)).toList.filterMap (·.2.tells? c) =
        (e.bind (·.tells? c)).toList := by
      cases e with
      | none => rfl
      | some x => cases hx : x.tells? c <;> simp [hx]
    refine ⟨b, hb, ?_⟩
    rw [tellings, List.filterMap_append, hnew, Adaptive.told_append]
    exact (habreast.told _).trans hab

/-- One move, unless somebody else passes on an observation. -/
theorem step (h : Told calls l₀ s es) (hm : ∀ c f, m ≠ .feed c f)
    (hstep : s.step calls m = some s') :
    Told calls l₀ s' (es ++ (s.ending? calls m).toList) := by
  have hnone (hcall : m.call? = none) : es ++ (s.ending? calls m).toList = es := by
    rw [ending?, hcall]
    exact List.append_nil es
  cases hcall : m.call? with
  | some i =>
    obtain ⟨forest, after, r, rfl, hr⟩ := exists_step hcall hstep
    have hafter : Told calls l₀ (s.after i forest r) _ := h.after (Call.step_settles hr)
    rw [m.outcome?_incoming after] at hafter
    rw [ending?, hcall]
    exact hafter
  | none =>
    rw [hnone hcall]
    cases m with
    | turn | credential | response => exact absurd hcall (by simp [Move.call?])
    | pass | cancel | derive =>
      obtain rfl := Option.some_inj.1 hstep
      exact h.of_untold rfl rfl (.refl _)
    | draw c k cost =>
      obtain rfl := Option.some_inj.1 hstep
      exact h.of_untold rfl rfl (s.limiter.untold_take c k cost s.now)
    | feed c f => exact absurd rfl (hm c f)

/-- All moves, by induction on how many there are still to come. -/
theorem run {ms : List Move} (h : Told calls l₀ s es) (hms : ∀ c f, .feed c f ∉ ms)
    (hrun : s.run calls ms = some s') : Told calls l₀ s' (es ++ endings calls s ms) := by
  induction ms generalizing s es with
  | nil =>
    obtain rfl := Option.some_inj.1 hrun
    rw [endings, List.append_nil]
    exact h
  | cons m ms ih =>
    rw [Traffic.run] at hrun
    rw [endings]
    cases ht : Traffic.step calls s m with
    | none =>
      rw [ht] at hrun
      exact absurd hrun (by simp)
    | some t =>
      rw [ht] at hrun
      have hnext := ih (h.step (fun c f hm => hms c f (hm ▸ List.mem_cons_self)) ht)
        (fun c f hmem => hms c f (List.mem_cons_of_mem m hmem)) hrun
      rwa [List.append_assoc] at hnext

end Told

/-- As many throttled exchanges are told of as were answered by 429 or 503. -/
theorem countP_tellings (es : List (Nat × Exchange)) (c : ServiceClass) :
    (tellings es c).countP (·.1 = .throttled) = es.countP (·.2.throttles c) := by
  rw [tellings, List.countP_filterMap]
  refine List.countP_congr fun e _ => ?_
  rw [Exchange.tells?, Exchange.throttles]
  by_cases hplace : e.2.place = (c, .sliding)
  · rw [if_pos hplace]
    cases houtcome : e.2.outcome with
    | none => simp
    | some outcome =>
      cases outcome with
      | error => simp [Call.feedback_eq_throttled_iff]
      | ok r => simp [Call.feedback_eq_throttled_iff, hplace]
  · rw [if_neg hplace]
    split <;> simp [hplace]

/-- **Feedback is exact.**  Take calls that share a limiter and overlap in any way, while others may
draw from its pools.  Each call has drawn from the pools that admitted its exchanges, those that
have ended in the order in which they did and then the one under way.  Each exchange that ends with
an outcome is passed on once, to the pool that admitted it, and one that is given up is not.  An
adaptive pool has counted those of its exchanges that were answered by 429 or 503, and its rate and
its run of successes are what its exchanges make of them, in the order in which they ended. -/
theorem feedback_is_exact {calls : Nat → Call} {cfg : LimiterConfig α} {start : Nat}
    {forest : Forest} {ms : List Move} {s : Traffic α} (hms : ∀ c f, .feed c f ∉ ms)
    (hrun : (fresh cfg start forest).run calls ms = some s) :
    let es := endings calls (fresh cfg start forest) ms
    (∀ i, s.places i = (exchangesOf es i).map (·.place) ++ (s.underWay calls i).toList) ∧
    (s.reports = es.filterMap fun e => e.2.report?.map (e.1, ·)) ∧
    (∀ outcome, (Call.feedback outcome = .throttled ↔
        ∃ r, outcome = .ok r ∧ (r.status = 429 ∨ r.status = 503)) ∧
      (Call.feedback outcome = .success ↔
        ∃ r, outcome = .ok r ∧ 200 ≤ r.status ∧ r.status ≤ 399)) ∧
    ∀ c a₀, ((Limiter.new cfg start).pools c).sliding = some a₀ →
      ∃ a, (s.limiter.pools c).sliding = some a ∧
        a.throttled = min maxCount (es.countP (·.2.throttles c)) ∧
        a.pool.rate = (a₀.told (tellings es c)).pool.rate ∧
        a.successes = (a₀.told (tellings es c)).successes := by
  intro es
  have h : Told calls (.new cfg start) s es := (Told.opening cfg start forest).run hms hrun
  refine ⟨h.places_eq, h.reports_eq, fun outcome => ⟨Call.feedback_eq_throttled_iff outcome,
    Call.feedback_eq_success_iff outcome⟩, fun c a₀ h₀ => ?_⟩
  obtain ⟨a, ha, habreast⟩ := h.abreast c a₀ h₀
  have hzero : a₀.throttled = 0 := by
    have hpools : (Limiter.new cfg start).pools c = Limiter.newPools cfg start c := by
      cases c <;> rfl
    rw [hpools] at h₀
    obtain ⟨_, -, rfl⟩ := Option.map_eq_some_iff.1 h₀
    rfl
  refine ⟨a, ha, ?_, habreast.rate_eq, habreast.successes_eq⟩
  rw [habreast.throttled_eq, Adaptive.throttled_told (hzero ▸ Nat.zero_le _), hzero, Nat.zero_add,
    countP_tellings]

/-- Calls that ask for the adaptive pool, each with a context of its own. -/
def eagerCall (i : Nat) : Call where
  context := { token := i, options := { sliding := true } }
  budget := .standard
  build _ := .ok { method := .get, url := "https://host/items" }
  authenticated := false

/-- Two exchanges overlap; one is answered by 429, the other is given up.  The pool of the built-in
figures has slowed down once. -/
theorem feedback_is_exact_given_up :
    let ms : List Move := [.turn 0, .turn 0, .turn 1, .turn 1,
      .response 0 (.ok { status := 429 }) [], .cancel 1, .turn 1]
    ∃ s a, (fresh (.builtin : LimiterConfig Double) 0 ⟨[⟨none, false⟩, ⟨none, false⟩]⟩).run
        eagerCall ms = some s ∧
      s.reports = [(0, .standard, .sliding, .throttled)] ∧
      (s.limiter.pools .standard).sliding = some a ∧ a.throttled = 1 ∧
      a.pool.rate = Number.ofNat 8 := by
  intro ms
  have hsome : ((fresh (.builtin : LimiterConfig Double) 0
      ⟨[⟨none, false⟩, ⟨none, false⟩]⟩).run eagerCall ms).isSome = true := by decide +kernel
  obtain ⟨s, hs⟩ := Option.isSome_iff_exists.1 hsome
  obtain ⟨-, hreports, -, hpool⟩ := feedback_is_exact (by simp [ms]) hs
  obtain ⟨a, ha, hthrottled, hrate, -⟩ := hpool .standard _ rfl
  refine ⟨s, a, hs, hreports.trans ?_, ha, hthrottled.trans ?_, hrate.trans ?_⟩
  · decide +kernel
  · decide +kernel
  · decide +kernel

end Traffic

end DriveDelta
