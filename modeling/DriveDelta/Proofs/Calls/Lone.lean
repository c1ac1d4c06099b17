import DriveDelta.Proofs.Calls.Standing

/-!
# A lone call follows its rules

A call that is made alone, with a context that is never done and services whose scripts leave it
alone, makes the attempts that its rules ask for, at the times that they ask for, and ends with the
result that they ask for.  It does come to its end: no pool keeps it waiting for ever, because a
pool that lacks tokens gains some in every millisecond.

## What is here

* `Pipeline.Serves`, what a call relies on, and keeps;
* the parts of an attempt: `CallTask.Stands.authorize`, `CallTask.Stands.admit` with
  `CallTask.Sleeps.wakes`, which says that waiting for tokens ends, `CallTask.HasSent.exchange`, and
  `CallTask.Concludes`, its end;
* `CallTask.Stands.attempt`, one attempt, and `CallTask.Stands.course`, the whole call;
* `CallerTask.lone_call_follows_rules`.
-/

set_option autoImplicit false

namespace DriveDelta

/-! ## Pipelines -/

/-- What a call relies on, and keeps. -/
structure Pipeline.Serves (p : Pipeline) (call : Call) (kind : PoolKind) : Prop where
  plain : p.Plain
  authenticated_eq : call.authenticated = p.provider.isSome
  sound : p.limiter.Sound
  kind_eq : p.limiter.kind call.context.serviceClass call.context.options.sliding = kind

namespace Pipeline

variable {p : Pipeline} {call : Call} {kind : PoolKind} {l : Limiter Double}

theorem Serves.of_alike (h : p.Serves call kind) (hsound : l.Sound) (halike : p.limiter.Alike l) :
    ({ p with limiter := l } : Pipeline).Serves call kind :=
  ⟨⟨h.plain.wire, h.plain.provider⟩, h.authenticated_eq, hsound,
    (halike.kind_eq _ _).trans h.kind_eq⟩

/-- What holds of every cue, and of what is said after the last one, holds of the next answer. -/
theorem next_mem {β : Type} {script : List (Cue β)} {P : Cue β → Prop} {afterwards : β}
    (hend : P { answer := afterwards }) (h : ∀ cue ∈ script, P cue) :
    P (Cue.next script afterwards).1 ∧ ∀ cue ∈ (Cue.next script afterwards).2, P cue := by
  cases script with
  | nil => exact ⟨hend, by simp [Cue.next]⟩
  | cons cue rest =>
    exact ⟨h cue List.mem_cons_self, fun cue' hcue' => h cue' (List.mem_cons_of_mem _ hcue')⟩

theorem Serves.send (h : p.Serves call kind) (now : Nat) (c : ServiceClass) (request : Request) :
    (p.send now c request).1.Serves call kind ∧ (p.send now c request).2.cancels = false := by
  have hend : ({ answer := .ok { status := 200 } } : Cue Call.Outcome).cancels = false := rfl
  have hnext := next_mem hend h.plain.wire
  exact ⟨⟨⟨hnext.2, h.plain.provider⟩, h.authenticated_eq, h.sound, h.kind_eq⟩, hnext.1⟩

/-- The provider answers, and does not cancel the call. -/
theorem Serves.askCredential (h : p.Serves call kind) (ha : call.authenticated = true) (now : Nat) :
    (p.askCredential now).1.Serves call kind ∧ (p.askCredential now).2.cancels = false ∧
      ∃ due, (p.askCredential now).2.due = some due := by
  obtain ⟨cues, hcues⟩ := Option.isSome_iff_exists.1 (h.authenticated_eq ▸ ha)
  have hend : ({ answer := ticket (p.asked + 1) } : Cue (Except TransportError String)).cancels
      = false ∧ ({ answer := ticket (p.asked + 1) } : Cue (Except TransportError String)).hangs
      = false := ⟨rfl, rfl⟩
  have hnext := next_mem hend (h.plain.provider cues hcues)
  have hask : p.askCredential now =
      ({ p with provider := some (Cue.next cues (ticket (p.asked + 1))).2, asked := p.asked + 1 },
        (Cue.next cues (ticket (p.asked + 1))).1.ask now) := by
    rw [Pipeline.askCredential, hcues]
    rfl
  rw [hask]
  refine ⟨⟨⟨h.plain.wire, fun cues' hcues' => ?_⟩, ha, h.sound, h.kind_eq⟩, hnext.1.1, ?_⟩
  · obtain rfl := Option.some_inj.1 hcues'
    exact hnext.2
  · exact ⟨_, by rw [Cue.ask, hnext.1.2]; rfl⟩

end Pipeline

namespace CallTask

variable {call : Call} {forest : Forest} {r : Run.OfCalls} {now builds : Nat} {p : Pipeline}
  {phase : Call.Phase} {awaited : Awaited} {k size : Nat} {length : Option Nat}
  {request : Request} {kind : PoolKind} {outcome : Call.Outcome}

/-! ## The end of an attempt -/

/-- An attempt is about to be concluded with an outcome, after which this has been told: the next
step does that, begins nothing, and takes nothing from any pool. -/
inductive Concludes (call : Call) (forest : Forest) (r : Run.OfCalls) (now : Nat) (p : Pipeline)
    (builds k size : Nat) (url : String) (outcome : Call.Outcome)
    (told : List (Nat × Call.Effect Double)) : Prop where
  | by_step (phase : Call.Phase) (awaited : Awaited) (s : Call.Step Double)
      (stands : Stands call forest r now p phase awaited builds)
      (quiet : awaited.cancels = false)
      (next : nextStep call now p phase awaited builds = some s)
      (phase_eq : s.phase = (call.conclude k size url outcome now none).1)
      (effects : Call.Quiet s.effects)
      (told_eq : Call.stamped now s.effects =
        told ++ (call.conclude k size url outcome now none).2.map (now, .callEvent ·))
      (idles : p.limiter.Idles now s.limiter)

/-- The last attempt ends the call. -/
theorem Concludes.last {url : String} {told : List (Nat × Call.Effect Double)}
    (h : Concludes call forest r now p builds k size url outcome told) (he : Endless call forest)
    (hstop : Call.isTerminal outcome ∨ call.budget.maxAttempts ≤ k) :
    ∃ r' l, Goes r (told ++ (Call.closing k outcome).map (now, .callEvent ·)) r' ∧
      r'.advance CallerTask.machine = none ∧ r'.shared = { p with limiter := l } ∧
      r'.endings = [⟨0, ⟨Call.result k outcome, builds⟩, now, call.context⟩] := by
  obtain ⟨phase, awaited, s, hstands, hquiet, hs, hphase, heffects, htold, -⟩ := h
  rw [Call.conclude_of_rules, if_pos hstop] at hphase htold
  obtain ⟨r', hpasses, hover, hshared, hendings⟩ := hstands.finish he hquiet hs hphase
  obtain ⟨hpipeline, -, hbuilds⟩ := Scene.after_of_quiet call now p builds s heffects
  rw [htold] at hpasses
  rw [hpipeline] at hshared
  rw [hbuilds] at hendings
  exact ⟨r', s.limiter, hpasses, hover, hshared, hendings⟩

/-- Any other attempt is followed by the next one, after the pause. -/
theorem Concludes.more {url : String} {told : List (Nat × Call.Effect Double)}
    (h : Concludes call forest r now p builds k size url outcome told) (he : Endless call forest)
    (hs : p.Serves call kind) (hgo : Call.isTerminal outcome = false)
    (hk : k < call.budget.maxAttempts) :
    ∃ r' l, Goes r (told ++ [(now, .callEvent (.retrying url k call.budget.maxAttempts
          (Call.summary outcome) (Call.pause call.budget k outcome)))]) r' ∧
      ({ p with limiter := l } : Pipeline).Serves call kind ∧
      Stands call forest r' (Call.resumption now (Call.pause call.budget k outcome))
        { p with limiter := l } (.building (k + 1) (some size)) .nothing builds := by
  obtain ⟨phase, awaited, s, hstands, hquiet, hnext, hphase, heffects, htold, hidles⟩ := h
  have hon : ¬ (Call.isTerminal outcome = true ∨ call.budget.maxAttempts ≤ k) := by
    simp [hgo, hk]
  rw [Call.conclude_of_rules, if_neg hon] at hphase htold
  have hserves := hs.of_alike (hs.sound.idles hidles) hidles.alike
  obtain ⟨r', hpasses, hstands'⟩ := hstands.step he hquiet hnext (by
    rw [hphase]
    dsimp only
    split <;> simp)
  obtain ⟨hpipeline, hawaited, hbuilds⟩ := Scene.after_of_quiet call now p builds s heffects
  rw [htold] at hpasses
  rw [hpipeline, hawaited, hbuilds, hphase] at hstands'
  by_cases hpause : Call.pause call.budget k outcome = 0
  · rw [if_pos hpause] at hstands'
    rw [Call.resumption, if_pos hpause]
    exact ⟨r', s.limiter, hpasses, hserves, hstands'⟩
  · rw [if_neg hpause] at hstands'
    rw [Call.resumption, if_neg hpause]
    obtain ⟨r₁, hpasses₁, hstands₁⟩ := hstands'.await he rfl Nanos.min?_alarm
      (fun hlt => by simp [nextStep, Call.step, Nat.not_le.2 hlt])
      (fun t' ht' => by simp [nextStep, Call.step, ht'])
    have hdue := Nanos.le_seen now (Nanos.wake now (Call.pause call.budget k outcome))
    obtain ⟨r₂, hpasses₂, hstands₂⟩ := hstands₁.step he rfl
      (s := ⟨s.limiter, .building (k + 1) (some size), []⟩)
      (by simp [nextStep, Call.step, hdue]) (by simp)
    have hall := hpasses.trans (hpasses₁.trans hpasses₂)
    simp only [Call.stamped, List.filter_nil, List.append_nil, List.map_cons, List.map_nil] at hall
    exact ⟨r₂, s.limiter, hall, hserves, hstands₂⟩

/-! ## Building and asking for a credential -/

/-- What is told when an attempt begins. -/
def started (call : Call) (began : Nat) : List (Nat × Call.Effect Double) :=
  (began, .built) :: if call.authenticated then [(began, .askedCredential)] else []

theorem Stands.build (h : Stands call forest r now p (.building k length) .nothing builds)
    (he : Endless call forest) (hbuild : call.build k = .ok request)
    (hlength : length.getD request.body.length = request.body.length) :
    ∃ r', Goes r (started call now) r' ∧
      if call.authenticated then
        Stands call forest r' now (p.askCredential now).1
          (.authorizing k request.body.length request) (.credential (p.askCredential now).2)
          (builds + 1)
      else Stands call forest r' now p (.arriving k request.body.length request) .nothing
        (builds + 1) := by
  cases ha : call.authenticated with
  | true =>
    have hs : nextStep call now p (.building k length) .nothing builds = some
        ⟨p.limiter, .authorizing k request.body.length request, [.built, .askedCredential]⟩ := by
      simp [nextStep, Call.step, hbuild, hlength, ha]
    obtain ⟨r', hpasses, hstands⟩ := h.step he rfl hs (by simp)
    refine ⟨r', ?_, hstands⟩
    rw [started, ha]
    exact hpasses
  | false =>
    have hs : nextStep call now p (.building k length) .nothing builds = some
        ⟨p.limiter, .arriving k request.body.length request, [.built]⟩ := by
      simp [nextStep, Call.step, hbuild, hlength, ha]
    obtain ⟨r', hpasses, hstands⟩ := h.step he rfl hs (by simp)
    refine ⟨r', ?_, hstands⟩
    rw [started, ha]
    exact hpasses

/-- What is given instead of an answer, or the answer, ends the wait for a credential. -/
theorem nextStep_authorizing (call : Call) (p : Pipeline) (builds k size : Nat)
    (request : Request) {q : Pending (Except TransportError String)} {due : Nat}
    (hdue : q.due = some due) (hquiet : q.cancels = false) (t : Nat) :
    nextStep call t p (.authorizing k size request) (.credential q) builds =
      if due ≤ t then some (call.authorized p.limiter t k size request q.answer none)
      else none := by
  have hcancels : (Awaited.credential q).cancels = false := hquiet
  rw [nextStep, heard_eq hcancels]
  simp only [Awaited.isGiven, Awaited.due, hdue, Option.map_some, Option.getD_some,
    decide_eq_true_eq]
  split
  · cases hanswer : q.answer <;> simp [Call.step, Call.authorized]
  · simp [Call.step]

/-- From the beginning of an attempt to the wait for tokens, or to the end. -/
theorem Stands.authorize (h : Stands call forest r now p (.building k length) .nothing builds)
    (he : Endless call forest) (hs : p.Serves call kind) (hbuild : call.build k = .ok request)
    (hlength : length.getD request.body.length = request.body.length) :
    ∃ p' t answer r', p.authorize call.authenticated now request = (p', t, answer) ∧
      Goes r (started call now) r' ∧
      p'.Serves call kind ∧
      match answer with
      | .ok request' => Stands call forest r' t p' (.arriving k request.body.length request')
          .nothing (builds + 1)
      | .error e => Concludes call forest r' t p' (builds + 1) k request.body.length request.url
          (.error e) [] := by
  obtain ⟨r₁, hpasses, hstands⟩ := h.build he hbuild hlength
  cases ha : call.authenticated with
  | false =>
    rw [if_neg (by simp [ha])] at hstands
    exact ⟨p, now, .ok request, r₁, rfl, hpasses, hs, hstands⟩
  | true =>
    rw [if_pos ha] at hstands
    obtain ⟨hserves, hquiet, due, hdue⟩ := hs.askCredential ha now
    have hnext := nextStep_authorizing call (p.askCredential now).1 (builds + 1) k
      request.body.length request hdue hquiet
    have halarms : alarms
        { call, phase := .authorizing k request.body.length request,
          awaited := .credential (p.askCredential now).2, builds := builds + 1 } = [due] := by
      simp [alarms, Awaited.due, hdue]
    obtain ⟨r₂, hpasses₂, hstands₂⟩ := hstands.await he hquiet
      (fun hlt => by rw [halarms]; exact Nanos.min?_alarm hlt)
      (fun hlt => by rw [hnext, if_neg (Nat.not_le.2 hlt)])
      (fun t' ht' => by rw [hnext, if_pos ht']; rfl)
    have hnow := hnext (Nanos.seen now due)
    rw [if_pos (Nanos.le_seen now due)] at hnow
    have hauth : p.authorize true now request = ((p.askCredential now).1, Nanos.seen now due,
        (p.askCredential now).2.answer.map (request.setHeader "Authorization")) := by
      simp [Pipeline.authorize, hdue]
    cases hanswer : (p.askCredential now).2.answer with
    | ok value =>
      rw [hanswer] at hnow hauth
      obtain ⟨r₃, hpasses₃, hstands₃⟩ := hstands₂.step he hquiet hnow (by simp [Call.authorized])
      refine ⟨_, _, _, r₃, hauth, ?_, hserves, hstands₃⟩
      simpa [Call.authorized, Call.stamped] using hpasses.trans (hpasses₂.trans hpasses₃)
    | error e =>
      rw [hanswer] at hnow hauth
      refine ⟨_, _, _, r₂, hauth, by simpa using hpasses.trans hpasses₂, hserves, ?_⟩
      exact ⟨_, _, _, hstands₂, hquiet, hnow, rfl, Call.quiet_authorized _ _ _ _ _ _ _ _,
        Call.stamped_callEvents _ _, .refl _ _⟩

/-! ## Waiting for tokens -/

/-- The call has just sent a request. -/
def HasSent (call : Call) (forest : Forest) (r : Run.OfCalls) (now : Nat) (p : Pipeline)
    (builds k size : Nat) (request : Request) (kind : PoolKind) : Prop :=
  Stands call forest r now (p.send now call.context.serviceClass request).1
    (.exchanging k size request.url kind (Nanos.wake now call.budget.perCallTimeout))
    (.response (p.send now call.context.serviceClass request).2) builds

/-- What is told when a call is admitted. -/
def admission (call : Call) (kind : PoolKind) (sent : Nat) (request : Request) :
    List (Nat × Call.Effect Double) :=
  [(sent, .charged call.context.serviceClass kind call.context.cost), (sent, .sent request)]

/-- A call that is neither admitted nor cancelled sleeps. -/
structure Sleeps (call : Call) (forest : Forest) (r : Run.OfCalls) (now : Nat) (p : Pipeline)
    (builds k size : Nat) (request : Request) (kind : PoolKind) (until_ : Nat) : Prop where
  stands : Stands call forest r now p (.admitting k size request kind until_) .nothing builds
  lacks : (p.limiter.pool call.context.serviceClass kind).Lacks call.context.cost now
  later : now + Nanos.milli ≤ until_

theorem Scene.after_granted (call : Call) (now : Nat) (p : Pipeline) (builds : Nat)
    (l : Limiter Double) (k size : Nat) (request : Request) (kind : PoolKind)
    (events : List (AdmissionEvent Double)) :
    let s := call.admitted l now k size request kind .granted (events.map .admissionEvent)
    let sent := ({ p with limiter := l } : Pipeline).send now call.context.serviceClass request
    (Scene.after call now p builds s).pipeline = sent.1 ∧
      (Scene.after call now p builds s).awaited = .response sent.2 ∧
      (Scene.after call now p builds s).builds = builds := by
  have hs := Scene.same_of_quiet now call.context.serviceClass (opening p builds l)
    (Call.quiet_admissionEvents events)
  simp only [Scene.after, Call.admitted, List.foldl_append, List.foldl_cons, List.foldl_nil,
    Scene.perform]
  rw [hs.pipeline_eq, hs.builds_eq]
  exact ⟨rfl, rfl, rfl⟩

/-- A look at the pool admits the call, or leaves it asleep. -/
theorem Stands.look {l : Limiter Double} {turn : Turn}
    (h : Stands call forest r now p phase .nothing builds)
    (events : List (AdmissionEvent Double)) (he : Endless call forest)
    (hs : p.Serves call kind)
    (hnext : nextStep call now p phase .nothing builds = some
      (call.admitted l now k size request kind turn (events.map .admissionEvent)))
    (hl : Limiter.Looked call.context.serviceClass kind call.context.cost now p.limiter none l
      turn) :
    ∃ r', ({ p with limiter := l } : Pipeline).Serves call kind ∧
      ((Goes r (admission call kind now request) r' ∧
          HasSent call forest r' now { p with limiter := l } builds k size request kind) ∨
        (Goes r [] r' ∧ p.limiter.Idles now l ∧
          ∃ until_, Sleeps call forest r' now { p with limiter := l } builds k size request kind
            until_)) := by
  have hsound := hs.sound.looked hl
  cases hl with
  | granted hl =>
    obtain ⟨r', hpasses, hstands⟩ := h.step he rfl hnext (by simp [Call.admitted])
    refine ⟨r', hs.of_alike hsound hl.alike, .inl ⟨?_, ?_⟩⟩
    · rw [Call.admitted, Call.stamped_append, Call.stamped_admissionEvents, List.nil_append]
        at hpasses
      exact hpasses
    · obtain ⟨hpipeline, hawaited, hbuilds⟩ :=
        Scene.after_granted call now p builds l k size request kind events
      rwa [hpipeline, hawaited, hbuilds] at hstands
  | @asleep _ until_ hl hlacks hlater =>
    obtain ⟨r', hpasses, hstands⟩ := h.step he rfl hnext (by simp [Call.admitted])
    rw [Call.admitted] at hpasses hstands
    obtain ⟨hpipeline, hawaited, hbuilds⟩ := Scene.after_of_quiet call now p builds
      ⟨l, .admitting k size request kind until_, events.map .admissionEvent⟩
      (Call.quiet_admissionEvents events)
    rw [hpipeline, hawaited, hbuilds] at hstands
    rw [Call.stamped_admissionEvents] at hpasses
    exact ⟨r', hs.of_alike hsound hl.alike, .inr ⟨hpasses, hl, _, hstands, hlacks, hlater⟩⟩

/-- **Waiting for tokens ends.** -/
theorem Sleeps.wakes {until_ : Nat}
    (h : Sleeps call forest r now p builds k size request kind until_) (he : Endless call forest)
    (hs : p.Serves call kind) :
    ∃ r' sent l, now ≤ sent ∧ Goes r (admission call kind sent request) r' ∧
      ({ p with limiter := l } : Pipeline).Serves call kind ∧
      HasSent call forest r' sent { p with limiter := l } builds k size request kind := by
  -- what the pool lacks to be full decreases with every look
  generalize hmeasure : (Double.ofNat
    (p.limiter.pool call.context.serviceClass kind).capacity).magnitude -
      (p.limiter.pool call.context.serviceClass kind).tokens.magnitude = measure
  induction measure using Nat.strongRecOn generalizing r now p until_ with
  | ind measure ih =>
    have hlt : now < until_ := Nat.lt_of_lt_of_le (by simp [Nanos.milli]) h.later
    have hnext (t : Nat) : nextStep call t p (.admitting k size request kind until_) .nothing
        builds = (p.limiter.resume call.context.serviceClass kind call.context.cost t none
          until_).map fun a => call.admitted a.1 t k size request kind a.2 [] :=
      call.step_admitting p.limiter t none _ k size request kind until_
    have hresume (t : Nat) : (p.limiter.resume call.context.serviceClass kind call.context.cost t
        none until_).isSome = decide (until_ ≤ t) := by
      by_cases ht : until_ ≤ t <;> simp [Limiter.resume, Pool.resume, ht]
    obtain ⟨t, hle, r₁, hpasses, hstands⟩ : ∃ t, until_ ≤ t ∧ ∃ r₁, Goes r [] r₁ ∧
          Stands call forest r₁ t p (.admitting k size request kind until_) .nothing builds :=
      ⟨_, Nanos.le_seen now until_, h.stands.await he rfl Nanos.min?_alarm
        (fun hlt => by
          rw [← Option.not_isSome_iff_eq_none, hnext, Option.isSome_map, hresume]
          simp [Nat.not_le.2 hlt])
        (fun t' ht' => by rw [hnext, Option.isSome_map, hresume]; simp [ht'])⟩
    obtain ⟨⟨l, turn⟩, hl⟩ := Option.isSome_iff_exists.1
      ((hresume t).trans (decide_eq_true hle))
    have hhas := p.limiter.has_kind call.context.serviceClass call.context.options.sliding
    rw [hs.kind_eq] at hhas
    obtain ⟨r₂, hserves, ⟨hpasses₂, hsent⟩ | ⟨hpasses₂, hidles, until', hsleeps⟩⟩ :=
      hstands.look [] he hs (by rw [hnext, hl]; rfl) (Limiter.resume_looked hhas hl).2
    · exact ⟨r₂, t, l, by omega, by simpa using hpasses.trans hpasses₂, hserves, hsent⟩
    · have haccrued := hidles.accrued call.context.serviceClass kind
      have hsound := hs.sound call.context.serviceClass kind
      have hgain := hsound.lt_of_lacks h.lacks (Nat.le_trans h.later hle) haccrued hsleeps.lacks
      have hroom := hsound.lt_capacity h.lacks
      have hless : (Double.ofNat
          (l.pool call.context.serviceClass kind).capacity).magnitude -
            (l.pool call.context.serviceClass kind).tokens.magnitude < measure := by
        rw [haccrued.capacity_eq, ← hmeasure]
        exact Nat.sub_lt_sub_left hroom hgain
      obtain ⟨r₃, sent, l', hlater, hpasses₃, hserves', hsent⟩ := ih _ hless hsleeps hserves rfl
      exact ⟨r₃, sent, l', by omega, by simpa using hpasses.trans (hpasses₂.trans hpasses₃),
        hserves', hsent⟩

/-- A newcomer is admitted, at once or later. -/
theorem Stands.admit
    (h : Stands call forest r now p (.arriving k size request) .nothing builds)
    (he : Endless call forest) (hs : p.Serves call kind) :
    ∃ r' sent l, now ≤ sent ∧ Goes r (admission call kind sent request) r' ∧
      ({ p with limiter := l } : Pipeline).Serves call kind ∧
      HasSent call forest r' sent { p with limiter := l } builds k size request kind := by
  have hhas := p.limiter.has_kind call.context.serviceClass call.context.options.sliding
  rw [hs.kind_eq] at hhas
  have hlooked := Limiter.arrive_looked hhas call.context.cost now none
  obtain ⟨⟨l, turn, events⟩, hl⟩ : ∃ a, p.limiter.arrive call.context.serviceClass kind
      call.context.cost now none = a := ⟨_, rfl⟩
  rw [hl] at hlooked
  have hnext : nextStep call now p (.arriving k size request) .nothing builds =
      some (call.admitted l now k size request kind turn (events.map .admissionEvent)) :=
    call.step_arriving p.limiter now none _ k size request hs.kind_eq hl
  obtain ⟨r₁, hserves, ⟨hpasses, hsent⟩ | ⟨hpasses, -, until_, hsleeps⟩⟩ :=
    h.look events he hs hnext hlooked
  · exact ⟨r₁, now, l, Nat.le_refl now, hpasses, hserves, hsent⟩
  · obtain ⟨r₂, sent, l', hlater, hpasses₂, hserves', hsent⟩ := hsleeps.wakes he hserves
    exact ⟨r₂, sent, l', hlater, by simpa using hpasses.trans hpasses₂, hserves', hsent⟩

/-! ## The exchange -/

/-- The answer of the wire, or the end of the time for it, ends an exchange. -/
theorem nextStep_exchanging (call : Call) (p : Pipeline) (builds k size : Nat) (url : String)
    (kind : PoolKind) (expires : Nat) {q : Pending Call.Outcome} (hquiet : q.cancels = false)
    (t : Nat) :
    nextStep call t p (.exchanging k size url kind expires) (.response q) builds =
      if q.isGiven t then some (call.concluded p.limiter t k size url kind q.answer none)
      else if expires ≤ t then
        some (call.concluded p.limiter t k size url kind (.error .handlerTimeout) none)
      else none := by
  have hcancels : (Awaited.response q).cancels = false := hquiet
  have hgiven : (Awaited.response q).isGiven t = q.isGiven t := rfl
  rw [nextStep, heard_eq hcancels, Call.step_exchanging, hgiven]
  cases q.isGiven t <;> rfl

/-- What is told when an exchange ends, before its attempt is concluded. -/
def reported (call : Call) (kind : PoolKind) (ended : Nat) (outcome : Call.Outcome) :
    List (Nat × Call.Effect Double) :=
  [(ended, .fed call.context.serviceClass kind (Call.feedback outcome))]

theorem stamped_concluded (call : Call) (l : Limiter Double) (now k size : Nat) (url : String)
    (kind : PoolKind) (outcome : Call.Outcome) :
    Call.stamped now (call.concluded l now k size url kind outcome none).effects =
      reported call kind now outcome ++
        (call.conclude k size url outcome now none).2.map (now, .callEvent ·) := by
  rw [Call.concluded, Call.stamped_append, Call.stamped_callEvents]
  exact congrArg (_ :: · ++ _) (Call.stamped_admissionEvents now _)

/-- The point in time that an exchange waits for. -/
def lapse (q : Pending Call.Outcome) (expires : Nat) : Nat :=
  (q.due.map (min · expires)).getD expires

theorem lapse_le_iff {q : Pending Call.Outcome} {expires t : Nat} :
    lapse q expires ≤ t ↔ q.isGiven t = true ∨ expires ≤ t := by
  rw [lapse, Pending.isGiven]
  cases q.due <;> simp

theorem min?_lapse {q : Pending Call.Outcome} {expires : Nat} (h : now < lapse q expires) :
    (((q.due.toList ++ [expires]).map Nanos.tick).filter (now < ·)).min?
      = some (Nanos.tick (lapse q expires)) := by
  rw [lapse] at h ⊢
  cases hdue : q.due with
  | none =>
    rw [hdue] at h
    exact Nanos.min?_alarm h
  | some due =>
    rw [hdue] at h
    have hboth : now < due ∧ now < expires := by simpa using h
    exact Nanos.min?_alarms hboth.1 hboth.2

/-- The exchange of a request that has been sent, up to its end. -/
theorem HasSent.exchange (h : HasSent call forest r now p builds k size request kind)
    (he : Endless call forest) (hs : p.Serves call kind) :
    ∃ p' ended outcome r', p.exchange call now request = (p', ended, outcome) ∧
      Goes r [] r' ∧ p'.Serves call kind ∧
      Concludes call forest r' ended p' builds k size request.url outcome
        (reported call kind ended outcome) := by
  obtain ⟨hserves, hquiet⟩ := hs.send now call.context.serviceClass request
  generalize hexpires : Nanos.wake now call.budget.perCallTimeout = expires
  generalize hsend : p.send now call.context.serviceClass request = sent at hserves hquiet
  obtain ⟨p', q⟩ := sent
  rw [HasSent, hsend, hexpires] at h
  have hnext := nextStep_exchanging call p' builds k size request.url kind expires hquiet
  obtain ⟨r', hpasses, hstands⟩ := h.await he hquiet min?_lapse
    (fun hlt => by
      have hnot := lapse_le_iff.not.1 (Nat.not_le.2 hlt)
      rw [hnext, if_neg fun hg => hnot (.inl hg), if_neg fun ht => hnot (.inr ht)])
    (fun t' ht' => by
      rw [hnext]
      rcases lapse_le_iff.1 ht' with hg | ht
      · rw [if_pos hg]
        rfl
      · rw [if_pos ht]
        split <;> rfl)
  have hended := lapse_le_iff.1 (Nanos.le_seen now (lapse q expires))
  have hex : p.exchange call now request = (p', Nanos.seen now (lapse q expires),
      if q.isGiven (Nanos.seen now (lapse q expires)) then q.answer
      else .error .handlerTimeout) := by
    rw [Pipeline.exchange, hsend, hexpires]
    rfl
  generalize Nanos.seen now (lapse q expires) = ended at hstands hended hex
  have hnow : nextStep call ended p' (.exchanging k size request.url kind expires) (.response q)
      builds = some (call.concluded p'.limiter ended k size request.url kind
        (if q.isGiven ended then q.answer else .error .handlerTimeout) none) := by
    rw [hnext]
    by_cases hg : q.isGiven ended = true
    · rw [if_pos hg, if_pos hg]
    · rw [if_neg hg, if_neg hg, if_pos (hended.resolve_left hg)]
  refine ⟨_, _, _, r', hex, hpasses, hserves, ?_⟩
  exact ⟨_, _, _, hstands, hquiet, hnow, rfl, Call.quiet_concluded _ _ _ _ _ _ _ _ _,
    stamped_concluded call p'.limiter ended k size request.url kind _,
    p'.limiter.complete_idles _ kind _ ended⟩

/-! ## Attempts -/

/-- A credential leaves the address of a request alone. -/
theorem url_of_authorize {authenticated : Bool} {p' : Pipeline} {t : Nat} {request' : Request}
    (h : p.authorize authenticated now request = (p', t, .ok request')) :
    request'.url = request.url := by
  cases authenticated with
  | false =>
    obtain ⟨-, h⟩ := Prod.mk.inj h
    rw [← Except.ok.inj (Prod.mk.inj h).2]
  | true =>
    obtain ⟨-, h⟩ := Prod.mk.inj h
    have hrequest := (Prod.mk.inj h).2
    cases hanswer : (p.askCredential now).2.answer with
    | error e => rw [hanswer] at hrequest; exact absurd hrequest (by simp [Except.map])
    | ok value =>
      rw [hanswer] at hrequest
      rw [← Except.ok.inj hrequest]
      rfl

/-- One attempt, from its beginning to its conclusion. -/
theorem Stands.attempt (h : Stands call forest r now p (.building k length) .nothing builds)
    (he : Endless call forest) (hs : p.Serves call kind) (hbuild : call.build k = .ok request)
    (hlength : length.getD request.body.length = request.body.length) :
    ∃ a p' r' told fed, (∀ l, Call.Attempted call k now p a { p' with limiter := l }) ∧
      p'.Serves call kind ∧ Goes r told r' ∧
      Concludes call forest r' a.ended p' (builds + 1) k request.body.length a.request.url
        a.outcome fed ∧
      ∀ events, a.trace call kind events = told ++ (fed ++ events.map (a.ended, .callEvent ·)) := by
  obtain ⟨p₁, t, answer, r₁, hauth, hpasses, hserves, hrest⟩ := h.authorize he hs hbuild hlength
  cases answer with
  | error e =>
    refine ⟨{ began := now, request, outcome := .error e, ended := t }, p₁, r₁, _, _,
      fun l => .refused hbuild hauth l, hserves, hpasses, hrest, fun events => ?_⟩
    simp [Call.Attempt.trace, started]
  | ok request' =>
    obtain ⟨r₂, sent, l, hsent, hpasses₂, hserves₂, hhas⟩ := hrest.admit he hserves
    obtain ⟨p₃, ended, outcome, r₃, hex, hpasses₃, hserves₃, hconcludes⟩ :=
      hhas.exchange he hserves₂
    -- the limiter has no part in the exchange
    have hlimiter : ({ p₁ with limiter := l } : Pipeline).exchange call sent request' =
        ({ (p₁.exchange call sent request').1 with limiter := l },
          (p₁.exchange call sent request').2) := rfl
    rw [hlimiter] at hex
    obtain ⟨rfl, hrest₃⟩ := Prod.mk.inj hex
    have hex₁ : p₁.exchange call sent request' =
        ((p₁.exchange call sent request').1, ended, outcome) := by rw [← hrest₃]
    rw [url_of_authorize hauth] at hconcludes
    refine ⟨{ began := now, request, sent := some (sent, request'), outcome, ended },
      { (p₁.exchange call sent request').1 with limiter := l }, r₃, _, _,
      fun l' => .exchanged hbuild hauth hsent hex₁ l', hserves₃,
      hpasses.trans (hpasses₂.trans hpasses₃), hconcludes, fun events => ?_⟩
    simp [Call.Attempt.trace, started, admission, reported]

/-- A whole call, from the beginning of an attempt on. -/
theorem Stands.course (h : Stands call forest r now p (.building k length) .nothing builds)
    (he : Endless call forest) (hs : p.Serves call kind)
    (hbuild : ∀ n, ∃ request, call.build n = .ok request ∧ request.body.length = size)
    (hlength : length.getD size = size) :
    ∃ as p' last r', Call.Course call k now p as p' ∧ as.getLast? = some last ∧
      Goes r (Call.trace call kind k as) r' ∧
      r'.advance CallerTask.machine = none ∧ r'.shared = p' ∧
      ∃ n, n + 1 = k + as.length ∧ r'.endings =
        [⟨0, ⟨Call.result n last.outcome, builds + as.length⟩, last.ended, call.context⟩] := by
  -- there are only so many attempts left
  generalize hleft : call.budget.maxAttempts - k = left
  induction left using Nat.strongRecOn generalizing r now p k length builds with
  | ind left ih =>
    obtain ⟨request, hrequest, rfl⟩ := hbuild k
    obtain ⟨a, p₁, r₁, told, fed, hattempted, hserves, hpasses, hconcludes, htrace⟩ :=
      h.attempt he hs hrequest hlength
    by_cases hstop : Call.isTerminal a.outcome = true ∨ call.budget.maxAttempts ≤ k
    · obtain ⟨r₂, l, hpasses₂, hover, hshared, hendings⟩ := hconcludes.last he hstop
      refine ⟨[a], _, a, r₂, .last (hattempted l) hstop, rfl, ?_, hover, hshared, k, rfl,
        hendings⟩
      rw [Call.trace, htrace]
      exact hpasses.trans hpasses₂
    · obtain ⟨hterminal, hk⟩ := not_or.1 hstop
      rw [Bool.not_eq_true] at hterminal
      rw [Nat.not_le] at hk
      obtain ⟨r₂, l, hpasses₂, hserves₂, hstands⟩ := hconcludes.more he hserves hterminal hk
      obtain ⟨as, p', last, r₃, hcourse, hlast, hpasses₃, hover, hshared, n, hn, hendings⟩ :=
        ih _ (by omega) hstands hserves₂ rfl rfl
      obtain ⟨b, rest, rfl⟩ := List.exists_cons_of_ne_nil
        (fun hnil => by rw [hnil] at hlast; exact absurd hlast (by simp) : as ≠ [])
      refine ⟨a :: b :: rest, p', last, r₃, .more (hattempted l) hterminal hk hcourse, hlast, ?_,
        hover, hshared, n, ?_, ?_⟩
      · rw [Call.trace, htrace]
        exact (hpasses.trans hpasses₂).trans hpasses₃
      · rw [List.length_cons]
        omega
      · have hbuilds : builds + 1 + (b :: rest).length = builds + (a :: b :: rest).length := by
          simp only [List.length_cons]
          omega
        rw [hendings, hbuilds]

end CallTask

/-! ## Calls from their first turn on -/

/-- The call that is made with a context and a builder. -/
def Pipeline.call (p : Pipeline) (context : Context) (build : Nat → Except Error Request) :
    Call where
  context
  budget := context.retryBudget?.getD p.budget
  build
  authenticated := p.provider.isSome

namespace CallerTask

/-- The first turn of a task makes up its call. -/
theorem step_opening (g : Glance) (p : Pipeline) (script : CallScript) :
    machine.step g p (.opening script) =
      some { shared := p, state := .inl (.calling { call := p.call g.context script.build }) } :=
  rfl

/-- The rehearsal of one call. -/
def alone (p : Pipeline) (stage : Stage) (call : Call) : Run.OfCalls :=
  .join { stage, shared := p } call.context (.calling { call })

/-- **A lone call follows its rules.**  Take any limiter that is in use, any scripts that leave the
context alone and of which that of the provider always answers, any context that is never done, and
any builder that always succeeds, with bodies of one length.  The call makes attempts as the rules
have it, each of which goes as the scripts have it.  Only the last one may be terminal, and unless
it is, the call has made as many as its budget allows, which is at least one.  The rehearsal comes
to its end; the result is the one for the last outcome, given when the last attempt ended, and all
that the call has done on the way, and when, is what the rules ask for. -/
theorem lone_call_follows_rules {p : Pipeline} {stage : Stage} {context : Context}
    {build : Nat → Except Error Request} {size : Nat} (hlimiter : p.limiter.InUse)
    (hplain : p.Plain) (hcontext : ∀ now, context.status stage.forest now = none)
    (hbuild : ∀ n, ∃ request, build n = .ok request ∧ request.body.length = size) :
    ∃ attempts last p' enough,
      (p.call context build).Course 1 stage.now p attempts p' ∧
      attempts.getLast? = some last ∧
      (∀ a ∈ attempts.dropLast, Call.isTerminal a.outcome = false) ∧
      attempts.length ≤ max 1 (p.call context build).budget.maxAttempts ∧
      (Call.isTerminal last.outcome ∨
        attempts.length = max 1 (p.call context build).budget.maxAttempts) ∧
      ∀ fuel, enough ≤ fuel →
        ((alone p stage (p.call context build)).settle machine fuel).shared = p' ∧
        ((alone p stage (p.call context build)).settle machine fuel).endings =
          [⟨0, ⟨Call.result attempts.length last.outcome, attempts.length⟩, last.ended, context⟩] ∧
        Run.story machine told fuel (alone p stage (p.call context build)) =
          (p.call context build).trace
            (p.limiter.kind context.serviceClass context.options.sliding) 1 attempts := by
  have hserves : p.Serves (p.call context build)
      (p.limiter.kind context.serviceClass context.options.sliding) :=
    ⟨hplain, rfl, hlimiter.sound, rfl⟩
  have hstands : CallTask.Stands (p.call context build) stage.forest
      (alone p stage (p.call context build)) stage.now p (.building 1 none) .nothing 0 :=
    Run.alone_join stage p context _
  obtain ⟨attempts, p', last, r', hcourse, hlast, hpasses, hover, hshared, n, hn, hendings⟩ :=
    hstands.course hcontext hserves hbuild rfl
  obtain ⟨last', hlast', hdrop, hle, hend⟩ := hcourse.count
  obtain rfl := Option.some_inj.1 (hlast.symm.trans hlast')
  obtain ⟨enough, henough⟩ := hpasses.settle hover
  refine ⟨attempts, last, p', enough, hcourse, hlast, hdrop, hle, hend, fun fuel hfuel => ?_⟩
  obtain ⟨hsettle, hstory⟩ := henough fuel hfuel
  obtain rfl : n = attempts.length := by omega
  rw [hsettle]
  refine ⟨hshared, ?_, hstory⟩
  rw [hendings, Nat.zero_add]
  rfl

/-- A service that is unavailable at first, then hangs, then asks for a pause of five seconds, and
answers from then on.  It wants credentials, and its provider always has one. -/
def unreliable : Pipeline where
  limiter := .new .builtin 0
  budget := .standard
  wire := [
    { answer := .ok { status := 503 } },
    { hangs := true, answer := .ok { status := 200 } },
    { answer := .ok { status := 429, headers := [("Retry-After", "5")] } }]
  provider := some []

/-- A request for the same items, whichever attempt it is for. -/
def askForItems (_ : Nat) : Except Error Request :=
  .ok { method := .get, url := "https://host/items" }

/-- A call to the service makes at most four attempts.  The second one lasts an hour and is followed
by the second backoff, of six seconds; the fourth one succeeds. -/
theorem lone_call_follows_rules_unreliable :
    unreliable.limiter.InUse ∧ unreliable.Plain ∧
    (∃ (attempts : List Call.Attempt) (last : Call.Attempt) (p' : Pipeline) (enough : Nat),
      (unreliable.call { token := 0 } askForItems).Course 1 0 unreliable attempts p' ∧
      attempts.getLast? = some last ∧ attempts.length ≤ 4 ∧
      ∀ fuel, enough ≤ fuel →
        ((alone unreliable {} (unreliable.call { token := 0 } askForItems)).settle machine
            fuel).endings =
          [⟨0, ⟨Call.result attempts.length last.outcome, attempts.length⟩, last.ended,
            { token := 0 }⟩]) ∧
    ((alone unreliable {} (unreliable.call { token := 0 } askForItems)).settle machine
      60).endings.map
        (fun e => (e.result.result.toOption.map (·.status), e.result.builds, e.finish))
      = [(some 200, 4, Nanos.ofSeconds (3600 + 6 + 5))] := by
  have hlimiter : unreliable.limiter.InUse := .new (fun c => by cases c <;> decide) 0
  have hplain : unreliable.Plain := by
    refine ⟨by simp [unreliable], fun cues h => ?_⟩
    obtain rfl := Option.some_inj.1 h
    simp
  refine ⟨hlimiter, hplain, ?_, by decide +kernel⟩
  obtain ⟨attempts, last, p', enough, hcourse, hlast, -, hlength, -, hends⟩ :=
    @lone_call_follows_rules unreliable {} { token := 0 } askForItems 0 hlimiter hplain
      (fun _ => rfl) (fun _ => ⟨_, rfl, rfl⟩)
  exact ⟨attempts, last, p', enough, hcourse, hlast, hlength,
    fun fuel hfuel => (hends fuel hfuel).2.1⟩

end CallerTask

end DriveDelta
