import DriveDelta.Proofs.Calls.Reference

/-!
# Where a lone call stands

A call that is rehearsed alone, with a context that is never done, goes from one phase to the next
and waits in between.  This file says what each of these steps makes of the rehearsal, whatever the
phase is.

## What is here

* `CallerTask.told`, what a call does in a turn of a rehearsal;
* `CallTask.Stands`, where a lone call stands, with `CallTask.Stands.step`,
  `CallTask.Stands.finish`, `CallTask.Stands.wait` and `CallTask.Stands.await`;
* `CallTask.Scene.after`, the scene after a step, and what it is after one that begins nothing.
-/

set_option autoImplicit false

namespace DriveDelta

/-- Rehearsals of calls. -/
abbrev Run.OfCalls := Run Pipeline CallerTask CallTask.Result

namespace Call

variable {α : Type}

def Effect.isAdmissionEvent : Effect α → Bool
  | .admissionEvent _ => true
  | _ => false

/-- The effects that are told, with their time: all but what a limiter leaves in the log. -/
def stamped (now : Nat) (effects : List (Effect α)) : List (Nat × Effect α) :=
  (effects.filter (!·.isAdmissionEvent)).map (now, ·)

theorem stamped_callEvents (now : Nat) (events : List CallEvent) :
    stamped now (events.map (.callEvent : CallEvent → Effect α)) =
      events.map (now, .callEvent ·) := by
  induction events with
  | nil => rfl
  | cons e events ih => exact congrArg (_ :: ·) ih

theorem stamped_admissionEvents (now : Nat) (events : List (AdmissionEvent α)) :
    stamped now (events.map .admissionEvent) = [] := by
  induction events with
  | nil => rfl
  | cons e events ih => exact ih

theorem stamped_append (now : Nat) (es es' : List (Effect α)) :
    stamped now (es ++ es') = stamped now es ++ stamped now es' := by
  simp only [stamped, List.filter_append, List.map_append]

end Call

namespace CallTask

/-- What a call hears when it gets its turn. -/
def heard (t : CallTask) (now : Nat) (status : Option CancelReason) : Call.Incoming :=
  if t.awaited.isGiven now then t.awaited.incoming status else .nothing

end CallTask

/-- What the task that has the turn does in it, and when. -/
def CallerTask.told (r : Run.OfCalls) : List (Nat × Call.Effect Double) :=
  match r.turn with
  | some (.active _ context (.calling t)) =>
    let status := r.stage.status context
    Call.stamped r.stage.now <| ((t.call.step r.shared.limiter r.stage.now status
      (t.heard r.stage.now status) t.phase).map (·.effects)).getD []
  | _ => []

namespace CallTask

/-- A rehearsal gets from one state to another, and this is what calls do on the way. -/
abbrev Goes (r : Run.OfCalls) (told : List (Nat × Call.Effect Double)) (r' : Run.OfCalls) : Prop :=
  Run.Passes CallerTask.machine CallerTask.told r told r'

/-! ## Effects -/

section Scenes

variable {now : Nat} {c : ServiceClass} {s s' : Scene}

/-- Two scenes that differ in their logs only. -/
structure Scene.Same (s s' : Scene) : Prop where
  pipeline_eq : s'.pipeline = s.pipeline
  awaited_eq : s'.awaited = s.awaited
  builds_eq : s'.builds = s.builds

theorem Scene.Same.perform_quiet {e : Call.Effect Double} (h : e.begins = false)
    (hs : s.Same s') : s.Same (s'.perform now c e) := by
  cases e with
  | built | askedCredential | charged | sent => exact absurd h (by simp [Call.Effect.begins])
  | fed | admissionEvent | callEvent => exact ⟨hs.pipeline_eq, hs.awaited_eq, hs.builds_eq⟩

/-- Effects that begin nothing leave a scene as it is. -/
theorem Scene.same_of_quiet (now : Nat) (c : ServiceClass) (s : Scene)
    {effects : List (Call.Effect Double)} (h : Call.Quiet effects) :
    s.Same (effects.foldl (Scene.perform now c) s) := by
  suffices hs : ∀ s', s.Same s' → s.Same (effects.foldl (Scene.perform now c) s') from
    hs s ⟨rfl, rfl, rfl⟩
  intro s' hs
  induction effects generalizing s' with
  | nil => exact hs
  | cons e effects ih =>
    exact ih (fun e' he' => h e' (List.mem_cons_of_mem _ he')) _
      (hs.perform_quiet (h e List.mem_cons_self))

end Scenes

/-- The scene in which a step of a call is carried out. -/
def opening (p : Pipeline) (builds : Nat) (l : Limiter Double) : Scene :=
  { pipeline := { p with limiter := l }, awaited := .nothing, builds, log := [] }

/-- The scene after a step of a call. -/
def Scene.after (call : Call) (now : Nat) (p : Pipeline) (builds : Nat) (s : Call.Step Double) :
    Scene :=
  s.effects.foldl (Scene.perform now call.context.serviceClass) (opening p builds s.limiter)

/-- After a step that begins nothing only the limiter may have changed. -/
theorem Scene.after_of_quiet (call : Call) (now : Nat) (p : Pipeline) (builds : Nat)
    (s : Call.Step Double) (h : Call.Quiet s.effects) :
    (Scene.after call now p builds s).pipeline = { p with limiter := s.limiter } ∧
      (Scene.after call now p builds s).awaited = .nothing ∧
      (Scene.after call now p builds s).builds = builds := by
  have hs := Scene.same_of_quiet now call.context.serviceClass (opening p builds s.limiter) h
  exact ⟨hs.pipeline_eq, hs.awaited_eq, hs.builds_eq⟩

/-! ## A lone call -/

/-- A call that is alone, and where it stands. -/
def Stands (call : Call) (forest : Forest) (r : Run.OfCalls) (now : Nat) (p : Pipeline)
    (phase : Call.Phase) (awaited : Awaited) (builds : Nat) : Prop :=
  r.Alone 0 call.context forest now p (.calling { call, phase, awaited, builds })

/-- The context of the call is never done. -/
def Endless (call : Call) (forest : Forest) : Prop :=
  ∀ now, call.context.status forest now = none

variable {call : Call} {forest : Forest} {r : Run.OfCalls} {now builds : Nat} {p : Pipeline}
  {phase : Call.Phase} {awaited : Awaited}

theorem Endless.deadline_eq (h : Endless call forest) : call.context.deadline = none :=
  Context.Endless.deadline_eq h

/-- What a call hears that is not cancelled. -/
theorem heard_eq (hquiet : awaited.cancels = false) :
    ({ call, phase, awaited, builds } : CallTask).heard now none =
      if awaited.isGiven now then
        match awaited with
        | .nothing => .nothing
        | .credential q => .credential q.answer none
        | .response q => .response q.answer none
      else .nothing := by
  rw [heard]
  simp only [Awaited.incoming, hquiet]
  cases awaited <;> rfl

/-- The next step of a call that stands somewhere. -/
def nextStep (call : Call) (now : Nat) (p : Pipeline) (phase : Call.Phase) (awaited : Awaited)
    (builds : Nat) : Option (Call.Step Double) :=
  call.step p.limiter now none (({ call, phase, awaited, builds } : CallTask).heard now none) phase

/-- What a step makes of the task: with the last one it has ended. -/
def onward (call : Call) (scene : Scene) : Call.Phase → CallTask ⊕ Result
  | .finished result => .inr ⟨result, scene.builds⟩
  | phase => .inl { call, phase, awaited := scene.awaited, builds := scene.builds }

theorem onward_of_not_finished {scene : Scene} (h : ∀ result, phase ≠ .finished result) :
    onward call scene phase =
      .inl { call, phase, awaited := scene.awaited, builds := scene.builds } := by
  cases phase with
  | finished result => exact absurd rfl (h result)
  | _ => rfl

theorem machine_step (now : Nat) (p : Pipeline) (phase : Call.Phase) (builds : Nat)
    (he : Endless call forest) (hquiet : awaited.cancels = false) :
    CallerTask.machine.step (Run.glance 0 call.context forest now) p
        (.calling { call, phase, awaited, builds }) =
      (nextStep call now p phase awaited builds).map fun s =>
        { shared := (Scene.after call now p builds s).pipeline
          state := (onward call (Scene.after call now p builds s) s.phase).map .calling id
          log := (Scene.after call now p builds s).log } := by
  have hstatus : (Run.glance 0 call.context forest now).status = none := he now
  have hnow : (Run.glance 0 call.context forest now).now = now := rfl
  have hstep : CallTask.step (Run.glance 0 call.context forest now) p
      { call, phase, awaited, builds } =
      (nextStep call now p phase awaited builds).map fun s =>
        { shared := (Scene.after call now p builds s).pipeline
          state := onward call (Scene.after call now p builds s) s.phase
          log := (Scene.after call now p builds s).log } := by
    rw [CallTask.step, hstatus, hnow, nextStep, heard]
    simp only [hquiet, Bool.and_false]
    rfl
  simp only [CallerTask.machine, hstep, Option.map_map]
  rfl

/-- What is told of a call that has its turn. -/
theorem Stands.told_eq (h : Stands call forest r now p phase awaited builds)
    (he : Endless call forest) :
    CallerTask.told r = Call.stamped now
      (((nextStep call now p phase awaited builds).map (·.effects)).getD []) := by
  have hstatus : Stage.status { now, forest } call.context = none := he now
  rw [CallerTask.told, h.turn_eq, h.stage_eq, h.shared_eq]
  simp only [hstatus]
  rfl

/-- A step of the call, after which it still has its turn. -/
theorem Stands.step {s : Call.Step Double} (h : Stands call forest r now p phase awaited builds)
    (he : Endless call forest) (hquiet : awaited.cancels = false)
    (hs : nextStep call now p phase awaited builds = some s)
    (hnf : ∀ result, s.phase ≠ .finished result) :
    ∃ r', Goes r (Call.stamped now s.effects) r' ∧
      Stands call forest r' now (Scene.after call now p builds s).pipeline s.phase
        (Scene.after call now p builds s).awaited (Scene.after call now p builds s).builds := by
  have hm := machine_step now p phase builds he hquiet
  rw [hs, Option.map_some] at hm
  obtain ⟨r', hr', hstands⟩ := Run.Alone.step h hm rfl (by
    rw [onward_of_not_finished hnf]
    rfl)
  refine ⟨r', ?_, hstands⟩
  have htold := h.told_eq he
  rw [hs] at htold
  exact htold ▸ .single hr'

/-- The last step of the call. -/
theorem Stands.finish {s : Call.Step Double} {result : Except Error Response}
    (h : Stands call forest r now p phase awaited builds) (he : Endless call forest)
    (hquiet : awaited.cancels = false) (hs : nextStep call now p phase awaited builds = some s)
    (hf : s.phase = .finished result) :
    ∃ r', Goes r (Call.stamped now s.effects) r' ∧
      r'.advance CallerTask.machine = none ∧
      r'.shared = (Scene.after call now p builds s).pipeline ∧
      r'.endings =
        [⟨0, ⟨result, (Scene.after call now p builds s).builds⟩, now, call.context⟩] := by
  have hm := machine_step now p phase builds he hquiet
  rw [hs, Option.map_some] at hm
  obtain ⟨r', hr', hrest⟩ := Run.Alone.finish h hm rfl (by rw [hf]; rfl)
  refine ⟨r', ?_, hrest⟩
  have htold := h.told_eq he
  rw [hs] at htold
  exact htold ▸ .single hr'

/-- The call waits until the first of the times that it waits for has come. -/
theorem Stands.wait {t : Nat} (h : Stands call forest r now p phase awaited builds)
    (he : Endless call forest) (hquiet : awaited.cancels = false)
    (hnone : nextStep call now p phase awaited builds = none)
    (ht : (((alarms { call, phase, awaited, builds }).map Nanos.tick).filter (now < ·)).min?
      = some t)
    (hgo : (nextStep call t p phase awaited builds).isSome) :
    ∃ r', Goes r [] r' ∧
      Stands call forest r' t p phase awaited builds := by
  have hm (now' : Nat) := machine_step now' p phase builds he hquiet
  have hblocked : CallerTask.machine.step (Run.glance 0 call.context forest now) p
      (.calling { call, phase, awaited, builds }) = none := by rw [hm, hnone]; rfl
  obtain ⟨r₁, r₂, hr₁, hidle, hr₂, hstands⟩ := Run.Alone.wait h hblocked he.deadline_eq ht
    (by rw [hm, Option.isSome_map]; exact hgo) (by
      intro q hq
      rw [hm, Option.map_eq_some_iff] at hq
      obtain ⟨_, -, rfl⟩ := hq
      rfl)
  refine ⟨r₂, ?_, hstands⟩
  have htold : CallerTask.told r = [] := by rw [h.told_eq he, hnone]; rfl
  have htold₁ : CallerTask.told r₁ = [] := by rw [CallerTask.told, hidle]
  have hpasses : Goes r (CallerTask.told r ++ CallerTask.told r₁) r₂ :=
    (Run.Passes.single hr₁).trans (.single hr₂)
  rwa [htold, htold₁] at hpasses

/-- The call waits for a point in time that may have come already. -/
theorem Stands.await {t : Nat} (h : Stands call forest r now p phase awaited builds)
    (he : Endless call forest) (hquiet : awaited.cancels = false)
    (hmin : now < t → (((alarms { call, phase, awaited, builds }).map Nanos.tick).filter
      (now < ·)).min? = some (Nanos.tick t))
    (hnone : now < t → nextStep call now p phase awaited builds = none)
    (hgo : ∀ t', t ≤ t' → (nextStep call t' p phase awaited builds).isSome) :
    ∃ r', Goes r [] r' ∧
      Stands call forest r' (Nanos.seen now t) p phase awaited builds := by
  by_cases hle : t ≤ now
  · rw [Nanos.seen_of_le hle]
    exact ⟨r, .refl r, h⟩
  · have hlt : now < t := Nat.lt_of_not_le hle
    rw [Nanos.seen, if_neg hle]
    exact h.wait he hquiet (hnone hlt) (hmin hlt) (hgo _ (Nanos.le_tick t))

end CallTask

end DriveDelta
