import DriveDelta.Rehearsal.Run

/-!
# Rehearsals of one task

When a rehearsal has a single task, that task keeps its turn until it has to wait, and then the
clock jumps to the time that it waits for.  Nothing else happens in between, so the rehearsal is the
run of the task, with the times at which it goes on.

## What is here

* `Nanos.seen`, when somebody who waits for a point in time goes on, and `Nanos.min?_alarm`, which
  time the clock jumps to;
* `Context.Endless`, which says that a context is never done;
* `Run.story`, what is told by the states that a rehearsal goes through, and `Run.Passes`, which
  says that a rehearsal gets from one state to another and what is told on the way;
* `Run.Alone`, a single task that has its turn, with `Run.Alone.step`, `Run.Alone.finish` and
  `Run.Alone.wait`.
-/

set_option autoImplicit false

namespace DriveDelta

/-! ## Waiting -/

namespace Nanos

/-- When somebody who waits for a point in time goes on: at once if it has come, and else at the
first whole millisecond that is not before it. -/
def seen (now t : Nat) : Nat := if t ≤ now then now else tick t

theorem le_seen (now t : Nat) : t ≤ seen now t := by
  rw [seen]
  split
  · assumption
  · exact le_tick t

theorem seen_of_le {now t : Nat} (h : t ≤ now) : seen now t = now := if_pos h

theorem tick_mono {t t' : Nat} (h : t ≤ t') : tick t ≤ tick t' :=
  Nat.mul_le_mul_right _ (Nat.div_le_div_right (Nat.add_le_add_right h _))

theorem tick_tick (t : Nat) : tick (tick t) = tick t := by
  have hle := le_tick (tick t)
  have hlt := tick_lt (tick t)
  simp only [tick, milli] at *
  omega

theorem tick_min (t t' : Nat) : tick (min t t') = min (tick t) (tick t') := by
  rcases Nat.le_total t t' with h | h
  · rw [Nat.min_eq_left h, Nat.min_eq_left (tick_mono h)]
  · rw [Nat.min_eq_right h, Nat.min_eq_right (tick_mono h)]

section Alarms

variable {now : Nat}

theorem min?_later {t : Nat} (h : now < t) : ([t].filter (now < ·)).min? = some t := by simp [h]

theorem min?_later_two {t t' : Nat} (h : now < t) (h' : now < t') :
    ([t, t'].filter (now < ·)).min? = some (min t t') := by simp [h, h', List.min?_cons]

theorem min?_alarm {t : Nat} (h : now < t) :
    (([t].map tick).filter (now < ·)).min? = some (tick t) :=
  min?_later (Nat.lt_of_lt_of_le h (le_tick t))

theorem min?_alarms {t t' : Nat} (h : now < t) (h' : now < t') :
    (([t, t'].map tick).filter (now < ·)).min? = some (tick (min t t')) :=
  (tick_min t t').symm ▸ min?_later_two (Nat.lt_of_lt_of_le h (le_tick t))
    (Nat.lt_of_lt_of_le h' (le_tick t'))

end Alarms

end Nanos

/-- The context is never done. -/
def Context.Endless (x : Context) (forest : Forest) : Prop := ∀ now, x.status forest now = none

theorem Context.Endless.deadline_eq {x : Context} {forest : Forest} (h : x.Endless forest) :
    x.deadline = none := by
  cases hd : x.deadline with
  | none => rfl
  | some d =>
    have hdone := h d
    rw [status] at hdone
    split at hdone
    · exact absurd hdone (by simp)
    · simp [hd] at hdone

namespace Run

variable {σ τ ρ ε : Type} {m : Machine σ τ ρ} {look : Run σ τ ρ → List ε} {r r' r'' : Run σ τ ρ}

/-! ## Stories -/

/-- What is told by the states that a rehearsal goes through in up to `fuel` steps. -/
def story (m : Machine σ τ ρ) (look : Run σ τ ρ → List ε) : Nat → Run σ τ ρ → List ε
  | 0, _ => []
  | fuel + 1, r =>
    match r.advance m with
    | some r' => look r ++ story m look fuel r'
    | none => []

/-- A rehearsal gets from one state to another, and this is told on the way. -/
inductive Passes (m : Machine σ τ ρ) (look : Run σ τ ρ → List ε) :
    Run σ τ ρ → List ε → Run σ τ ρ → Prop where
  | refl (r : Run σ τ ρ) : Passes m look r [] r
  | head {r r' r'' : Run σ τ ρ} {told : List ε} (h : r.advance m = some r')
      (t : Passes m look r' told r'') : Passes m look r (look r ++ told) r''

theorem Passes.trans {told told' : List ε} (h : Passes m look r told r')
    (h' : Passes m look r' told' r'') : Passes m look r (told ++ told') r'' := by
  induction h with
  | refl => exact h'
  | head hs _ ih =>
    rw [List.append_assoc]
    exact .head hs (ih h')

theorem Passes.single (h : r.advance m = some r') : Passes m look r (look r) r' := by
  simpa using Passes.head h (.refl r')

/-- Where a rehearsal comes to rest it stays, however many more steps it may take. -/
theorem Passes.settle {told : List ε} (h : Passes m look r told r') (hend : r'.advance m = none) :
    ∃ n, ∀ fuel, n ≤ fuel → r.settle m fuel = r' ∧ story m look fuel r = told := by
  induction h with
  | refl r =>
    refine ⟨0, fun fuel _ => ?_⟩
    cases fuel with
    | zero => exact ⟨rfl, rfl⟩
    | succ fuel => simp [Run.settle, story, hend]
  | head hs _ ih =>
    obtain ⟨n, hn⟩ := ih hend
    refine ⟨n + 1, fun fuel hfuel => ?_⟩
    obtain ⟨fuel, rfl⟩ : ∃ k, fuel = k + 1 := ⟨fuel - 1, by omega⟩
    obtain ⟨hsettle, hstory⟩ := hn fuel (by omega)
    simp only [Run.settle, story, hs, hsettle, hstory]
    exact ⟨trivial, trivial⟩

/-! ## One task -/

/-- A rehearsal with a single task, which leads and has its turn. -/
structure Alone (r : Run σ τ ρ) (me : Nat) (context : Context) (forest : Forest) (now : Nat)
    (shared : σ) (body : τ) : Prop where
  turn_eq : r.turn = some (.active me context body)
  leader_eq : r.leader = some me
  ready_eq : r.ready = []
  line_eq : r.line = []
  stage_eq : r.stage = { now, forest }
  shared_eq : r.shared = shared
  endings_eq : r.endings = []

variable {me : Nat} {context : Context} {forest : Forest} {now : Nat} {shared : σ} {body : τ}

theorem alone_join (stage : Stage) (shared : σ) (context : Context) (body : τ) :
    Alone (Run.join { stage, shared } context body : Run σ τ ρ) 0 context stage.forest stage.now
      shared body :=
  ⟨rfl, rfl, rfl, rfl, rfl, rfl, rfl⟩

/-- What a task sees when it gets its turn. -/
def glance (me : Nat) (context : Context) (forest : Forest) (now : Nat) : Glance :=
  ⟨me, now, context, context.status forest now⟩

/-- The turn of a task is a step of its machine. -/
theorem play_task {r : Run σ τ ρ} (hstage : r.stage = { now, forest })
    (hshared : r.shared = shared)
    (hc : ∀ p, m.step (glance me context forest now) shared body = some p → p.cancels = false) :
    r.play m (.active me context body) =
      (m.step (glance me context forest now) shared body).map fun p =>
        { r with
          shared := p.shared
          log := r.log ++ p.log.map (now, ·)
          turn := p.state.elim (fun body => some (.active me context body)) fun _ => none
          endings := r.endings ++
            p.state.elim (fun _ => []) fun result => [⟨me, result, now, context⟩] } := by
  have hglance : (⟨me, r.stage.now, context, r.stage.status context⟩ : Glance)
      = glance me context forest now := by rw [hstage]; rfl
  rw [play, hglance, hshared]
  cases hp : m.step (glance me context forest now) shared body with
  | none => rfl
  | some p => cases hs : p.state <;> simp [hs, hc p hp, hstage]

theorem advance_of_turn {x : Member τ} (h : r.turn = some x) :
    r.advance m = some ((r.play m x).getD { r with turn := none, line := r.line ++ [x] }) := by
  simp only [advance, h]

/-- A step of the task makes this of the rehearsal. -/
theorem Alone.advance_eq {p : Progress σ τ ρ} (h : Alone r me context forest now shared body)
    (hp : m.step (glance me context forest now) shared body = some p) (hc : p.cancels = false) :
    r.advance m = some { r with
      shared := p.shared
      log := r.log ++ p.log.map (now, ·)
      turn := p.state.elim (fun body => some (.active me context body)) fun _ => none
      endings := p.state.elim (fun _ => []) fun result => [⟨me, result, now, context⟩] } := by
  have hcancels (q : Progress σ τ ρ)
      (hq : m.step (glance me context forest now) shared body = some q) : q.cancels = false := by
    rw [← Option.some_inj.1 (hp.symm.trans hq), hc]
  rw [advance_of_turn h.turn_eq, play_task h.stage_eq h.shared_eq hcancels, hp, h.endings_eq]
  rfl

/-- The task keeps its turn as long as it can go on. -/
theorem Alone.step {p : Progress σ τ ρ} {body' : τ} (h : Alone r me context forest now shared body)
    (hp : m.step (glance me context forest now) shared body = some p) (hc : p.cancels = false)
    (hs : p.state = .inl body') :
    ∃ r', r.advance m = some r' ∧ Alone r' me context forest now p.shared body' :=
  ⟨_, h.advance_eq hp hc, by simp [hs], h.leader_eq, h.ready_eq, h.line_eq, h.stage_eq, rfl,
    by simp [hs]⟩

/-- With the end of the task the rehearsal is over. -/
theorem Alone.finish {p : Progress σ τ ρ} {result : ρ}
    (h : Alone r me context forest now shared body)
    (hp : m.step (glance me context forest now) shared body = some p) (hc : p.cancels = false)
    (hs : p.state = .inr result) :
    ∃ r', r.advance m = some r' ∧ r'.advance m = none ∧ r'.shared = p.shared ∧
      r'.endings = [⟨me, result, now, context⟩] := by
  refine ⟨_, h.advance_eq hp hc, ?_, rfl, by simp [hs]⟩
  simp [advance, hs, isOver, h.ready_eq, h.line_eq]

/-! ### Waiting -/

section Line

variable {x : Member τ}

/-- A leader that waits alone does not step out of the line by itself. -/
theorem gather_of_led (hline : r.line = [x]) (hled : r.isLed x = true) : r.gather m = r := by
  have hself : ({ r with line := [x] } : Run σ τ ρ) = r := by rw [← hline]
  simpa [gather, hline, hled] using hself

theorem callLeader_of_led (hline : r.line = [x]) (hled : r.isLed x = true) :
    r.callLeader m = if r.isAble m x then some { r with turn := some x, line := [] } else none := by
  simp [callLeader, hline, hled]

end Line

/-- A task that has to wait goes on when the first time that it waits for has come. -/
theorem Alone.wait {t : Nat} (h : Alone r me context forest now shared body)
    (hnone : m.step (glance me context forest now) shared body = none)
    (hdeadline : context.deadline = none)
    (ht : (((m.alarms body).map Nanos.tick).filter (now < ·)).min? = some t)
    (hgo : (m.step (glance me context forest t) shared body).isSome)
    (hc : ∀ p, m.step (glance me context forest t) shared body = some p → p.cancels = false) :
    ∃ r₁ r₂, r.advance m = some r₁ ∧ r₁.turn = none ∧ r₁.advance m = some r₂ ∧
      Alone r₂ me context forest t shared body := by
  have hblocked (p : Progress σ τ ρ)
      (hp : m.step (glance me context forest now) shared body = some p) : p.cancels = false :=
    absurd (hnone.symm.trans hp) (by simp)
  -- it stands in the line, and is not able to go on
  let r₁ : Run σ τ ρ := { r with turn := none, line := [.active me context body] }
  have hled : r₁.isLed (.active me context body) = true := by
    simp [r₁, isLed, Member.number?, h.leader_eq]
  have hfirst : r.advance m = some r₁ := by
    rw [advance_of_turn h.turn_eq, play_task h.stage_eq h.shared_eq hblocked, hnone, h.line_eq]
    rfl
  have hunable : r₁.isAble m (.active me context body) = false := by
    rw [isAble, play_task (r := r₁) h.stage_eq h.shared_eq hblocked, hnone]
    rfl
  -- the clock jumps, and then it is
  let r₂ : Run σ τ ρ := { r₁ with stage := r₁.stage.moveTo t }
  have hstage : r₂.stage = { now := t, forest } := by
    simp [r₂, r₁, h.stage_eq, Stage.moveTo]
  have hable : r₂.isAble m (.active me context body) = true := by
    rw [isAble, play_task hstage h.shared_eq hc, Option.isSome_map]
    exact hgo
  have hjump : r₁.jump m = some { r₂ with turn := some (.active me context body), line := [] } := by
    have hnext : r₁.nextTime m = some t := by
      simpa [nextTime, r₁, Member.alarms, hdeadline, h.stage_eq] using ht
    rw [jump, hnext, Option.map_some]
    show some (((r₂.gather m).callLeader m).getD (r₂.gather m)) = _
    rw [gather_of_led (r := r₂) rfl hled, callLeader_of_led (r := r₂) rfl hled, if_pos hable]
    rfl
  refine ⟨r₁, { r₂ with turn := some (.active me context body), line := [] }, hfirst, rfl, ?_,
    rfl, h.leader_eq, h.ready_eq, rfl, hstage, h.shared_eq, h.endings_eq⟩
  have hover : r₁.isOver = false := by simp [r₁, isOver, Member.isTask]
  have hnobody : r₁.ready = [] := h.ready_eq
  have hleader : r₁.callLeader m = none := by
    rw [callLeader_of_led (r := r₁) rfl hled, hunable]
    rfl
  rw [advance.eq_def]
  simp only [show r₁.turn = none from rfl, hover, gather_of_led (r := r₁) (m := m) rfl hled,
    hnobody, hleader, hjump]
  rfl

end Run

end DriveDelta
