import DriveDelta.Proofs.Rehearsal.Moves

/-!
# Substitutes

A task of a rehearsal may be replaced by another one with the same context.  As long as the two wait
for the same, and leave the same behind when they go on, nobody else can tell which of them takes
part: the two rehearsals stay in lockstep, and every other task ends alike and at the same time.

## What is here

* `Machine.sum`, the tasks of two machines in one rehearsal;
* `Machine.Alike`, two bodies that wait for the same, and `Member.recast`, which replaces a body;
* `Run.Stands`, a rehearsal beside the one with a substitute, with `Run.Stands.advance` for the
  steps of others and `Run.Stands.went` for those of the task itself;
* `Run.Unnoticed`, what the others see alike, and `Run.said`, what they tell in the log alike;
* `Run.Gone`, after which the two rehearsals stay in lockstep for good (`Run.Stands.settle`).
-/

set_option autoImplicit false

namespace DriveDelta

/-! ## Two kinds of tasks -/

/-- The progress of a task that is one of several kinds. -/
def Progress.map {σ τ ρ τ' ρ' : Type} (f : τ → τ') (g : ρ → ρ') (p : Progress σ τ ρ) :
    Progress σ τ' ρ' where
  shared := p.shared
  state := p.state.map f g
  cancels := p.cancels
  log := p.log

/-- The tasks of two machines, which share a state. -/
def Machine.sum {σ τ ρ τ' ρ' : Type} (m : Machine σ τ ρ) (m' : Machine σ τ' ρ') :
    Machine σ (τ ⊕ τ') (ρ ⊕ ρ') where
  step g s
    | .inl t => (m.step g s t).map (·.map .inl .inl)
    | .inr t => (m'.step g s t).map (·.map .inr .inr)
  alarms
    | .inl t => m.alarms t
    | .inr t => m'.alarms t

theorem Machine.Keeps.sum {σ τ ρ τ' ρ' : Type} {m : Machine σ τ ρ} {m' : Machine σ τ' ρ'}
    {I : σ → Prop} (h : m.Keeps I) (h' : m'.Keeps I) : (m.sum m').Keeps I := by
  intro g s a p hstep hs
  cases a with
  | inl t =>
    obtain ⟨q, hq, rfl⟩ := Option.map_eq_some_iff.1 hstep
    exact h g s t q hq hs
  | inr t =>
    obtain ⟨q, hq, rfl⟩ := Option.map_eq_some_iff.1 hstep
    exact h' g s t q hq hs

/-! ## Another body for one task -/

namespace Member

variable {σ τ ρ : Type}

/-- The same member, with another body if it is the task of this number. -/
def recast (i : Nat) (b : τ) : Member τ → Member τ
  | later me start recipe body => later me start recipe (if me = i then b else body)
  | active me context body => active me context (if me = i then b else body)
  | cancelAfter token span => cancelAfter token span
  | cancelAt token due => cancelAt token due

variable {i : Nat} {b : τ} {x : Member τ}

@[simp] theorem taskNumber?_recast (i : Nat) (b : τ) (x : Member τ) :
    (x.recast i b).taskNumber? = x.taskNumber? := by
  cases x <;> rfl

@[simp] theorem isTask_recast (i : Nat) (b : τ) (x : Member τ) :
    (x.recast i b).isTask = x.isTask := by
  cases x <;> rfl

@[simp] theorem number?_recast (i : Nat) (b : τ) (x : Member τ) :
    (x.recast i b).number? = x.number? := by
  cases x <;> rfl

@[simp] theorem isToStart_recast (i : Nat) (b : τ) (x : Member τ) :
    (x.recast i b).isToStart = x.isToStart := by
  cases x <;> rfl

theorem recast_of_ne (h : x.taskNumber? ≠ some i) (b : τ) : x.recast i b = x := by
  cases x <;> simp_all [recast, taskNumber?]

end Member

/-- Two bodies that wait for the same. -/
structure Machine.Alike {σ τ ρ : Type} (m : Machine σ τ ρ) (a b : τ) : Prop where
  isSome_step : ∀ g s, (m.step g s b).isSome = (m.step g s a).isSome
  alarms_eq : m.alarms b = m.alarms a

/-- If this is the task of a number, its body waits for the same as another one. -/
def Member.Suits {σ τ ρ : Type} (m : Machine σ τ ρ) (i : Nat) (b : τ) (x : Member τ) : Prop :=
  x.taskNumber? = some i → ∀ a, x.body? = some a → m.Alike a b

namespace Member.Suits

variable {σ τ ρ : Type} {m : Machine σ τ ρ} {i : Nat} {b : τ} {x : Member τ}

theorem of_ne (h : x.taskNumber? ≠ some i) : x.Suits m i b := fun hi => absurd hi h

theorem isAble_recast (h : x.Suits m i b) (r : Run σ τ ρ) :
    r.isAble m (x.recast i b) = r.isAble m x := by
  by_cases hi : x.taskNumber? = some i
  · cases x with
    | later => rw [recast, Run.isAble_later, Run.isAble_later]
    | active me context body =>
      rw [recast, if_pos (Option.some_inj.1 hi), Run.isAble_active, Run.isAble_active]
      exact (h hi body rfl).isSome_step _ _
    | cancelAfter => rfl
    | cancelAt => rfl
  · rw [recast_of_ne hi]

theorem alarms_recast (h : x.Suits m i b) : (x.recast i b).alarms m = x.alarms m := by
  by_cases hi : x.taskNumber? = some i
  · cases x with
    | later => rfl
    | active me context body =>
      rw [recast, if_pos (Option.some_inj.1 hi)]
      exact congrArg (_ ++ ·) (h hi body rfl).alarms_eq
    | cancelAfter => rfl
    | cancelAt => rfl
  · rw [recast_of_ne hi]

end Member.Suits

namespace Run

variable {σ τ ρ : Type} {m : Machine σ τ ρ} {r r' q : Run σ τ ρ} {x y : Member τ} {i : Nat}
  {a b : τ} {context : Context} {p : Progress σ τ ρ}

/-! ## A rehearsal beside one with a substitute -/

/-- The second rehearsal is the first one with another body for one task, which may have ended. -/
structure Stands (m : Machine σ τ ρ) (i : Nat) (b : τ) (r q : Run σ τ ρ) : Prop where
  leader_eq : q.leader = r.leader
  stage_eq : q.stage = r.stage
  shared_eq : q.shared = r.shared
  turn_eq : q.turn = r.turn.map (·.recast i b)
  ready_eq : q.ready = r.ready.map (·.recast i b)
  line_eq : q.line = r.line.map (·.recast i b)
  endings_eq : q.endings.filter (·.me ≠ i) = r.endings.filter (·.me ≠ i)
  suits : ∀ x ∈ r.members, x.Suits m i b

namespace Stands

theorem members_eq (h : Stands m i b r q) : q.members = r.members.map (·.recast i b) := by
  rw [members, members, h.turn_eq, h.ready_eq, h.line_eq]
  cases r.turn <;> simp

theorem isOver_eq (h : Stands m i b r q) : q.isOver = r.isOver := by
  rw [isOver, isOver, h.turn_eq, h.ready_eq, h.line_eq]
  simp [List.any_map, Function.comp_def]

theorem isAble_eq (h : Stands m i b r q) (hx : x ∈ r.members) :
    q.isAble m (x.recast i b) = r.isAble m x := by
  rw [isAble_congr h.stage_eq h.shared_eq]
  exact (h.suits x hx).isAble_recast r

theorem isLed_eq (h : Stands m i b r q) (x : Member τ) : q.isLed (x.recast i b) = r.isLed x := by
  rw [isLed, isLed, h.leader_eq, Member.number?_recast]

/-- Those of the line who are picked are the same. -/
theorem filter_line (h : Stands m i b r q) {pick pick' : Member τ → Bool}
    (hpick : ∀ x ∈ r.line, pick' (x.recast i b) = pick x) :
    q.line.filter pick' = (r.line.filter pick).map (·.recast i b) := by
  rw [h.line_eq, List.filter_map]
  exact congrArg _ (List.filter_congr hpick)

theorem gather (h : Stands m i b r q) : Stands m i b (r.gather m) (q.gather m) := by
  have hsteps : ∀ x ∈ r.line, (q.isAble m (x.recast i b) && !q.isLed (x.recast i b)) =
      (r.isAble m x && !r.isLed x) := fun x hx => by
    rw [h.isAble_eq (List.mem_append_right _ hx), h.isLed_eq]
  have hable : (q.line.filter fun x => q.isAble m x && !q.isLed x) =
      (r.line.filter fun x => r.isAble m x && !r.isLed x).map (·.recast i b) :=
    h.filter_line hsteps
  refine { h with
    ready_eq := ?_
    line_eq := h.filter_line fun x hx => congrArg not (hsteps x hx)
    suits := fun x hx => h.suits x ((members_gather m r).mem_iff.1 hx) }
  simp only [Run.gather, h.ready_eq, hable, List.filter_map, List.map_append, Function.comp_def,
    Member.isToStart_recast]

/-- Both leaders are called, or none is. -/
theorem callLeader (h : Stands m i b r q) :
    Option.Rel (Stands m i b) (r.callLeader m) (q.callLeader m) := by
  have hfind : q.line.find? q.isLed = (r.line.find? r.isLed).map (·.recast i b) := by
    rw [h.line_eq, List.find?_map]
    exact congrArg _ (congrArg (r.line.find? ·) (funext h.isLed_eq))
  rw [Run.callLeader, Run.callLeader, hfind]
  cases hx : r.line.find? r.isLed with
  | none => exact .none
  | some x =>
    have hmem : x ∈ r.line := List.mem_of_find?_eq_some hx
    simp only [Option.map_some, Option.bind_eq_bind, Option.bind_some,
      h.isAble_eq (List.mem_append_right _ hmem)]
    cases r.isAble m x with
    | false => exact .none
    | true =>
      refine .some { h with
        turn_eq := rfl
        line_eq := h.filter_line fun y _ => congrArg not (h.isLed_eq y)
        suits := fun y hy => ?_ }
      rw [members_of_turn rfl, List.mem_cons, List.mem_append] at hy
      rcases hy with rfl | hy | hy
      · exact h.suits y (List.mem_append_right _ hmem)
      · exact h.suits y (mem_members_of_others (List.mem_append_left _ hy))
      · exact h.suits y (List.mem_append_right _ (List.mem_of_mem_filter hy))

theorem nextTime_eq (h : Stands m i b r q) : q.nextTime m = r.nextTime m := by
  have halarms : q.line.flatMap (·.alarms m) = r.line.flatMap (·.alarms m) := by
    rw [h.line_eq, List.flatMap_map, List.flatMap_def, List.flatMap_def]
    exact congrArg _ (List.map_congr_left fun x hx =>
      (h.suits x (List.mem_append_right _ hx)).alarms_recast)
  rw [nextTime, nextTime, halarms, h.stage_eq]

theorem moveTo (h : Stands m i b r q) (t : Nat) :
    Stands m i b { r with stage := r.stage.moveTo t } { q with stage := q.stage.moveTo t } :=
  { h with stage_eq := by rw [h.stage_eq] }

/-- The clock jumps to the same time, or to none. -/
theorem jump (h : Stands m i b r q) : Option.Rel (Stands m i b) (r.jump m) (q.jump m) := by
  rw [Run.jump, Run.jump, h.nextTime_eq]
  cases r.nextTime m with
  | none => exact .none
  | some t =>
    have hgathered := (h.moveTo t).gather
    have hcalled := hgathered.callLeader
    simp only [Option.map_some]
    generalize Run.callLeader m _ = led at hcalled ⊢
    generalize Run.callLeader m _ = led' at hcalled ⊢
    cases hcalled with
    | none => exact .some hgathered
    | some h' => exact .some h'

/-- A turn of somebody else, or the start of the task. -/
theorem play (h : Stands m i b r q) (ht : r.turn = some x) (hother : x.number? ≠ some i)
    (hp : r.play m x = some r') :
    ∃ q', q.play m (x.recast i b) = some q' ∧ Stands m i b r' q' := by
  have hself := h.suits x (mem_members_of_turn ht)
  have hothers : ∀ y ∈ r.ready ++ r.line, y.Suits m i b :=
    fun y hy => h.suits y (mem_members_of_others hy)
  have hable := isAble_of_play hp
  cases x with
  | later me start recipe body =>
    have hdue : start ≤ r.stage.now := by simpa using hable
    rw [play_later m r recipe body hdue] at hp
    obtain rfl := Option.some_inj.1 hp
    refine ⟨_, play_later m q recipe _ (h.stage_eq ▸ hdue), ?_⟩
    rw [h.stage_eq]
    cases recipe.deadline? r.stage.now with
    | none => exact { h with stage_eq := rfl, turn_eq := rfl, suits := hothers }
    | some deadline =>
      refine { h with
        stage_eq := by simp [started, h.stage_eq]
        turn_eq := by simp [started, h.stage_eq, Member.recast]
        ready_eq := ?_
        suits := fun y hy => ?_ }
      · simp only [started, List.map_append, h.ready_eq, h.stage_eq]
        cases recipe.cancelAfter <;> rfl
      · rcases mem_members_started hy with rfl | ⟨span, rfl⟩ | hy
        · exact hself
        · exact .of_ne (by simp [Member.taskNumber?])
        · exact hothers y hy
  | active me context body =>
    have hne : me ≠ i := fun heq => hother (congrArg some heq)
    have hrecast (body : τ) : (Member.active me context body).recast i b
        = .active me context body := Member.recast_of_ne (by simpa [Member.taskNumber?]) b
    simp only [Run.play, Option.bind_eq_bind, Option.bind_eq_some_iff] at hp
    obtain ⟨p, hstep, hp⟩ := hp
    rw [← h.stage_eq, ← h.shared_eq] at hstep
    rw [hrecast]
    cases hs : p.state with
    | inl body' =>
      rw [hs] at hp
      obtain rfl := Option.some_inj.1 hp
      refine ⟨_, by rw [Run.play, hstep, Option.bind_eq_bind, Option.bind_some, hs], ?_⟩
      refine { h with
        shared_eq := rfl
        stage_eq := by rw [h.stage_eq]
        turn_eq := congrArg some (hrecast body').symm
        suits := fun y hy => ?_ }
      rcases List.mem_cons.1 hy with rfl | hy
      · exact .of_ne (by simpa [Member.taskNumber?])
      · exact hothers y hy
    | inr result =>
      rw [hs] at hp
      obtain rfl := Option.some_inj.1 hp
      refine ⟨_, by rw [Run.play, hstep, Option.bind_eq_bind, Option.bind_some, hs], ?_⟩
      refine { h with
        shared_eq := rfl
        stage_eq := by rw [h.stage_eq]
        turn_eq := rfl
        endings_eq := by rw [List.filter_append, List.filter_append, h.endings_eq, h.stage_eq]
        suits := hothers }
  | cancelAfter token span =>
    rw [play_cancelAfter] at hp
    obtain rfl := Option.some_inj.1 hp
    refine ⟨_, play_cancelAfter m q token span, ?_⟩
    rw [h.stage_eq]
    split
    · exact { h with stage_eq := by rw [cancel, cancel, h.stage_eq], turn_eq := rfl,
                     suits := hothers }
    · refine { h with
        stage_eq := rfl
        turn_eq := rfl
        line_eq := by simp [h.line_eq, Member.recast]
        suits := fun y hy => ?_ }
      rw [members_of_none rfl, ← List.append_assoc, List.mem_append, List.mem_singleton] at hy
      rcases hy with hy | rfl
      · exact hothers y hy
      · exact .of_ne (by simp [Member.taskNumber?])
  | cancelAt token due =>
    have hdue : due ≤ r.stage.now := by simpa using hable
    rw [play_cancelAt m r hdue] at hp
    obtain rfl := Option.some_inj.1 hp
    refine ⟨_, play_cancelAt m q (h.stage_eq ▸ hdue), ?_⟩
    exact { h with stage_eq := by rw [cancel, cancel, h.stage_eq], turn_eq := rfl,
                   suits := hothers }

theorem blocked (h : Stands m i b r q) (ht : r.turn = some x) :
    Stands m i b { r with turn := none, line := r.line ++ [x] }
      { q with turn := none, line := q.line ++ [x.recast i b] } :=
  { h with
    turn_eq := rfl
    line_eq := by simp [h.line_eq]
    suits := fun y hy => h.suits y ((members_blocked ht).mem_iff.1 hy) }

theorem called {ready : List (Member τ)} (h : Stands m i b r q) (ht : r.turn = none)
    (hready : (r.gather m).ready = x :: ready) :
    (q.gather m).ready = x.recast i b :: ready.map (·.recast i b) ∧
      Stands m i b { r.gather m with turn := some x, ready }
        { q.gather m with turn := some (x.recast i b), ready := ready.map (·.recast i b) } := by
  refine ⟨by rw [h.gather.ready_eq, hready, List.map_cons], ?_⟩
  exact { h.gather with
    turn_eq := rfl
    ready_eq := rfl
    suits := fun y hy => h.suits y ((members_called ht hready).mem_iff.1 hy) }

theorem turn_eq_some (h : Stands m i b r q) (ht : r.turn = some x) :
    q.turn = some (x.recast i b) := by rw [h.turn_eq, ht, Option.map_some]

theorem turn_eq_none (h : Stands m i b r q) (ht : r.turn = none) : q.turn = none := by
  rw [h.turn_eq, ht, Option.map_none]

/-- **The two rehearsals make the same step**, unless the task itself goes on. -/
theorem advance (h : Stands m i b r q)
    (hself : ∀ context a, r.turn = some (.active i context a) →
      r.isAble m (.active i context a) = false) :
    Option.Rel (Stands m i b) (r.advance m) (q.advance m) := by
  cases ht : r.turn with
  | some x =>
    have hturn := h.turn_eq_some ht
    have hable := h.isAble_eq (mem_members_of_turn ht)
    rw [advance_of_turn ht, advance_of_turn hturn]
    refine .some ?_
    cases hp : r.play m x with
    | some r' =>
      have hother : x.number? ≠ some i := by
        intro hi
        cases x with
        | active me context body =>
          obtain rfl := Option.some_inj.1 hi
          exact absurd (isAble_of_play hp) (by simp [hself context body ht])
        | _ => exact absurd hi (by simp [Member.number?])
      obtain ⟨q', hq', h'⟩ := h.play ht hother hp
      rw [hq']
      exact h'
    | none =>
      have hnone : q.play m (x.recast i b) = none := by
        rw [isAble, isAble, hp] at hable
        simpa using hable
      rw [hnone]
      exact h.blocked ht
  | none =>
    have hturn := h.turn_eq_none ht
    cases hover : r.isOver with
    | true =>
      rw [advance_of_isOver hover, advance_of_isOver (h.isOver_eq.trans hover)]
      exact .none
    | false =>
      have hover' : q.isOver = false := h.isOver_eq.trans hover
      cases hready : (r.gather m).ready with
      | cons x ready =>
        obtain ⟨hready', h'⟩ := h.called ht hready
        rw [advance_called ht hover hready, advance_called hturn hover' hready']
        exact .some h'
      | nil =>
        have hready' : (q.gather m).ready = [] := by rw [h.gather.ready_eq, hready, List.map_nil]
        rw [advance_of_nobody ht hover hready, advance_of_nobody hturn hover' hready']
        have hcalled := h.gather.callLeader
        generalize Run.callLeader m _ = led at hcalled ⊢
        generalize Run.callLeader m _ = led' at hcalled ⊢
        cases hcalled with
        | none => exact h.gather.jump
        | some h' => exact .some h'

/-- The step of the rehearsal with the substitute. -/
theorem exists_advance (h : Stands m i b r q) (hr : r.advance m = some r')
    (hself : ∀ context a, r.turn = some (.active i context a) →
      r.isAble m (.active i context a) = false) :
    ∃ q', q.advance m = some q' ∧ Stands m i b r' q' := by
  have hstep := h.advance hself
  rw [hr] at hstep
  generalize q.advance m = o at hstep
  cases hstep with
  | some h' => exact ⟨_, rfl, h'⟩

/-- The two rehearsals come to rest together. -/
theorem advance_eq_none (h : Stands m i b r q) (hr : r.advance m = none) : q.advance m = none := by
  have hstep := h.advance fun context a ht => by
    rw [advance_of_turn ht] at hr
    exact absurd hr (by simp)
  rw [hr] at hstep
  generalize q.advance m = o at hstep
  cases hstep
  rfl

end Stands

/-- A rehearsal with another body for one task. -/
def recast (i : Nat) (b : τ) (r : Run σ τ ρ) : Run σ τ ρ :=
  { r with
    turn := r.turn.map (·.recast i b)
    ready := r.ready.map (·.recast i b)
    line := r.line.map (·.recast i b) }

theorem numbers_recast (i : Nat) (b : τ) (r : Run σ τ ρ) :
    (r.recast i b).numbers = r.numbers := by
  have hmembers : (r.recast i b).members = r.members.map (·.recast i b) := by
    rw [members, members, recast]
    cases r.turn <;> simp
  rw [numbers, numbers, hmembers, List.filterMap_map]
  simp only [Function.comp_def, Member.taskNumber?_recast]
  rfl

theorem stands_recast (hone : r.numbers.count i ≤ 1) (h : r.Runs i a) (halike : m.Alike a b) :
    Stands m i b r (r.recast i b) where
  leader_eq := rfl
  stage_eq := rfl
  shared_eq := rfl
  turn_eq := rfl
  ready_eq := rfl
  line_eq := rfl
  endings_eq := rfl
  suits x hx hi c hc := by
    obtain rfl := Option.some_inj.1 ((h.body_of_mem hone hx hi).symm.trans hc)
    exact halike

/-- The substitute takes part where the task does. -/
theorem Stands.runs (h : Stands m i b r q) (hr : r.Runs i a) : q.Runs i b := by
  obtain ⟨x, hx, hi, hbody⟩ := hr
  refine ⟨x.recast i b, ?_, by rw [Member.taskNumber?_recast, hi], ?_⟩
  · rw [h.members_eq]
    exact List.mem_map_of_mem hx
  · cases x with
    | later => simp_all [Member.recast, Member.body?, Member.taskNumber?]
    | active => simp_all [Member.recast, Member.body?, Member.taskNumber?]
    | _ => exact absurd hi (by simp [Member.taskNumber?])

/-! ### Turns of the task itself -/

/-- What the turn of a task that does not cancel its own context makes of a rehearsal. -/
def went (r : Run σ τ ρ) (me : Nat) (context : Context) (p : Progress σ τ ρ) : Run σ τ ρ :=
  { r with
    shared := p.shared
    log := r.log ++ p.log.map (r.stage.now, ·)
    turn := p.state.elim (fun body => some (.active me context body)) fun _ => none
    endings := r.endings ++
      p.state.elim (fun _ => []) fun result => [⟨me, result, r.stage.now, context⟩] }

theorem advance_active {me : Nat} (ht : r.turn = some (.active me context a))
    (hp : m.step ⟨me, r.stage.now, context, r.stage.status context⟩ r.shared a = some p)
    (hc : p.cancels = false) : r.advance m = some (r.went me context p) := by
  have hcancels (p' : Progress σ τ ρ)
      (hp' : m.step ⟨me, r.stage.now, context, r.stage.status context⟩ r.shared a = some p') :
      p'.cancels = false := Option.some_inj.1 (hp.symm.trans hp') ▸ hc
  rw [advance_of_turn ht, play_started hcancels, hp]
  rfl

theorem turn_went_of_inl {me : Nat} {a' : τ} (hs : p.state = .inl a') :
    (r.went me context p).turn = some (.active me context a') := by
  rw [Run.went, hs]
  rfl

theorem turn_went_of_inr {me : Nat} {s : ρ} (hs : p.state = .inr s) :
    (r.went me context p).turn = none := by
  rw [Run.went, hs]
  rfl

/-- What a turn makes of a task holds of it. -/
theorem holds_went {P : τ → Prop} {Q : Ending ρ → Prop} (hone : r.numbers.count i ≤ 1)
    (ht : r.turn = some (.active i context a)) (hP : ∀ a', p.state = .inl a' → P a')
    (hQ : ∀ s, p.state = .inr s → Q ⟨i, s, r.stage.now, context⟩) :
    Holds i P Q (r.went i context p) := by
  obtain ⟨hothers, hendings⟩ := unique_of_turn hone ht rfl
  cases hs : p.state with
  | inl a' =>
    refine ⟨fun y hy hi => ?_, fun e he hi => ?_⟩
    · rw [members_of_turn (turn_went_of_inl hs), List.mem_cons] at hy
      rcases hy with rfl | hy
      · rintro a ⟨⟩
        exact hP a' hs
      · exact absurd hi (hothers y hy)
    · rw [Run.went, hs] at he
      exact absurd hi (hendings e (by simpa using he))
  | inr s =>
    refine ⟨fun y hy hi => ?_, fun e he hi => ?_⟩
    · rw [members_of_none (turn_went_of_inr hs)] at hy
      exact absurd hi (hothers y hy)
    · rw [Run.went, hs] at he
      rcases List.mem_append.1 he with he | he
      · exact absurd hi (hendings e he)
      · obtain rfl := List.mem_singleton.1 he
        exact hQ s hs

theorem holds_of_not_mem_numbers {P : τ → Prop} {Q : Ending ρ → Prop} (h : i ∉ r.numbers) :
    Holds i P Q r := by
  rw [numbers, List.mem_append, List.mem_filterMap, List.mem_map, not_or] at h
  exact ⟨fun x hx hi => absurd ⟨x, hx, hi⟩ h.1, fun e he hi => absurd ⟨e, he, hi⟩ h.2⟩

/-- The task and its substitute go on, or end, together. -/
theorem Stands.went {b' : τ} {p' : Progress σ τ ρ} (h : Stands m i b r q)
    (hone : r.numbers.count i ≤ 1) (ht : r.turn = some (.active i context a))
    (hshared : p'.shared = p.shared)
    (hgo : ∀ a', p.state = .inl a' → p'.state = .inl b' ∧ m.Alike a' b')
    (hend : ∀ s, p.state = .inr s → ∃ s', p'.state = .inr s') :
    Stands m i b' (r.went i context p) (q.went i context p') := by
  obtain ⟨hothers, -⟩ := unique_of_turn hone ht rfl
  have hsame (l : List (Member τ)) (hl : ∀ y ∈ l, y ∈ r.ready ++ r.line) :
      l.map (·.recast i b) = l.map (·.recast i b') :=
    List.map_congr_left fun y hy => by
      rw [Member.recast_of_ne (hothers y (hl y hy)), Member.recast_of_ne (hothers y (hl y hy))]
  have hbase : q.ready = r.ready.map (·.recast i b') ∧ q.line = r.line.map (·.recast i b') :=
    ⟨h.ready_eq.trans (hsame _ fun _ hy => List.mem_append_left _ hy),
      h.line_eq.trans (hsame _ fun _ hy => List.mem_append_right _ hy)⟩
  cases hs : p.state with
  | inl a' =>
    obtain ⟨hs', halike⟩ := hgo a' hs
    exact {
      leader_eq := h.leader_eq
      stage_eq := h.stage_eq
      shared_eq := hshared
      turn_eq := by simp [turn_went_of_inl hs, turn_went_of_inl hs', Member.recast]
      ready_eq := hbase.1
      line_eq := hbase.2
      endings_eq := by simpa [Run.went, hs, hs'] using h.endings_eq
      suits := fun y hy => by
        rw [members_of_turn (turn_went_of_inl hs), List.mem_cons] at hy
        rcases hy with rfl | hy
        · rintro - c ⟨⟩
          exact halike
        · exact .of_ne (hothers y hy) }
  | inr s =>
    obtain ⟨s', hs'⟩ := hend s hs
    exact {
      leader_eq := h.leader_eq
      stage_eq := h.stage_eq
      shared_eq := hshared
      turn_eq := by rw [turn_went_of_inr hs, turn_went_of_inr hs', Option.map_none]
      ready_eq := hbase.1
      line_eq := hbase.2
      endings_eq := by simpa [Run.went, hs, hs', List.filter_append] using h.endings_eq
      suits := fun y hy => by
        rw [members_of_none (turn_went_of_inr hs)] at hy
        exact .of_ne (hothers y hy) }

/-! ### What the others see -/

/-- Two rehearsals that differ at most in one task: the clock and the tokens, what is shared, all
other members and how the other tasks have ended are the same. -/
structure Unnoticed (i : Nat) (r q : Run σ τ ρ) : Prop where
  stage_eq : q.stage = r.stage
  shared_eq : q.shared = r.shared
  others_eq : q.members.filter (·.taskNumber? ≠ some i) = r.members.filter (·.taskNumber? ≠ some i)
  endings_eq : q.endings.filter (·.me ≠ i) = r.endings.filter (·.me ≠ i)
  isOver_eq : q.isOver = r.isOver

theorem Stands.unnoticed (h : Stands m i b r q) : Unnoticed i r q where
  stage_eq := h.stage_eq
  shared_eq := h.shared_eq
  others_eq := by
    rw [h.members_eq, List.filter_map]
    simp only [Function.comp_def, Member.taskNumber?_recast]
    refine (List.map_congr_left fun x hx => ?_).trans (List.map_id' _)
    exact Member.recast_of_ne (by simpa using (List.mem_filter.1 hx).2) b
  endings_eq := h.endings_eq
  isOver_eq := h.isOver_eq

/-! ### What is told -/

/-- What the next step of a rehearsal tells in the log: what the task says that has the turn. -/
def said (m : Machine σ τ ρ) (r : Run σ τ ρ) : List (Nat × LogEvent Double) :=
  match r.turn with
  | some (.active me context body) =>
    match m.step ⟨me, r.stage.now, context, r.stage.status context⟩ r.shared body with
    | some p => p.log.map (r.stage.now, ·)
    | none => []
  | _ => []

theorem said_of_turn_none (ht : r.turn = none) : r.said m = [] := by rw [said, ht]

theorem said_active {me : Nat} (ht : r.turn = some (.active me context a))
    (hp : m.step ⟨me, r.stage.now, context, r.stage.status context⟩ r.shared a = some p) :
    r.said m = p.log.map (r.stage.now, ·) := by
  simp only [said, ht, hp]

/-- A turn adds what is said to the log. -/
theorem log_play (ht : r.turn = some x) (hp : r.play m x = some r') :
    r'.log = r.log ++ r.said m := by
  cases x with
  | active me context body =>
    cases played_of_play hp with
    | goesOn hstep => rw [said_active ht hstep]
    | ends hstep => rw [said_active ht hstep]
    | cancels hx => exact absurd hx (by simp [Member.isTask])
  | later | cancelAfter | cancelAt =>
    have hsilent : r.said m = [] := by rw [said, ht]
    rw [hsilent, List.append_nil]
    cases played_of_play hp <;> rfl

theorem log_callLeader (h : r.callLeader m = some r') : r'.log = r.log := by
  obtain ⟨x, -, -, rfl⟩ := callLeader_eq_some h
  rfl

theorem log_jump (h : r.jump m = some r') : r'.log = r.log := by
  obtain ⟨t, -, rfl⟩ := Option.map_eq_some_iff.1 h
  let q : Run σ τ ρ := { r with stage := r.stage.moveTo t }
  show (((q.gather m).callLeader m).getD (q.gather m)).log = r.log
  cases hled : (q.gather m).callLeader m with
  | none => rfl
  | some q' =>
    have hlog : q'.log = (q.gather m).log := log_callLeader hled
    exact hlog

/-- A step adds what is said to the log. -/
theorem log_advance (h : r.advance m = some r') : r'.log = r.log ++ r.said m := by
  cases ht : r.turn with
  | some x =>
    rw [advance_of_turn ht] at h
    obtain rfl := Option.some_inj.1 h
    cases hp : r.play m x with
    | some q => exact log_play ht hp
    | none =>
      have hsilent : r.said m = [] := by
        rw [said, ht]
        split
        · rename_i me context body hx
          obtain rfl := Option.some_inj.1 hx
          have hable : r.isAble m (.active me context body) = false := by rw [isAble, hp]; rfl
          rw [isAble_active, Option.isSome_eq_false_iff, Option.isNone_iff_eq_none] at hable
          rw [hable]
        · rfl
      rw [hsilent, List.append_nil]
      rfl
  | none =>
    rw [said_of_turn_none ht, List.append_nil]
    cases hover : r.isOver with
    | true =>
      rw [advance_of_isOver hover] at h
      exact absurd h (by simp)
    | false =>
      cases hready : (r.gather m).ready with
      | cons x ready =>
        rw [advance_called ht hover hready] at h
        obtain rfl := Option.some_inj.1 h
        rfl
      | nil =>
        rw [advance_of_nobody ht hover hready] at h
        cases hled : (r.gather m).callLeader m with
        | some q =>
          rw [hled] at h
          obtain rfl := Option.some_inj.1 h
          exact log_callLeader (r := r.gather m) hled
        | none =>
          rw [hled] at h
          exact log_jump (r := r.gather m) h

/-- The same is said in both rehearsals, unless the task itself goes on. -/
theorem Stands.said_eq (h : Stands m i b r q)
    (hself : ∀ context a, r.turn = some (.active i context a) →
      r.isAble m (.active i context a) = false) : q.said m = r.said m := by
  cases ht : r.turn with
  | none => rw [said_of_turn_none ht, said_of_turn_none (h.turn_eq_none ht)]
  | some x =>
    have hturn := h.turn_eq_some ht
    rw [said, said, ht, hturn]
    cases x with
    | active me context body =>
      by_cases hme : me = i
      · subst hme
        have hnone := hself context body ht
        have hnone' := (h.isAble_eq (mem_members_of_turn ht)).trans hnone
        simp only [Member.recast, if_pos, isAble_active, Option.isSome_eq_false_iff,
          Option.isNone_iff_eq_none] at hnone hnone' ⊢
        rw [hnone, hnone']
      · simp only [Member.recast, if_neg hme, h.stage_eq, h.shared_eq]
    | _ => rfl

/-- A task takes part no more. -/
abbrev Gone (i : Nat) (Q : Ending ρ → Prop) (r : Run σ τ ρ) : Prop := Holds i (fun _ => False) Q r

theorem Gone.ne {Q : Ending ρ → Prop} (h : Gone i Q r) (hx : x ∈ r.members) :
    x.taskNumber? ≠ some i := by
  intro hi
  cases x with
  | later me start recipe body => exact h.bodies _ hx hi body rfl
  | active me context body => exact h.bodies _ hx hi body rfl
  | cancelAfter => exact absurd hi (by simp [Member.taskNumber?])
  | cancelAt => exact absurd hi (by simp [Member.taskNumber?])

theorem upholds_gone (m : Machine σ τ ρ) (Q : Ending ρ → Prop) : Upholds m (fun _ => False) Q :=
  fun _ _ _ _ h => h.elim

/-- When the task has ended, the rehearsals stay in lockstep for good. -/
theorem Stands.settle {Q : Ending ρ → Prop} (h : Stands m i b r q) (hgone : Gone i Q r)
    (fuel : Nat) : Stands m i b (r.settle m fuel) (q.settle m fuel) := by
  induction fuel generalizing r q with
  | zero => exact h
  | succ fuel ih =>
    have hself : ∀ context a, r.turn = some (.active i context a) →
        r.isAble m (.active i context a) = false :=
      fun context a ht => absurd rfl (hgone.ne (mem_members_of_turn ht))
    rw [Run.settle, Run.settle]
    cases hr : r.advance m with
    | none =>
      have hstep := h.advance hself
      rw [hr] at hstep
      generalize q.advance m = o at hstep ⊢
      cases hstep
      exact h
    | some r' =>
      obtain ⟨q', hq', h'⟩ := h.exists_advance hr hself
      rw [hq']
      exact ih h' (hgone.advance (upholds_gone m Q) (moves_of_advance hr))

end Run

end DriveDelta
