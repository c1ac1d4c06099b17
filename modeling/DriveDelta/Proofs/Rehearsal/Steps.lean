import Mathlib.Data.List.Perm.Subperm
import DriveDelta.Proofs.Rehearsal.Alone
import DriveDelta.Proofs.Rehearsal.Contexts

/-!
# Steps of a rehearsal that nobody leads

Tasks that are performed together have no leader.  A step of their rehearsal is then one of four
things: the member that has the turn plays or steps into the line, the first of those that can go on
is called, or, when nobody can, the clock jumps.

## What is here

* `Run.members`, everybody that takes part, and `Run.isOver_iff`;
* `Run.isAble_later` and its like, when a member can go on, and `Run.play_later`, what it does;
* `Run.Played`, what a turn can be, and `Run.Keeps`, what every turn keeps;
* `Run.gather_of_unled`, with `Run.gather_eq_self` and `Run.gather_gather`;
* `Run.Advances`, the four things that a step can be, and `Run.advances_of_advance`;
* `Run.numbers_settle`: no task is lost.
-/

set_option autoImplicit false

namespace DriveDelta

namespace Run

variable {σ τ ρ : Type} {m : Machine σ τ ρ} {r r' q : Run σ τ ρ} {x : Member τ}

/-! ## Who takes part -/

/-- Everybody that takes part in a rehearsal. -/
def members {σ τ ρ : Type} (r : Run σ τ ρ) : List (Member τ) := r.turn.toList ++ r.ready ++ r.line

theorem members_gather (m : Machine σ τ ρ) (q : Run σ τ ρ) :
    (q.gather m).members.Perm q.members := by
  let steps (x : Member τ) : Bool := q.isAble m x && !q.isLed x
  have hable : ((q.line.filter steps).filter (!·.isToStart) ++
      (q.line.filter steps).filter (·.isToStart)).Perm (q.line.filter steps) :=
    List.perm_append_comm.trans (List.filter_append_perm _ _)
  have hline := (hable.append_right (q.line.filter (!steps ·))).trans
    (List.filter_append_perm steps q.line)
  rw [members, members, gather]
  simp only [List.append_assoc] at hline ⊢
  exact List.Perm.append_left _ (List.Perm.append_left _ hline)

theorem members_of_turn (h : r.turn = some x) : r.members = x :: (r.ready ++ r.line) := by
  rw [members, h]
  rfl

theorem members_of_none (h : r.turn = none) : r.members = r.ready ++ r.line := by
  rw [members, h]
  rfl

/-- Whoever has to wait, and loses the turn, still takes part. -/
theorem members_blocked (ht : r.turn = some x) :
    ({ r with turn := none, line := r.line ++ [x] } : Run σ τ ρ).members.Perm r.members := by
  rw [members_of_turn ht, members_of_none rfl, ← List.append_assoc]
  exact List.perm_append_singleton _ _

/-- Whoever gets the turn was ready. -/
theorem members_called {ready : List (Member τ)} (ht : r.turn = none)
    (hready : (r.gather m).ready = x :: ready) :
    ({ r.gather m with turn := some x, ready } : Run σ τ ρ).members.Perm r.members := by
  refine List.Perm.trans (List.Perm.of_eq ?_) (members_gather m r)
  rw [members_of_none (r := r.gather m) ht, hready]
  rfl

/-- A rehearsal is over when nobody has the turn and no task takes part any more. -/
theorem isOver_iff : r.isOver = true ↔ r.turn = none ∧ ∀ x ∈ r.members, x.isTask = false := by
  cases ht : r.turn with
  | none => simp [isOver, members, ht, or_imp, forall_and]
  | some x => simp [isOver, ht]

/-! ## When members can go on -/

@[simp] theorem isAble_later (m : Machine σ τ ρ) (r : Run σ τ ρ) (me start : Nat) (recipe : Recipe)
    (body : τ) : r.isAble m (.later me start recipe body) = decide (start ≤ r.stage.now) := by
  rw [isAble, play]
  split
  · rename_i h
    cases r.stage.make? recipe <;> simp [h]
  · rename_i h
    simp [h]

@[simp] theorem isAble_active (m : Machine σ τ ρ) (r : Run σ τ ρ) (me : Nat) (context : Context)
    (body : τ) : r.isAble m (.active me context body) =
      (m.step ⟨me, r.stage.now, context, r.stage.status context⟩ r.shared body).isSome := by
  rw [isAble, play]
  cases m.step ⟨me, r.stage.now, context, r.stage.status context⟩ r.shared body with
  | none => rfl
  | some p => cases hp : p.state <;> simp [hp]

@[simp] theorem isAble_cancelAfter (m : Machine σ τ ρ) (r : Run σ τ ρ) (token span : Nat) :
    r.isAble m (.cancelAfter token span) = true := rfl

@[simp] theorem isAble_cancelAt (m : Machine σ τ ρ) (r : Run σ τ ρ) (token due : Nat) :
    r.isAble m (.cancelAt token due) = decide (due ≤ r.stage.now) := by
  rw [isAble, play]
  split
  · rename_i h
    simp [h]
  · rename_i h
    simp [h]

theorem isAble_of_play (h : r.play m x = some r') : r.isAble m x = true := by
  rw [isAble, h]
  rfl

/-- Who can go on is a question of the time, the tokens and the shared state. -/
theorem isAble_congr (hstage : q.stage = r.stage) (hshared : q.shared = r.shared)
    (x : Member τ) : q.isAble m x = r.isAble m x := by
  cases x <;> simp [hstage, hshared]

/-- A task has started: its context is there, and perhaps somebody who will cancel it. -/
def started (r : Run σ τ ρ) (me : Nat) (recipe : Recipe) (deadline : Option Nat) (body : τ) :
    Run σ τ ρ :=
  { r with
    stage := r.stage.opened recipe
    turn := some (.active me
      { token := r.stage.forest.size, deadline, options := Stage.options recipe } body)
    ready := r.ready ++ (recipe.cancelAfter.map (Member.cancelAfter r.stage.forest.size)).toList }

theorem mem_members_started {me : Nat} {recipe : Recipe} {deadline : Option Nat} {body : τ}
    (h : x ∈ (r.started me recipe deadline body).members) :
    x = .active me
        { token := r.stage.forest.size, deadline, options := Stage.options recipe } body ∨
      (∃ span, x = .cancelAfter r.stage.forest.size span) ∨ x ∈ r.ready ++ r.line := by
  simp only [started, members, Option.toList_some, List.mem_append, List.mem_singleton,
    Option.mem_toList, Option.map_eq_some_iff] at h ⊢
  rcases h with (h | h | ⟨span, -, h⟩) | h
  · exact .inl h
  · exact .inr (.inr (.inl h))
  · exact .inr (.inl ⟨span, h.symm⟩)
  · exact .inr (.inr (.inr h))

/-- The turn of a task that is to start. -/
theorem play_later (m : Machine σ τ ρ) (r : Run σ τ ρ) {me start : Nat} (recipe : Recipe)
    (body : τ) (h : start ≤ r.stage.now) :
    r.play m (.later me start recipe body) = some (
      match recipe.deadline? r.stage.now with
      | some deadline => r.started me recipe deadline body
      | none => { r with sound := false, turn := none }) := by
  rw [play, if_pos h, Stage.make?_eq]
  cases recipe.deadline? r.stage.now with
  | none => rfl
  | some deadline => cases hafter : recipe.cancelAfter <;> simp [cancelLater, started, hafter]

/-- The turn of a task that has started and does not cancel its own context. -/
theorem play_started {me : Nat} {context : Context} {body : τ}
    (hc : ∀ p, m.step ⟨me, r.stage.now, context, r.stage.status context⟩ r.shared body = some p →
      p.cancels = false) :
    r.play m (.active me context body) =
      (m.step ⟨me, r.stage.now, context, r.stage.status context⟩ r.shared body).map fun p =>
        { r with
          shared := p.shared
          log := r.log ++ p.log.map (r.stage.now, ·)
          turn := p.state.elim (fun body => some (.active me context body)) fun _ => none
          endings := r.endings ++
            p.state.elim (fun _ => []) fun result => [⟨me, result, r.stage.now, context⟩] } :=
  play_task rfl rfl hc

/-- The turn of a member that is to cancel a token after a span. -/
theorem play_cancelAfter (m : Machine σ τ ρ) (r : Run σ τ ρ) (token span : Nat) :
    r.play m (.cancelAfter token span) = some (
      if Nanos.wake r.stage.now span ≤ r.stage.now then r.cancel token
      else { r with
        turn := none, line := r.line ++ [.cancelAt token (Nanos.wake r.stage.now span)] }) := rfl

/-- The turn of a member that is to cancel a token at a time. -/
theorem play_cancelAt (m : Machine σ τ ρ) (r : Run σ τ ρ) {token due : Nat}
    (h : due ≤ r.stage.now) : r.play m (.cancelAt token due) = some (r.cancel token) := by
  rw [play, if_pos h]

/-- What a turn of a member can be. -/
inductive Played (m : Machine σ τ ρ) (r : Run σ τ ρ) : Member τ → Run σ τ ρ → Prop where
  | started {me start : Nat} {recipe : Recipe} {deadline : Option Nat} {body : τ}
    (hdue : start ≤ r.stage.now) (hd : recipe.deadline? r.stage.now = some deadline) :
    Played m r (.later me start recipe body) (r.started me recipe deadline body)
  /-- Its deadline lies beyond the clock. -/
  | lost {me start : Nat} {recipe : Recipe} {body : τ} (hdue : start ≤ r.stage.now)
    (hd : recipe.deadline? r.stage.now = none) :
    Played m r (.later me start recipe body) { r with sound := false, turn := none }
  | goesOn {me : Nat} {context : Context} {body body' : τ} {p : Progress σ τ ρ} {stage : Stage}
    (hstep : m.step ⟨me, r.stage.now, context, r.stage.status context⟩ r.shared body = some p)
    (hs : p.state = .inl body') (hstage : stage = r.stage ∨ stage = r.stage.cancel context.token) :
    Played m r (.active me context body)
      { r with
        stage
        shared := p.shared
        log := r.log ++ p.log.map (r.stage.now, ·)
        turn := some (.active me context body') }
  | ends {me : Nat} {context : Context} {body : τ} {result : ρ} {p : Progress σ τ ρ} {stage : Stage}
    (hstep : m.step ⟨me, r.stage.now, context, r.stage.status context⟩ r.shared body = some p)
    (hs : p.state = .inr result) (hstage : stage = r.stage ∨ stage = r.stage.cancel context.token) :
    Played m r (.active me context body)
      { r with
        stage
        shared := p.shared
        log := r.log ++ p.log.map (r.stage.now, ·)
        turn := none
        endings := r.endings ++ [⟨me, result, r.stage.now, context⟩] }
  /-- The span before a cancellation has begun. -/
  | waits {token span due : Nat} :
    Played m r (.cancelAfter token span)
      { r with turn := none, line := r.line ++ [.cancelAt token due] }
  | cancels {x : Member τ} {token : Nat} (hx : x.isTask = false) : Played m r x (r.cancel token)

theorem played_of_play (h : r.play m x = some r') : Played m r x r' := by
  cases x with
  | later me start recipe body =>
    have hdue : start ≤ r.stage.now := by simpa using isAble_of_play h
    rw [play_later m r recipe body hdue] at h
    obtain rfl := Option.some_inj.1 h
    cases hd : recipe.deadline? r.stage.now with
    | some deadline => exact .started hdue hd
    | none => exact .lost hdue hd
  | active me context body =>
    simp only [play, Option.bind_eq_bind, Option.bind_eq_some_iff] at h
    obtain ⟨p, hstep, h⟩ := h
    have hstage : (if p.cancels then r.stage.cancel context.token else r.stage) = r.stage ∨
        (if p.cancels then r.stage.cancel context.token else r.stage)
          = r.stage.cancel context.token := by
      split
      · exact .inr rfl
      · exact .inl rfl
    have hnow : (if p.cancels then r.stage.cancel context.token else r.stage).now
        = r.stage.now := by split <;> rfl
    cases hs : p.state with
    | inl body' =>
      rw [hs] at h
      obtain rfl := Option.some_inj.1 h
      exact .goesOn hstep hs hstage
    | inr result =>
      rw [hs, hnow] at h
      obtain rfl := Option.some_inj.1 h
      exact .ends hstep hs hstage
  | cancelAfter token span =>
    rw [play_cancelAfter] at h
    obtain rfl := Option.some_inj.1 h
    split
    · exact .cancels rfl
    · exact .waits
  | cancelAt token due =>
    rw [play_cancelAt m r (by simpa using isAble_of_play h)] at h
    obtain rfl := Option.some_inj.1 h
    exact .cancels rfl

/-- What every turn keeps. -/
structure Keeps (r r' : Run σ τ ρ) : Prop where
  leader_eq : r'.leader = r.leader
  now_eq : r'.stage.now = r.stage.now
  isCancelled : ∀ token, r.stage.forest.isCancelled token = true →
    r'.stage.forest.isCancelled token = true
  /-- Those that can go on are joined by cancellations at most. -/
  ready : ∀ y ∈ r'.ready, y ∈ r.ready ∨ ∃ token span, y = .cancelAfter token span

theorem keeps_of_play (h : r.play m x = some r') : Keeps r r' := by
  have hcancel (token : Nat) : ∀ t, r.stage.forest.isCancelled t = true →
      (r.stage.cancel token).forest.isCancelled t = true := fun _ => Forest.isCancelled_cancel _
  have hstays : ∀ y ∈ r.ready, y ∈ r.ready ∨ ∃ token span, y = .cancelAfter token span :=
    fun _ hy => .inl hy
  cases played_of_play h with
  | @started me start recipe deadline body hdue hd =>
    refine ⟨rfl, Stage.now_opened _ _, fun _ h => Stage.isCancelled_opened recipe h, ?_⟩
    intro y hy
    simp only [started, List.mem_append, Option.mem_toList, Option.map_eq_some_iff] at hy
    exact hy.imp_right fun ⟨span, _, heq⟩ => ⟨_, span, heq.symm⟩
  | lost => exact ⟨rfl, rfl, fun _ h => h, hstays⟩
  | goesOn hstep hs hstage =>
    rcases hstage with rfl | rfl
    · exact ⟨rfl, rfl, fun _ h => h, hstays⟩
    · exact ⟨rfl, rfl, hcancel _, hstays⟩
  | ends hstep hs hstage =>
    rcases hstage with rfl | rfl
    · exact ⟨rfl, rfl, fun _ h => h, hstays⟩
    · exact ⟨rfl, rfl, hcancel _, hstays⟩
  | waits => exact ⟨rfl, rfl, fun _ h => h, hstays⟩
  | cancels => exact ⟨rfl, rfl, hcancel _, hstays⟩

/-- Turns take no time. -/
theorem now_of_play (h : r.play m x = some r') : r'.stage.now = r.stage.now :=
  (keeps_of_play h).now_eq

/-- Turns add no task. -/
theorem tasks_of_play (h : r.play m x = some r') : r'.tasks = r.tasks := by
  cases played_of_play h <;> rfl

/-- The turn of a leader that can go on. -/
theorem callLeader_eq_some (h : r.callLeader m = some r') :
    ∃ x ∈ r.line, r.isLed x = true ∧
      r' = { r with turn := some x, line := r.line.filter (!r.isLed ·) } := by
  simp only [callLeader, Option.bind_eq_bind, Option.bind_eq_some_iff] at h
  obtain ⟨x, hx, h⟩ := h
  split at h
  · exact ⟨x, List.mem_of_find?_eq_some hx, by simpa using List.find?_some hx,
      (Option.some_inj.1 h).symm⟩
  · exact absurd h (by simp)

/-- Whoever leads and is called was in the line. -/
theorem members_callLeader (h : r.callLeader m = some r') (ht : r.turn = none) :
    r'.members.Subperm r.members := by
  obtain ⟨x, hx, hled, rfl⟩ := callLeader_eq_some h
  have hone : [x].Sublist (r.line.filter r.isLed) :=
    List.singleton_sublist.2 (List.mem_filter.2 ⟨hx, hled⟩)
  have hline : ([x] ++ r.line.filter (!r.isLed ·)).Subperm r.line :=
    (hone.append_right _).subperm.trans (List.filter_append_perm r.isLed r.line).subperm
  simp only [members, ht, Option.toList_some, Option.toList_none, List.nil_append]
  refine List.Subperm.trans (List.Perm.subperm ?_) ((List.subperm_append_left r.ready).2 hline)
  rw [← List.append_assoc]
  exact List.perm_append_comm.append_right _

/-! ## Stepping out of the line -/

theorem isLed_of_unled (h : r.leader = none) (x : Member τ) : r.isLed x = false := by
  rw [isLed, h]
  cases x.number? <;> rfl

theorem gather_of_unled (m : Machine σ τ ρ) (h : r.leader = none) :
    r.gather m = { r with
      ready := r.ready ++ (r.line.filter (r.isAble m)).filter (!·.isToStart) ++
        (r.line.filter (r.isAble m)).filter (·.isToStart)
      line := r.line.filter (!r.isAble m ·) } := by
  simp only [gather, isLed_of_unled h, Bool.not_false, Bool.and_true]

theorem callLeader_of_unled (m : Machine σ τ ρ) (h : r.leader = none) : r.callLeader m = none := by
  have hnone : r.line.find? r.isLed = none :=
    List.find?_eq_none.2 fun x _ => by simp [isLed_of_unled h]
  rw [callLeader, hnone]
  rfl

/-- Where nobody in the line can go on, nobody steps out. -/
theorem gather_eq_self (hlead : r.leader = none) (h : ∀ x ∈ r.line, r.isAble m x = false) :
    r.gather m = r := by
  have hable : r.line.filter (r.isAble m) = [] :=
    List.filter_eq_nil_iff.2 fun x hx => by simp [h x hx]
  have hunable : r.line.filter (!r.isAble m ·) = r.line :=
    List.filter_eq_self.2 fun x hx => by simp [h x hx]
  rw [gather_of_unled m hlead, hable, hunable]
  simp

/-- Those that are ready after the line has been looked through. -/
theorem able_of_mem_gather (hlead : r.leader = none) (hx : x ∈ (r.gather m).ready) :
    x ∈ r.ready ∨ r.isAble m x = true := by
  rw [gather_of_unled m hlead] at hx
  simp only [List.mem_append, List.mem_filter] at hx
  rcases hx with (hx | hx) | hx
  · exact .inl hx
  · exact .inr hx.1.2
  · exact .inr hx.1.2

theorem unable_of_mem_gather (hlead : r.leader = none) (hx : x ∈ (r.gather m).line) :
    r.isAble m x = false := by
  rw [gather_of_unled m hlead] at hx
  simpa using (List.mem_filter.1 hx).2

@[simp] theorem isAble_gather (m : Machine σ τ ρ) (r : Run σ τ ρ) (x : Member τ) :
    (r.gather m).isAble m x = r.isAble m x :=
  isAble_congr (r := r) (q := r.gather m) rfl rfl x

theorem gather_gather (m : Machine σ τ ρ) (hlead : r.leader = none) :
    (r.gather m).gather m = r.gather m := by
  refine gather_eq_self hlead fun x hx => ?_
  rw [isAble_gather, unable_of_mem_gather hlead hx]

/-- Where nobody is ready after those who can have stepped out of the line, there was nobody who
could. -/
theorem gather_of_ready_eq_nil (hlead : r.leader = none) (h : (r.gather m).ready = []) :
    r.ready = [] ∧ (∀ x ∈ r.line, r.isAble m x = false) ∧ r.gather m = r := by
  have hready := h
  rw [gather_of_unled m hlead] at hready
  simp only [List.append_eq_nil_iff, List.filter_filter, List.filter_eq_nil_iff] at hready
  have hunable : ∀ x ∈ r.line, r.isAble m x = false := by
    intro x hx
    have hwaits := hready.1.2 x hx
    have hstarts := hready.2 x hx
    cases htostart : x.isToStart <;> simp_all
  exact ⟨hready.1.1, hunable, gather_eq_self hlead hunable⟩

/-! ## The four steps -/

/-- One step of a rehearsal that nobody leads. -/
inductive Advances (m : Machine σ τ ρ) (r : Run σ τ ρ) : Run σ τ ρ → Prop where
  /-- The member that has the turn plays. -/
  | played {x : Member τ} {r' : Run σ τ ρ} (ht : r.turn = some x) (hp : r.play m x = some r') :
    Advances m r r'
  /-- It has to wait. -/
  | blocked {x : Member τ} (ht : r.turn = some x) (hp : r.isAble m x = false) :
    Advances m r { r with turn := none, line := r.line ++ [x] }
  /-- The first of those that can go on gets the turn. -/
  | called {x : Member τ} {ready : List (Member τ)} (ht : r.turn = none)
    (hover : r.isOver = false) (hready : (r.gather m).ready = x :: ready) :
    Advances m r { r.gather m with turn := some x, ready }
  /-- Nobody can go on, and the clock jumps. -/
  | jumped {t : Nat} (ht : r.turn = none) (hover : r.isOver = false) (hready : r.ready = [])
    (hunable : ∀ x ∈ r.line, r.isAble m x = false) (hnext : r.nextTime m = some t) :
    Advances m r (({ r with stage := r.stage.moveTo t } : Run σ τ ρ).gather m)

theorem advance_called {ready : List (Member τ)} (ht : r.turn = none) (hover : r.isOver = false)
    (hready : (r.gather m).ready = x :: ready) :
    r.advance m = some { r.gather m with turn := some x, ready } := by
  rw [advance.eq_def]
  simp [ht, hover, hready]

theorem advance_of_ready_eq_nil (hlead : r.leader = none) (ht : r.turn = none)
    (hover : r.isOver = false) (hready : (r.gather m).ready = []) :
    r.advance m = (r.nextTime m).map fun t =>
      ({ r with stage := r.stage.moveTo t } : Run σ τ ρ).gather m := by
  obtain ⟨-, -, hself⟩ := gather_of_ready_eq_nil hlead hready
  have hjump (q : Run σ τ ρ) (hq : q.leader = none) : (q.callLeader m).getD q = q := by
    rw [callLeader_of_unled m hq]
    rfl
  have hnobody : r.ready = [] := (gather_of_ready_eq_nil hlead hready).1
  rw [advance.eq_def]
  simp only [ht, hover, hself, hnobody, callLeader_of_unled m hlead, jump]
  cases r.nextTime m with
  | none => rfl
  | some t => exact congrArg some (hjump _ hlead)

theorem advances_of_advance (hlead : r.leader = none) (h : r.advance m = some r') :
    r.Advances m r' := by
  cases ht : r.turn with
  | some x =>
    rw [advance_of_turn ht] at h
    obtain rfl := Option.some_inj.1 h
    cases hp : r.play m x with
    | some q => exact .played ht hp
    | none => exact .blocked ht (by rw [isAble, hp]; rfl)
  | none =>
    cases hover : r.isOver with
    | true =>
      rw [advance.eq_def] at h
      simp [ht, hover] at h
    | false =>
      cases hready : (r.gather m).ready with
      | cons x ready =>
        rw [advance_called ht hover hready] at h
        obtain rfl := Option.some_inj.1 h
        exact .called ht hover hready
      | nil =>
        rw [advance_of_ready_eq_nil hlead ht hover hready] at h
        obtain ⟨t, hnext, rfl⟩ := Option.map_eq_some_iff.1 h
        obtain ⟨hnobody, hunable, -⟩ := gather_of_ready_eq_nil hlead hready
        exact .jumped ht hover hnobody hunable hnext

theorem advance_of_isOver (h : r.isOver = true) : r.advance m = none := by
  rw [advance.eq_def]
  simp [(isOver_iff.1 h).1, h]

/-- A rehearsal that is over stays as it is. -/
theorem settle_of_isOver (h : r.isOver = true) (fuel : Nat) : r.settle m fuel = r := by
  cases fuel with
  | zero => rfl
  | succ fuel => rw [settle, advance_of_isOver h]

theorem settle_add (m : Machine σ τ ρ) (n k : Nat) (r : Run σ τ ρ) :
    r.settle m (n + k) = (r.settle m n).settle m k := by
  induction n generalizing r with
  | zero => rw [Nat.zero_add]; rfl
  | succ n ih =>
    rw [Nat.succ_add, settle, settle]
    cases h : r.advance m with
    | some r' => exact ih r'
    | none => cases k <;> simp [settle, h]

/-- A rehearsal that is over after some steps is the same after more of them. -/
theorem settle_of_le {n fuel : Nat} (h : (r.settle m n).isOver = true) (hle : n ≤ fuel) :
    r.settle m fuel = r.settle m n := by
  obtain ⟨k, rfl⟩ := Nat.exists_eq_add_of_le hle
  rw [settle_add, settle_of_isOver h]

/-- The clock jumps to the first time ahead that somebody in the line waits for. -/
theorem nextTime_eq_some {t : Nat} : r.nextTime m = some t ↔
    (r.stage.now < t ∧ ∃ x ∈ r.line, ∃ a ∈ x.alarms m, Nanos.tick a = t) ∧
      ∀ x ∈ r.line, ∀ a ∈ x.alarms m, r.stage.now < Nanos.tick a → t ≤ Nanos.tick a := by
  simp only [nextTime, List.min?_eq_some_iff, List.mem_filter, List.mem_map, List.mem_flatMap,
    decide_eq_true_eq]
  grind

theorem nextTime_eq_none : r.nextTime m = none ↔
    ∀ x ∈ r.line, ∀ a ∈ x.alarms m, Nanos.tick a ≤ r.stage.now := by
  simp only [nextTime, List.min?_eq_none_iff, List.filter_eq_nil_iff, List.mem_map,
    List.mem_flatMap, decide_eq_true_eq]
  grind

end Run

/-! ## Nobody is lost -/

/-- The number of a task, whether it has started or not. -/
def Member.taskNumber? {τ : Type} : Member τ → Option Nat
  | .later me .. | .active me .. => some me
  | .cancelAfter .. | .cancelAt .. => none

theorem Member.taskNumber?_of_isTask {τ : Type} {x : Member τ} (h : x.isTask = false) :
    x.taskNumber? = none := by
  cases x <;> first | rfl | exact absurd h (by simp [isTask])

namespace Run

variable {σ τ ρ : Type} {m : Machine σ τ ρ} {r r' q : Run σ τ ρ} {x : Member τ}

/-- The numbers of the tasks that take part and of those that have ended. -/
def numbers (r : Run σ τ ρ) : List Nat :=
  r.members.filterMap (·.taskNumber?) ++ r.endings.map (·.me)

theorem numbers_of_members (hmembers : r'.members.Perm r.members)
    (hendings : r'.endings = r.endings) : r'.numbers.Perm r.numbers := by
  rw [numbers, numbers, hendings]
  exact (hmembers.filterMap _).append_right _

/-- A turn changes no numbers, unless there is a deadline beyond the clock, which loses one. -/
theorem numbers_cases_of_play (ht : r.turn = some x) (hp : r.play m x = some r') :
    r'.sound = r.sound ∧ r'.numbers.Perm r.numbers ∨
      r'.sound = false ∧ r'.numbers.Sublist r.numbers := by
  have hnumbers : r.numbers = x.taskNumber?.toList ++
      ((r.ready ++ r.line).filterMap (·.taskNumber?) ++ r.endings.map (·.me)) := by
    rw [numbers, members_of_turn ht, List.filterMap_cons]
    cases x.taskNumber? <;> simp
  rw [hnumbers]
  cases played_of_play hp with
  | @started me start recipe deadline body hdue hd =>
    refine .inl ⟨rfl, List.Perm.of_eq ?_⟩
    cases recipe.cancelAfter <;> simp [numbers, members, started, Member.taskNumber?]
  | lost => exact .inr ⟨rfl, List.sublist_append_right _ _⟩
  | goesOn =>
    refine .inl ⟨rfl, List.Perm.of_eq ?_⟩
    simp [numbers, members, Member.taskNumber?]
  | ends =>
    refine .inl ⟨rfl, ?_⟩
    simp only [numbers, members, Option.toList_none, List.nil_append, List.map_append,
      List.map_singleton, ← List.append_assoc]
    exact List.perm_append_comm
  | waits =>
    refine .inl ⟨rfl, List.Perm.of_eq ?_⟩
    simp [numbers, members, Member.taskNumber?]
  | cancels hx =>
    refine .inl ⟨rfl, List.Perm.of_eq ?_⟩
    rw [Member.taskNumber?_of_isTask hx]
    simp [numbers, members, cancel]

theorem Advances.leader_eq (h : r.Advances m r') : r'.leader = r.leader := by
  cases h with
  | played ht hp => exact (keeps_of_play hp).leader_eq
  | blocked => rfl
  | called => rfl
  | jumped => rfl

theorem Advances.numbers_cases (h : r.Advances m r') :
    r'.sound = r.sound ∧ r'.numbers.Perm r.numbers ∨
      r'.sound = false ∧ r'.numbers.Sublist r.numbers := by
  cases h with
  | played ht hp => exact numbers_cases_of_play ht hp
  | blocked ht hp => exact .inl ⟨rfl, numbers_of_members (members_blocked ht) rfl⟩
  | called ht hover hready => exact .inl ⟨rfl, numbers_of_members (members_called ht hready) rfl⟩
  | @jumped t ht hover hready hunable hnext =>
    refine .inl ⟨rfl, numbers_of_members ?_ rfl⟩
    exact members_gather m ({ r with stage := r.stage.moveTo t } : Run σ τ ρ)

/-- **Steps lose no tasks.** -/
theorem Advances.numbers (hlead : r.leader = none) (h : r.Advances m r') :
    r'.leader = none ∧ (r'.sound = true → r.sound = true ∧ r'.numbers.Perm r.numbers) := by
  refine ⟨h.leader_eq.trans hlead, fun hsound => ?_⟩
  rcases h.numbers_cases with ⟨hsame, hperm⟩ | ⟨hlost, -⟩
  · exact ⟨hsame ▸ hsound, hperm⟩
  · exact absurd hsound (by simp [hlost])

/-- **A rehearsal loses no tasks**, unless there is a deadline beyond the clock. -/
theorem numbers_settle (hlead : r.leader = none) (fuel : Nat)
    (hsound : (r.settle m fuel).sound = true) :
    r.sound = true ∧ (r.settle m fuel).numbers.Perm r.numbers := by
  induction fuel generalizing r with
  | zero => exact ⟨hsound, .refl _⟩
  | succ fuel ih =>
    rw [settle] at hsound ⊢
    cases h : r.advance m with
    | none =>
      rw [h] at hsound
      exact ⟨hsound, .refl _⟩
    | some r' =>
      rw [h] at hsound
      obtain ⟨hlead', hnumbers⟩ := (advances_of_advance hlead h).numbers hlead
      obtain ⟨hsound', hperm⟩ := ih hlead' hsound
      obtain ⟨hr, hperm'⟩ := hnumbers hsound'
      exact ⟨hr, hperm.trans hperm'⟩

/-- When a rehearsal is over, the numbers are those of the tasks that have ended. -/
theorem numbers_of_isOver (h : r.isOver = true) : r.numbers = r.endings.map (·.me) := by
  have hnone : r.members.filterMap (·.taskNumber?) = [] := by
    refine List.filterMap_eq_nil_iff.2 fun x hx => ?_
    have htask := (isOver_iff.1 h).2 x hx
    cases x <;> simp_all [Member.isTask, Member.taskNumber?]
  rw [numbers, hnone, List.nil_append]

end Run

end DriveDelta
