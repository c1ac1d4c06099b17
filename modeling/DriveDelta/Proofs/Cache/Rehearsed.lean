import DriveDelta.Proofs.Cache.Trace
import DriveDelta.Proofs.Rehearsal.Moves
import DriveDelta.Rehearsal.Visits

/-!
# Rehearsals are sessions

A rehearsal of visits decides who gets the next turn, when time passes, what the answers to requests
are and what status a context has.  A session leaves all of that open.  This file shows that every
rehearsal is a session, move by move, so whatever holds of every session holds of the visits that
are rehearsed.

## What is here

* `VisitTask.step_cases`: a turn of a rehearsed visit is a step of the visit, or its request has got
  a little further;
* `Run.visits` and `Run.Mirrors`, which says that a rehearsal and a session are at the same point;
* `Run.Mirrors.advance` and `Run.Mirrors.settle`: from there the rehearsal makes moves of the
  session;
* `Run.Mirrors.empty`, `Run.Mirrors.start` and `Run.Mirrors.launch`: a rehearsal begins at the same
  point as a session, and more visits do not change that;
* `Run.session_of_rehearsal`: every rehearsal is a session.
-/

set_option autoImplicit false

namespace DriveDelta

/-! ## One turn of a visit -/

namespace VisitTask

theorem cache_perform (g : Glance) (scene : Scene) (e : Visit.Effect) :
    (scene.perform g e).depot.cache = scene.depot.cache := by
  cases e with
  | asked cursor =>
    rw [Scene.perform, request]
    cases scene.depot.source <;> rfl
  | _ => rfl

/-- Carrying out what a step did leaves the cache to the step. -/
theorem cache_performAll (g : Glance) (scene : Scene) (effects : List Visit.Effect) :
    (effects.foldl (Scene.perform g) scene).depot.cache = scene.depot.cache := by
  induction effects generalizing scene with
  | nil => rfl
  | cons e effects ih => rw [List.foldl_cons, ih, cache_perform]

/-- A visit goes on, or it stays where it is while its request gets a little further. -/
theorem step_cases {g : Glance} {d : Depot} {t : VisitTask}
    {p : Progress Depot VisitTask Visit.Answer} (h : t.step g d = some p) :
    (∃ status inc r, Visit.step t.purpose d.cache g.me g.now status inc t.phase = some r ∧
      p.shared.cache = r.cache ∧
      ((∃ t', p.state = .inl t' ∧ t'.purpose = t.purpose ∧ t'.phase = r.phase) ∨
        ∃ answer, p.state = .inr answer)) ∨
    p.shared.cache = d.cache ∧
      ∃ t', p.state = .inl t' ∧ t'.purpose = t.purpose ∧ t'.phase = t.phase := by
  rw [step.eq_def] at h
  split at h
  · obtain ⟨q, -, rfl⟩ := Option.map_eq_some_iff.1 h
    exact .inr ⟨rfl, _, rfl, rfl, rfl⟩
  · rw [visit, Option.map_eq_some_iff] at h
    obtain ⟨r, hr, rfl⟩ := h
    refine .inl ⟨_, _, r, hr, cache_performAll _ _ _, ?_⟩
    cases hph : r.phase with
    | finished answer => exact .inr ⟨answer, rfl⟩
    | _ => exact .inl ⟨_, rfl, rfl, rfl⟩

end VisitTask

/-! ## Rehearsals beside sessions -/

namespace Session

variable {purpose : Nat → Visit.Purpose}

theorem run_append {s s' s'' : Session} {ms ms' : List Move} (h : s.run purpose ms = some s')
    (h' : s'.run purpose ms' = some s'') : s.run purpose (ms ++ ms') = some s'' := by
  induction ms generalizing s with
  | nil => rwa [← Option.some_inj.1 h] at h'
  | cons m ms ih =>
    rw [run] at h
    rw [List.cons_append, run]
    split at h
    · exact ih h
    · exact absurd h (by simp)

end Session

/-- A visit of a rehearsal, with its number. -/
def Member.task? {τ : Type} : Member τ → Option (Nat × τ)
  | .later me _ _ body | .active me _ body => some (me, body)
  | .cancelAfter .. | .cancelAt .. => none

namespace Run

/-- The visits that take part. -/
def visits {σ τ ρ : Type} (r : Run σ τ ρ) : List (Nat × τ) := r.members.filterMap (·.task?)

/-- The rehearsals of visits. -/
abbrev OfVisits := Run Depot VisitTask Visit.Answer

/-- A rehearsal and a session are at the same point: the visits that take part are different ones,
and each of them stands where the session has it. -/
structure Mirrors (purpose : Nat → Visit.Purpose) (r : OfVisits) (s : Session) : Prop where
  cache_eq : s.cache = r.shared.cache
  now_eq : s.now = r.stage.now
  nodup : (r.visits.map (·.1)).Nodup
  lt_tasks : ∀ x ∈ r.visits, x.1 < r.tasks
  stands : ∀ x ∈ r.visits, x.2.purpose = purpose x.1 ∧ x.2.phase = s.phase x.1
  arriving : ∀ v, r.tasks ≤ v → s.phase v = .arriving

variable {purpose : Nat → Visit.Purpose} {r r' : OfVisits} {s : Session}

/-- The order of those that take part does not matter, nor do those that are left out. -/
theorem Mirrors.of_subperm (h : Mirrors purpose r s) (hshared : r'.shared = r.shared)
    (hnow : r'.stage.now = r.stage.now) (htasks : r'.tasks = r.tasks)
    (hv : r'.visits.Subperm r.visits) : Mirrors purpose r' s := by
  refine ⟨hshared ▸ h.cache_eq, hnow ▸ h.now_eq, ?_, fun x hx => ?_, fun x hx => ?_, ?_⟩
  · obtain ⟨l, hp, hs⟩ := hv
    exact (hp.map _).nodup_iff.1 (h.nodup.sublist (hs.map _))
  · exact htasks ▸ h.lt_tasks x (hv.subset hx)
  · exact h.stands x (hv.subset hx)
  · exact htasks ▸ h.arriving

/-! ### Who takes part -/

section Members

variable {σ τ ρ : Type} {m : Machine σ τ ρ} {q q' : Run σ τ ρ} {x : Member τ}

theorem visits_subperm (h : q'.members.Subperm q.members) : q'.visits.Subperm q.visits := by
  obtain ⟨l, hp, hs⟩ := h
  exact ⟨l.filterMap (·.task?), hp.filterMap _, hs.filterMap _⟩

/-- Everybody but the member that has the turn. -/
def others (q : Run σ τ ρ) : List (Nat × τ) := (q.ready ++ q.line).filterMap (·.task?)

theorem visits_eq (q : Run σ τ ρ) : q.visits = (q.turn.bind (·.task?)).toList ++ q.others := by
  rw [visits, members, List.append_assoc, List.filterMap_append, others]
  cases q.turn with
  | none => rfl
  | some x => cases hx : x.task? <;> simp [hx]

/-- A started task that plays ends or keeps the turn. -/
theorem play_active {v : Nat} {context : Context} {body : τ}
    (h : q.play m (.active v context body) = some q') :
    ∃ p, m.step ⟨v, q.stage.now, context, q.stage.status context⟩ q.shared body = some p ∧
      q'.shared = p.shared ∧ q'.stage.now = q.stage.now ∧ q'.tasks = q.tasks ∧
      q'.visits = p.state.elim (fun body' => (v, body') :: q.others) fun _ => q.others := by
  have hnow := now_of_play h
  have htasks := tasks_of_play h
  cases played_of_play h with
  | goesOn hstep hs =>
    refine ⟨_, hstep, rfl, hnow, htasks, ?_⟩
    rw [hs]
    exact visits_eq _
  | ends hstep hs =>
    refine ⟨_, hstep, rfl, hnow, htasks, ?_⟩
    rw [hs]
    exact visits_eq _
  | cancels hx => exact absurd hx (by simp [Member.isTask])

/-- A member that is no started task touches nothing that is shared, and adds nobody. -/
theorem play_idle (hx : x.number? = none) (h : q.play m x = some q') :
    q'.shared = q.shared ∧ q'.stage.now = q.stage.now ∧ q'.tasks = q.tasks ∧
      q'.visits.Sublist (x.task?.toList ++ q.others) := by
  have hnow := now_of_play h
  have htasks := tasks_of_play h
  cases played_of_play h with
  | @started v start recipe deadline body =>
    refine ⟨rfl, hnow, htasks, ?_⟩
    rw [visits_eq, others, others]
    cases recipe.cancelAfter <;> simp [started, Member.task?]
  | lost => exact ⟨rfl, hnow, htasks, visits_eq _ ▸ List.sublist_append_right _ _⟩
  | waits =>
    refine ⟨rfl, hnow, htasks, ?_⟩
    rw [visits_eq, others, others, ← List.append_assoc, List.filterMap_append]
    simp [Member.task?]
  | cancels => exact ⟨rfl, hnow, htasks, visits_eq _ ▸ List.sublist_append_right _ _⟩
  | goesOn => exact absurd hx (by simp [Member.number?])
  | ends => exact absurd hx (by simp [Member.number?])

/-- New tasks take part as tasks that are to start. -/
theorem visits_launch (tasks : List (Nat × Recipe × τ)) :
    (q.launch tasks).visits.Perm
      (((tasks.zipIdx q.tasks).map fun t => (t.2, t.1.2.2)) ++ q.visits) := by
  have hplan := (tasks.zipIdx q.tasks).mergeSort_perm (·.1.1 ≤ ·.1.1)
  rw [visits, visits, members, members, launch, ← List.append_assoc, List.filterMap_append]
  refine List.perm_append_comm.trans (List.Perm.append_right _ ?_)
  rw [List.filterMap_map]
  refine (hplan.filterMap _).trans (List.Perm.of_eq ?_)
  exact congrFun List.filterMap_eq_map _

end Members

/-! ### The moves that a rehearsal makes -/

/-- From a session, moves lead to a session that is at the same point as a rehearsal. -/
def Follows (purpose : Nat → Visit.Purpose) (s : Session) (r : OfVisits) : Prop :=
  ∃ ms s', s.run purpose ms = some s' ∧ Mirrors purpose r s'

theorem Mirrors.follows (h : Mirrors purpose r s) : Follows purpose s r := ⟨[], s, rfl, h⟩

theorem Follows.trans {s' : Session} {m : Session.Move} (hm : s.step purpose m = some s')
    (h : Follows purpose s' r) : Follows purpose s r := by
  obtain ⟨ms, t, hrun, ht⟩ := h
  exact ⟨m :: ms, t, by rw [Session.run, hm]; exact hrun, ht⟩

/-- One visit goes on or ends, and the others stay where they are. -/
theorem Mirrors.replace (h : Mirrors purpose r s) {s' : Session} {v : Nat} {t : VisitTask}
    {l : List (Nat × VisitTask)} (hv : r.visits = (v, t) :: l)
    (hcache : s'.cache = r'.shared.cache) (hnow : s'.now = r'.stage.now)
    (htasks : r'.tasks = r.tasks) (hothers : ∀ w, w ≠ v → s'.phase w = s.phase w)
    (hv' : r'.visits = l ∨
      ∃ t', r'.visits = (v, t') :: l ∧ t'.purpose = t.purpose ∧ t'.phase = s'.phase v) :
    Mirrors purpose r' s' := by
  have hmem : (v, t) ∈ r.visits := hv ▸ List.mem_cons_self
  have hne : ∀ x ∈ l, x.1 ≠ v := by
    have := h.nodup
    rw [hv, List.map_cons, List.nodup_cons] at this
    exact fun x hx hxv => this.1 (List.mem_map.2 ⟨x, hx, hxv⟩)
  have hl : ∀ x ∈ l, x.2.purpose = purpose x.1 ∧ x.2.phase = s'.phase x.1 :=
    fun x hx => hothers x.1 (hne x hx) ▸ h.stands x (hv ▸ List.mem_cons_of_mem _ hx)
  have hnumbers : (r'.visits.map (·.1)).Sublist (r.visits.map (·.1)) := by
    rw [hv]
    rcases hv' with hv' | ⟨t', hv', -, -⟩ <;> rw [hv']
    · exact (List.sublist_cons_self _ _).map _
    · exact List.Sublist.refl _
  refine ⟨hcache, hnow, h.nodup.sublist hnumbers, fun x hx => ?_, fun x hx => ?_, fun w hw => ?_⟩
  · obtain ⟨y, hy, hyx⟩ := List.mem_map.1 (hnumbers.subset (List.mem_map_of_mem hx))
    exact htasks ▸ hyx ▸ h.lt_tasks y hy
  · rcases hv' with hv' | ⟨t', hv', hpurpose, hphase⟩ <;> rw [hv'] at hx
    · exact hl x hx
    · rcases List.mem_cons.1 hx with rfl | hx
      · exact ⟨hpurpose.trans (h.stands _ hmem).1, hphase⟩
      · exact hl x hx
  · rw [htasks] at hw
    rw [hothers w (Nat.ne_of_gt (Nat.lt_of_lt_of_le (h.lt_tasks _ hmem) hw))]
    exact h.arriving w hw

/-- The step of a visit is a move. -/
theorem Mirrors.turn (h : Mirrors purpose r s) {v : Nat} {t : VisitTask}
    {l : List (Nat × VisitTask)} {status : Option CancelReason} {inc : Option Refresh.Incoming}
    {q : Visit.Step} (hv : r.visits = (v, t) :: l)
    (hq : Visit.step t.purpose r.shared.cache v r.stage.now status inc t.phase = some q)
    (hcache : r'.shared.cache = q.cache) (hnow : r'.stage.now = r.stage.now)
    (htasks : r'.tasks = r.tasks)
    (hv' : r'.visits = l ∨
      ∃ t', r'.visits = (v, t') :: l ∧ t'.purpose = t.purpose ∧ t'.phase = q.phase) :
    Follows purpose s r' := by
  obtain ⟨hpurpose, hphase⟩ := h.stands (v, t) (hv ▸ List.mem_cons_self)
  have hstep : s.step purpose (.turn v status inc) = some (s.after v q) := by
    rw [hpurpose, hphase, ← h.cache_eq, ← h.now_eq] at hq
    rw [Session.step, hq, Option.map_some]
  have hself : (s.after v q).phase v = q.phase := by simp [Session.after]
  refine Follows.trans hstep (Mirrors.follows (h.replace hv hcache.symm (hnow ▸ h.now_eq) htasks
    (fun w hw => Function.update_of_ne hw _ _) ?_))
  rwa [hself]

/-- The member that has the turn plays. -/
theorem Mirrors.play (h : Mirrors purpose r s) {x : Member VisitTask} (hx : r.turn = some x)
    (hp : r.play VisitTask.machine x = some r') : Follows purpose s r' := by
  have hvisits := r.visits_eq
  rw [hx, Option.bind_some] at hvisits
  cases x with
  | active v context body =>
    obtain ⟨p, hstep, hshared, hnow, htasks, hv'⟩ := play_active hp
    rcases VisitTask.step_cases hstep with
      ⟨status, inc, q, hq, hcache, hstate⟩ | ⟨hcache, t, hstate, hpurpose, hphase⟩
    · refine h.turn hvisits hq (hshared ▸ hcache) hnow htasks ?_
      rcases hstate with ⟨t, hstate, hpurpose, hphase⟩ | ⟨answer, hstate⟩ <;> rw [hstate] at hv'
      · exact .inr ⟨t, hv', hpurpose, hphase⟩
      · exact .inl hv'
    · rw [hstate] at hv'
      refine (h.replace hvisits ?_ (hnow ▸ h.now_eq) htasks (fun _ _ => rfl)
        (.inr ⟨t, hv', hpurpose, ?_⟩)).follows
      · rw [hshared, hcache, h.cache_eq]
      · exact hphase.trans (h.stands (v, body) (hvisits ▸ List.mem_cons_self)).2
  | _ =>
    obtain ⟨hshared, hnow, htasks, hv'⟩ := play_idle rfl hp
    exact (h.of_subperm hshared hnow htasks (hvisits ▸ hv'.subperm)).follows

/-- Nobody plays, and time may pass. -/
theorem Mirrors.regrouped (h : Mirrors purpose r s) (hr : Regrouped r r') :
    Follows purpose s r' := by
  have hstep : s.step purpose (.pass (r'.stage.now - r.stage.now)) =
      some { s with now := r'.stage.now } := by
    rw [Session.step, h.now_eq, Nat.add_sub_cancel' hr.now_le]
  have hlater : Mirrors purpose { r with stage := r'.stage } { s with now := r'.stage.now } :=
    ⟨h.cache_eq, rfl, h.nodup, h.lt_tasks, h.stands, h.arriving⟩
  have hregrouped : Mirrors purpose r' { s with now := r'.stage.now } :=
    hlater.of_subperm hr.shared_eq rfl hr.tasks_eq (visits_subperm hr.subperm)
  exact Follows.trans hstep hregrouped.follows

/-- One step of a rehearsal. -/
theorem Mirrors.advance (h : Mirrors purpose r s)
    (ha : r.advance VisitTask.machine = some r') : Follows purpose s r' := by
  cases moves_of_advance ha with
  | played hx hp => exact h.play hx hp
  | regrouped _ hr => exact h.regrouped hr

/-- Whatever a rehearsal does, a session does it too. -/
theorem Mirrors.settle (h : Mirrors purpose r s) (fuel : Nat) :
    Follows purpose s (r.settle VisitTask.machine fuel) := by
  induction fuel generalizing r s with
  | zero => exact h.follows
  | succ fuel ih =>
    rw [Run.settle]
    split
    · rename_i r' ha
      obtain ⟨ms, s', hrun, h'⟩ := h.advance ha
      obtain ⟨ms', s'', hrun', h''⟩ := ih h'
      exact ⟨ms ++ ms', s'', Session.run_append hrun hrun', h''⟩
    · exact h.follows

/-! ### More visits -/

/-- A rehearsal that nobody takes part in yet. -/
theorem Mirrors.empty (purpose : Nat → Visit.Purpose) (d : Depot) (stage : Stage) :
    Mirrors purpose { shared := d, stage } { cache := d.cache, now := stage.now } :=
  ⟨rfl, rfl, List.nodup_nil, by simp [visits, members], by simp [visits, members], fun _ _ => rfl⟩

/-- New visits arrive, with numbers that nobody had before. -/
theorem Mirrors.add (h : Mirrors purpose r s) (new : List (Nat × VisitTask))
    (hcache : r'.shared.cache = r.shared.cache) (hnow : r'.stage.now = r.stage.now)
    (htasks : r.tasks ≤ r'.tasks) (hv : r'.visits.Subperm (new ++ r.visits))
    (hnodup : (new.map (·.1)).Nodup) (hnew : ∀ x ∈ new, r.tasks ≤ x.1 ∧ x.1 < r'.tasks)
    (hstands : ∀ x ∈ new, x.2.purpose = purpose x.1 ∧ x.2.phase = .arriving) :
    Mirrors purpose r' s := by
  have hnumbers : ((new ++ r.visits).map (·.1)).Nodup := by
    rw [List.map_append, List.nodup_append]
    refine ⟨hnodup, h.nodup, fun v hv w hw => ?_⟩
    obtain ⟨x, hx, rfl⟩ := List.mem_map.1 hv
    obtain ⟨y, hy, rfl⟩ := List.mem_map.1 hw
    exact Nat.ne_of_gt (Nat.lt_of_lt_of_le (h.lt_tasks y hy) (hnew x hx).1)
  refine ⟨hcache ▸ h.cache_eq, hnow ▸ h.now_eq, ?_, fun x hx => ?_, fun x hx => ?_,
    fun v hv => h.arriving v (Nat.le_trans htasks hv)⟩
  · obtain ⟨l, hp, hs⟩ := hv
    exact (hp.map _).nodup_iff.1 (hnumbers.sublist (hs.map _))
  · rcases List.mem_append.1 (hv.subset hx) with hx | hx
    · exact (hnew x hx).2
    · exact Nat.lt_of_lt_of_le (h.lt_tasks x hx) htasks
  · rcases List.mem_append.1 (hv.subset hx) with hx | hx
    · exact ⟨(hstands x hx).1, (hstands x hx).2.trans (h.arriving _ (hnew x hx).1).symm⟩
    · exact h.stands x hx

/-- Visits are made that start after a while. -/
theorem Mirrors.launch (h : Mirrors purpose r s) {tasks : List (Nat × Recipe × VisitTask)}
    (ht : ∀ t ∈ tasks.zipIdx r.tasks, t.1.2.2.purpose = purpose t.2 ∧ t.1.2.2.phase = .arriving) :
    Mirrors purpose (r.launch tasks) s := by
  refine h.add ((tasks.zipIdx r.tasks).map fun t => (t.2, t.1.2.2)) rfl rfl
    (Nat.le_add_right _ _) ?_ ?_ ?_ ?_
  · exact (visits_launch tasks).subperm
  · rw [List.map_map, show (fun x : Nat × VisitTask => x.1) ∘
      (fun t : (Nat × Recipe × VisitTask) × Nat => (t.2, t.1.2.2)) = Prod.snd from rfl,
      List.zipIdx_map_snd]
    exact List.nodup_range' _
  · intro x hx
    obtain ⟨t, ht, rfl⟩ := List.mem_map.1 hx
    exact ⟨List.le_snd_of_mem_zipIdx ht, List.snd_lt_add_of_mem_zipIdx ht⟩
  · intro x hx
    obtain ⟨t, hmem, rfl⟩ := List.mem_map.1 hx
    exact ht t hmem

/-- What visits that are made together are for. -/
def purposes (tasks : List (Nat × Recipe × VisitTask)) (v : Nat) : Visit.Purpose :=
  (tasks[v]?.map (·.2.2.purpose)).getD .count

/-- **Every rehearsal is a session.**  When visits are made to a new cache and rehearsed, there is a
session that keeps its books and is at the same point, however far the rehearsal gets. -/
theorem session_of_rehearsal {container : String} {options : CacheOptions} {d : Depot}
    (hc : Cache.new? container options = .ok d.cache) {tasks : List (Nat × Recipe × VisitTask)}
    (harriving : ∀ t ∈ tasks, t.2.2.phase = .arriving) (fuel : Nat) :
    ∃ ms s, (Session.opening d.cache).run (purposes tasks) ms = some s ∧ Session.Kept s ∧
      Mirrors (purposes tasks)
        ((Run.launch { shared := d } tasks).settle VisitTask.machine fuel) s := by
  have hlaunch : Mirrors (purposes tasks) (Run.launch { shared := d } tasks)
      (Session.opening d.cache) := by
    refine (Mirrors.empty _ d {}).launch fun t ht => ⟨?_, ?_⟩
    · rw [purposes, List.mem_zipIdx_iff_getElem?.1 ht]
      rfl
    · exact harriving _ (List.fst_mem_of_mem_zipIdx ht)
  obtain ⟨ms, s, hrun, hs⟩ := hlaunch.settle fuel
  exact ⟨ms, s, hrun, Session.kept_of_run hc hrun, hs⟩

/-- At most one of the visits that are rehearsed refreshes at a time. -/
theorem refreshing_unique_of_rehearsal {container : String} {options : CacheOptions} {d : Depot}
    (hc : Cache.new? container options = .ok d.cache) {tasks : List (Nat × Recipe × VisitTask)}
    (harriving : ∀ t ∈ tasks, t.2.2.phase = .arriving) (fuel : Nat) {x y : Nat × VisitTask}
    (hx : x ∈ ((Run.launch { shared := d } tasks).settle VisitTask.machine fuel).visits)
    (hy : y ∈ ((Run.launch { shared := d } tasks).settle VisitTask.machine fuel).visits)
    {since since' : Nat} {stage stage' : Refresh.Stage}
    (hx' : x.2.phase = .refreshing since stage) (hy' : y.2.phase = .refreshing since' stage') :
    x.1 = y.1 := by
  obtain ⟨ms, s, -, hk, hs⟩ := session_of_rehearsal hc harriving fuel
  rw [(hs.stands x hx).2] at hx'
  rw [(hs.stands y hy).2] at hy'
  exact hk.orderly.refreshing_unique hx' hy'

end Run

end DriveDelta
