import DriveDelta.Proofs.Admission.Looks
import DriveDelta.Proofs.Rehearsal.Parts
import DriveDelta.Rehearsal.Tokens

/-!
# Workloads

A workload is made of jobs.  A job asks a limiter for admission with a context of its own, by the
options of that context or with a class and a cost of its own; when it is admitted it holds the
admission for a while and then completes it with what it observed, or drops it at once.

Each job draws from one pool.  What the jobs of one pool do depends on that pool alone, and they
leave the other pools alone, so they make up a part of the workload.

## What is here

* `Limiter.share`, one pool with its counters, and what replacing a pool does to it;
* `Job` and `Job.machine`, over the tasks that ask for admission;
* `Job.step_asking` and `Job.step_holding`, what a turn of a job does;
* `Job.place`, the pool that a job draws from, and `Job.part`, the jobs that draw from one pool.
-/

set_option autoImplicit false

namespace DriveDelta

/-! ## One pool of a limiter -/

namespace Limiter

variable {α : Type}

/-- One pool, and what goes with it: the counters of an adaptive one, if there is one. -/
def share (l : Limiter α) (c : ServiceClass) : PoolKind → Pool α ⊕ Option (Adaptive α)
  | .static => .inl (l.pools c).static
  | .sliding => .inr (l.pools c).sliding

variable {l l' : Limiter α} {c c' : ServiceClass} {k k' : PoolKind}

/-- What a pool is depends on its share. -/
theorem pool_congr (hk : l.Has c k) (h : l'.share c k = l.share c k) :
    l'.pool c k = l.pool c k := by
  cases k with
  | static => exact Sum.inl.inj h
  | sliding =>
    have hsliding : (l'.pools c).sliding = (l.pools c).sliding := Sum.inr.inj h
    obtain ⟨a, ha⟩ := Option.isSome_iff_exists.1 hk
    rw [pool, pool, hsliding, ha]
    rfl

theorem share_setPool_congr (hk : l.Has c k) (h : l'.share c k = l.share c k) (p : Pool α) :
    (l'.setPool c k p).share c k = (l.setPool c k p).share c k := by
  cases k with
  | static => rw [setPool_static, setPool_static, share, share, pools_setPools, pools_setPools,
      if_pos rfl, if_pos rfl]
  | sliding =>
    have hsliding : (l'.pools c).sliding = (l.pools c).sliding := Sum.inr.inj h
    obtain ⟨a, ha⟩ := Option.isSome_iff_exists.1 hk
    rw [setPool_sliding ha, setPool_sliding (hsliding.trans ha), share, share, pools_setPools,
      pools_setPools, if_pos rfl, if_pos rfl]

/-- Replacing one pool leaves the share of another. -/
theorem share_setPool_of_ne (hk : l.Has c' k') (hne : (c', k') ≠ (c, k)) (p : Pool α) :
    (l.setPool c' k' p).share c k = l.share c k := by
  by_cases hc : c = c'
  · subst hc
    have hkk : k' ≠ k := fun h => hne (by rw [h])
    cases k' with
    | static =>
      cases k with
      | static => exact absurd rfl hkk
      | sliding => rw [setPool_static, share, share, pools_setPools, if_pos rfl]
    | sliding =>
      obtain ⟨a, ha⟩ := Option.isSome_iff_exists.1 hk
      cases k with
      | static => rw [setPool_sliding ha, share, share, pools_setPools, if_pos rfl]
      | sliding => exact absurd rfl hkk
  · cases k <;> rw [share, share, pools_setPool_of_ne hc]

variable [Number α]

/-- What passing on an observation does to a share depends on that share alone. -/
theorem share_complete_congr (h : l'.share c k = l.share c k) (f : Feedback) (now : Nat) :
    (l'.complete c k f now).1.share c k = (l.complete c k f now).1.share c k := by
  cases k with
  | static => exact h
  | sliding =>
    have hsliding : (l'.pools c).sliding = (l.pools c).sliding := Sum.inr.inj h
    show ((l'.feed c f now).1).share c .sliding = ((l.feed c f now).1).share c .sliding
    rw [feed.eq_def, feed.eq_def, hsliding]
    cases (l.pools c).sliding with
    | none => exact h
    | some a =>
      cases f with
      | neutral => exact h
      | _ => simp only [share, pools_setPools, if_pos]

theorem share_complete_of_ne (hne : (c', k') ≠ (c, k)) (f : Feedback) (now : Nat) :
    (l.complete c' k' f now).1.share c k = l.share c k := by
  cases k' with
  | static => rfl
  | sliding =>
    show ((l.feed c' f now).1).share c k = l.share c k
    have hset (a : Option (Adaptive α)) :
        (l.setPools c' { l.pools c' with sliding := a }).share c k = l.share c k := by
      by_cases hc : c = c'
      · subst hc
        cases k with
        | static => rw [share, share, pools_setPools, if_pos rfl]
        | sliding => exact absurd rfl hne
      · cases k <;> rw [share, share, pools_setPools, if_neg hc]
    rw [feed.eq_def]
    split
    · exact hset _
    · exact hset _
    · rfl

end Limiter

/-! ## Looks -/

namespace Pool

variable {α : Type} [Number α]

/-- The first look of a newcomer at a pool. -/
def enter (p : Pool α) (cost now : Nat) (status : Option CancelReason) : Pool α × Turn :=
  match status with
  | some reason => (p, .cancelled reason)
  | none =>
    match p.take cost now with
    | (q, .granted) => (q, .granted)
    | (q, .wait _) => q.turn cost now none

/-- A look at a pool by a newcomer or by one who has been asleep. -/
def visit (p : Pool α) (cost now : Nat) (status : Option CancelReason) :
    Option Nat → Option (Pool α × Turn)
  | none => some (p.enter cost now status)
  | some until_ => p.resume cost now status until_

end Pool

namespace Limiter

variable {α : Type} [Number α]

/-- A look at a pool of a limiter, by a newcomer or by one who has been asleep. -/
def visit (l : Limiter α) (c : ServiceClass) (k : PoolKind) (cost now : Nat)
    (status : Option CancelReason) :
    Option Nat → Option (Limiter α × Turn × List (AdmissionEvent α))
  | none => some (l.arrive c k cost now status)
  | some until_ => (l.resume c k cost now status until_).map fun r => (r.1, r.2, [])

theorem arrive_eq (l : Limiter α) (c : ServiceClass) (k : PoolKind) (cost now : Nat)
    (status : Option CancelReason) :
    ((l.arrive c k cost now status).1, (l.arrive c k cost now status).2.1) =
      (l.setPool c k ((l.pool c k).enter cost now status).1,
        ((l.pool c k).enter cost now status).2) := by
  cases status with
  | some reason => exact Prod.ext (setPool_pool l c k).symm rfl
  | none =>
    rw [arrive, Pool.enter]
    cases (l.pool c k).take cost now with
    | mk q taken => cases taken <;> rfl

/-- A look replaces the pool that is looked at. -/
theorem visit_eq (l : Limiter α) (c : ServiceClass) (k : PoolKind) (cost now : Nat)
    (status : Option CancelReason) (asleep : Option Nat) :
    (l.visit c k cost now status asleep).map (fun r => (r.1, r.2.1)) =
      ((l.pool c k).visit cost now status asleep).map fun r => (l.setPool c k r.1, r.2) := by
  cases asleep with
  | none => exact congrArg some (l.arrive_eq c k cost now status)
  | some until_ =>
    rw [visit, resume, Option.map_map, Option.map_map]
    rfl

end Limiter

/-! ## Jobs -/

/-- How far a job has got. -/
inductive Job.Phase where
  | arriving
  /-- Its call waits for tokens. -/
  | asleep (until_ : Nat)
  /-- It has been admitted. -/
  | holding (a : Admission) (since until_ : Nat)

/-- A call for admission, with what becomes of the admission. -/
structure Job where
  serviceClass : Option ServiceClass := none
  cost : Option Int := none
  /-- How long the admission is held, and what it is completed with; without this it is dropped. -/
  completion : Option (Nat × Feedback) := none
  phase : Job.Phase := .arriving

namespace Job

/-- What the call of a job returned, and when. -/
abbrev Result := AdmissionTask.Result × Nat

/-- The call of a job. -/
def call (j : Job) (asleep : Option Nat) : AdmissionTask :=
  { serviceClass := j.serviceClass, cost := j.cost, asleep }

/-- What becomes of a job when its call has had a turn. -/
def proceed (j : Job) (now : Nat) : AdmissionTask ⊕ AdmissionTask.Result → Job ⊕ Result
  | .inl t => .inl { j with phase := (t.asleep.map Phase.asleep).getD .arriving }
  | .inr (.error e) => .inr (.error e, now)
  | .inr (.ok a) =>
    match j.completion with
    | some (span, _) => .inl { j with phase := .holding a now (Nanos.wake now span) }
    | none => .inr (.ok a, now)

/-- A turn of the call. -/
def ask (j : Job) (g : Glance) (l : Limiter Double) (asleep : Option Nat) :
    Option (Progress (Limiter Double) Job Result) :=
  (AdmissionTask.machine.step g l (j.call asleep)).map fun p =>
    { shared := p.shared, state := j.proceed g.now p.state, log := p.log }

/-- The completion of the admission. -/
def complete (j : Job) (l : Limiter Double) (a : Admission) (now : Nat) :
    Limiter Double × List (AdmissionEvent Double) :=
  match j.completion with
  | some (_, f) => l.complete a.serviceClass a.kind f now
  | none => (l, [])

/-- The tasks of a workload. -/
def machine : Machine (Limiter Double) Job Result where
  step g l j :=
    match j.phase with
    | .arriving => j.ask g l none
    | .asleep until_ => j.ask g l (some until_)
    | .holding a since until_ =>
      if until_ ≤ g.now then
        let r := j.complete l a g.now
        some { shared := r.1, state := .inr (.ok a, since), log := r.2.map .admission }
      else none
  alarms j :=
    match j.phase with
    | .arriving => []
    | .asleep until_ | .holding _ _ until_ => [until_]

/-! ### Turns of a job -/

/-- What a job asks for. -/
def wants (j : Job) (o : CallOptions) (l : Limiter Double) : Admission :=
  let c := j.serviceClass.getD (o.serviceClass.getD .standard)
  { serviceClass := c
    kind := l.kind c o.sliding
    tokens := Context.normalCost (if j.cost.isSome then j.cost else o.cost) }

/-- What becomes of a job when its call has looked at the pool. -/
def next (j : Job) (now : Nat) (a : Admission) : Turn → Job ⊕ Result
  | .granted => j.proceed now (.inr (.ok a))
  | .asleep until_ => .inl { j with phase := .asleep until_ }
  | .cancelled reason => .inr (.error (.cancelled reason), now)

/-- The phase of a job whose call is at its first look, or has been asleep. -/
def Phase.asking (asleep : Option Nat) : Phase := (asleep.map Phase.asleep).getD .arriving

variable {g g' : Glance} {l l' : Limiter Double} {j : Job} {asleep : Option Nat}

theorem target_call (j : Job) (asleep : Option Nat) (context : Context) (l : Limiter Double) :
    (j.call asleep).target context l = j.wants context.options l := by
  cases hcost : j.cost <;> simp [AdmissionTask.target, call, wants, hcost, Context.cost,
    Context.serviceClass]

theorem wants_congr (h : l.Alike l') (o : CallOptions) : j.wants o l' = j.wants o l := by
  simp only [wants, h.kind_eq]

theorem has_wants (j : Job) (o : CallOptions) (l : Limiter Double) :
    l.Has (j.wants o l).serviceClass (j.wants o l).kind := l.has_kind _ _

/-- What the progress of a call makes of its job. -/
theorem proceed_progress (j : Job) (asleep : Option Nat) (a : Admission) (now : Nat)
    (l : Limiter Double) (log : List (AdmissionEvent Double)) (turn : Turn) :
    ((j.call asleep).progress a now l log turn).shared = l ∧
      j.proceed now ((j.call asleep).progress a now l log turn).state = j.next now a turn := by
  cases turn <;> exact ⟨rfl, rfl⟩

theorem step_call (j : Job) (g : Glance) (l : Limiter Double) (asleep : Option Nat) :
    AdmissionTask.machine.step g l (j.call asleep) =
      let a := j.wants g.context.options l
      (l.visit a.serviceClass a.kind a.tokens g.now g.status asleep).map fun r =>
        (j.call asleep).progress a g.now r.1 r.2.2 r.2.1 := by
  rw [← target_call j asleep]
  cases asleep with
  | none => rfl
  | some until_ =>
    simp only [Limiter.visit, Option.map_map]
    rfl

/-- The turn of a call is a look at the pool that it draws from. -/
theorem ask_eq (j : Job) (g : Glance) (l : Limiter Double) (asleep : Option Nat) :
    (j.ask g l asleep).map (fun p => (p.shared, p.state)) =
      let a := j.wants g.context.options l
      ((l.pool a.serviceClass a.kind).visit a.tokens g.now g.status asleep).map fun r =>
        (l.setPool a.serviceClass a.kind r.1, j.next g.now a r.2) := by
  have hnext (r : Limiter Double × Turn × List (AdmissionEvent Double)) :=
    j.proceed_progress asleep (j.wants g.context.options l) g.now r.1 r.2.2 r.2.1
  have hvisit := congrArg
    (Option.map fun s => (s.1, j.next g.now (j.wants g.context.options l) s.2))
    (l.visit_eq (j.wants g.context.options l).serviceClass (j.wants g.context.options l).kind
      (j.wants g.context.options l).tokens g.now g.status asleep)
  rw [Option.map_map, Option.map_map] at hvisit
  rw [ask, step_call, Option.map_map, Option.map_map]
  refine Eq.trans ?_ hvisit
  congr 1
  funext r
  exact Prod.ext (hnext r).1 (hnext r).2

/-- What a turn of a job does. -/
inductive Stepped (g : Glance) (l : Limiter Double) (j : Job) :
    Limiter Double → Job ⊕ Result → Prop where
  /-- Its call has looked at the pool that the job draws from. -/
  | asked {asleep : Option Nat} {r : Pool Double × Turn} {a : Admission}
    (hphase : j.phase = .asking asleep) (ha : a = j.wants g.context.options l)
    (hr : (l.pool a.serviceClass a.kind).visit a.tokens g.now g.status asleep = some r) :
    Stepped g l j (l.setPool a.serviceClass a.kind r.1) (j.next g.now a r.2)
  /-- Its admission is completed. -/
  | completed {a : Admission} {since until_ : Nat} (hphase : j.phase = .holding a since until_)
    (hdue : until_ ≤ g.now) :
    Stepped g l j (j.complete l a g.now).1 (.inr (.ok a, since))

theorem phase_cases (j : Job) :
    (∃ asleep, j.phase = .asking asleep) ∨ ∃ a since until_, j.phase = .holding a since until_ := by
  cases hphase : j.phase with
  | arriving => exact .inl ⟨none, rfl⟩
  | asleep until_ => exact .inl ⟨some until_, rfl⟩
  | holding a since until_ => exact .inr ⟨a, since, until_, rfl⟩

theorem step_asking (h : j.phase = .asking asleep) (g : Glance) (l : Limiter Double) :
    machine.step g l j = j.ask g l asleep := by
  cases asleep <;> simp only [machine, h, Phase.asking, Option.map_none, Option.map_some,
    Option.getD_none, Option.getD_some]

theorem step_holding {a : Admission} {since until_ : Nat} (h : j.phase = .holding a since until_)
    (g : Glance) (l : Limiter Double) :
    machine.step g l j = if until_ ≤ g.now then
      some { shared := (j.complete l a g.now).1, state := .inr (.ok a, since),
             log := (j.complete l a g.now).2.map .admission } else none := by
  simp only [machine, h]

theorem stepped_of_step {p : Progress (Limiter Double) Job Result}
    (h : machine.step g l j = some p) :
    p.cancels = false ∧ j.Stepped g l p.shared p.state := by
  rcases j.phase_cases with ⟨asleep, hphase⟩ | ⟨a, since, until_, hphase⟩
  · rw [step_asking hphase] at h
    have hask := j.ask_eq g l asleep
    rw [h, Option.map_some] at hask
    obtain ⟨r, hr, heq⟩ := Option.map_eq_some_iff.1 hask.symm
    obtain ⟨hshared, hstate⟩ := Prod.mk.inj heq
    refine ⟨?_, hshared ▸ hstate ▸ .asked hphase rfl hr⟩
    obtain ⟨q, -, rfl⟩ := Option.map_eq_some_iff.1 h
    rfl
  · rw [step_holding hphase] at h
    split at h
    · rename_i hdue
      obtain rfl := Option.some_inj.1 h
      exact ⟨rfl, .completed hphase hdue⟩
    · exact absurd h (by simp)

/-! ### The pool that a job draws from -/

/-- The pool that a job with these options draws from, by class and kind. -/
def place (cfg : LimiterConfig Double) (o : CallOptions) (j : Job) : ServiceClass × PoolKind :=
  match j.phase with
  | .holding a _ _ => (a.serviceClass, a.kind)
  | _ => ((j.wants o (.new cfg 0)).serviceClass, (j.wants o (.new cfg 0)).kind)

variable {cfg : LimiterConfig Double} {o : CallOptions}

theorem place_asking (h : j.phase = .asking asleep) :
    j.place cfg o = ((j.wants o (.new cfg 0)).serviceClass, (j.wants o (.new cfg 0)).kind) := by
  cases asleep <;> simp only [place, h, Phase.asking, Option.map_none, Option.map_some,
    Option.getD_none, Option.getD_some]

theorem place_holding {a : Admission} {since until_ : Nat} (h : j.phase = .holding a since until_) :
    j.place cfg o = (a.serviceClass, a.kind) := by
  simp only [place, h]

/-- A job keeps to its pool. -/
theorem place_of_next {now : Nat} {turn : Turn} {j' : Job} (hphase : j.phase = .asking asleep)
    (h : j.next now (j.wants o (.new cfg 0)) turn = .inl j') :
    j'.place cfg o = j.place cfg o := by
  rw [place_asking hphase]
  cases turn with
  | granted =>
    rw [next, proceed.eq_def] at h
    cases hcompletion : j.completion with
    | none => simp [hcompletion] at h
    | some completion =>
      simp only [hcompletion, Sum.inl.injEq] at h
      obtain rfl := h
      rfl
  | asleep until_ =>
    obtain rfl := Sum.inl.inj h
    rfl
  | cancelled reason => exact absurd h (by simp [next])

theorem alike_complete (j : Job) (l : Limiter Double) (a : Admission) (now : Nat) :
    l.Alike (j.complete l a now).1 := by
  cases hcompletion : j.completion with
  | none => simp only [complete, hcompletion]; exact .refl l
  | some completion =>
    simp only [complete, hcompletion]
    exact (l.complete_idles a.serviceClass a.kind completion.2 now).alike

namespace Stepped

variable {s : Job ⊕ Result}

theorem alike (h : j.Stepped g l l' s) : l.Alike l' := by
  cases h with
  | asked => exact Limiter.alike_setPool _ _ _ _
  | completed => exact j.alike_complete _ _ _

theorem place_eq (h : j.Stepped g l l' s) (hl : (Limiter.new cfg 0).Alike l) {j' : Job}
    (hs : s = .inl j') : j'.place cfg g.context.options = j.place cfg g.context.options := by
  cases h with
  | asked hphase ha hr =>
    rw [ha, wants_congr hl] at hs
    exact place_of_next hphase hs
  | completed => exact absurd hs (by simp)

/-- A job leaves the pools alone that it does not draw from. -/
theorem share_eq {c : ServiceClass} {k : PoolKind} (h : j.Stepped g l l' s)
    (hl : (Limiter.new cfg 0).Alike l) (hne : j.place cfg g.context.options ≠ (c, k)) :
    l'.share c k = l.share c k := by
  cases h with
  | asked hphase ha hr =>
    rw [place_asking hphase, ← wants_congr hl, ← ha] at hne
    exact Limiter.share_setPool_of_ne (ha ▸ j.has_wants _ l) hne _
  | @completed a since until_ hphase hdue =>
    rw [place_holding hphase] at hne
    cases hcompletion : j.completion with
    | none => simp only [complete, hcompletion]
    | some completion =>
      simp only [complete, hcompletion]
      exact Limiter.share_complete_of_ne hne _ _

end Stepped

/-- A job that draws from a pool does the same with two limiters that agree on this pool. -/
theorem step_congr {c : ServiceClass} {k : PoolKind} (hl : (Limiter.new cfg 0).Alike l)
    (hl' : (Limiter.new cfg 0).Alike l') (hshare : l'.share c k = l.share c k)
    (hplace : j.place cfg g.context.options = (c, k)) (hg : g.Alike g') :
    (machine.step g' l' j).map (fun p => (p.shared.share c k, p.state)) =
      (machine.step g l j).map fun p => (p.shared.share c k, p.state) := by
  rcases j.phase_cases with ⟨asleep, hphase⟩ | ⟨a, since, until_, hphase⟩
  · have hwants : j.wants g'.context.options l' = j.wants g.context.options l := by
      rw [hg.options_eq, wants_congr hl, wants_congr hl']
    rw [place_asking hphase, ← wants_congr hl] at hplace
    have hhas := j.has_wants g.context.options l
    obtain ⟨hc, hk⟩ := Prod.mk.inj hplace
    rw [hc, hk] at hhas
    have hask := j.ask_eq g l asleep
    have hask' := j.ask_eq g' l' asleep
    simp only [hwants, hg.now_eq, hg.status_eq, hc, hk, Limiter.pool_congr hhas hshare]
      at hask hask'
    have hshared (r : Pool Double × Turn) := Limiter.share_setPool_congr hhas hshare r.1
    have hview (q : Option (Progress (Limiter Double) Job Result)) :
        q.map (fun p => (p.shared.share c k, p.state)) =
          (q.map fun p => (p.shared, p.state)).map fun s => (s.1.share c k, s.2) := by
      rw [Option.map_map]
      rfl
    rw [step_asking hphase, step_asking hphase, hview, hview, hask, hask', Option.map_map,
      Option.map_map]
    congr 1
    funext r
    exact Prod.ext (hshared r) rfl
  · rw [step_holding hphase, step_holding hphase, hg.now_eq]
    rw [place_holding hphase] at hplace
    obtain ⟨rfl, rfl⟩ := Prod.mk.inj hplace
    split
    · refine congrArg some (Prod.ext ?_ rfl)
      cases hcompletion : j.completion with
      | none => simpa only [complete, hcompletion] using hshare
      | some completion =>
        simp only [complete, hcompletion]
        exact Limiter.share_complete_congr hshare _ _
    · rfl

/-- When a job can go on. -/
theorem isSome_step (g : Glance) (l : Limiter Double) (j : Job) :
    (machine.step g l j).isSome = match j.phase with
      | .arriving => true
      | .asleep until_ => g.status.isSome || decide (until_ ≤ g.now)
      | .holding _ _ until_ => decide (until_ ≤ g.now) := by
  have hask (asleep : Option Nat) := congrArg Option.isSome (j.ask_eq g l asleep)
  simp only [Option.isSome_map] at hask
  cases hphase : j.phase with
  | arriving =>
    have hasking : j.phase = .asking none := hphase
    rw [step_asking hasking, hask]
    rfl
  | asleep until_ =>
    have hasking : j.phase = .asking (some until_) := hphase
    rw [step_asking hasking, hask, Pool.visit, Pool.resume]
    split
    · rename_i h
      simpa using h.symm
    · rename_i h
      simpa using h
  | holding a since until_ =>
    rw [step_holding hphase]
    split
    · rename_i h
      simp [h]
    · rename_i h
      simp [h]

/-- **The jobs that draw from one pool are a part of the workload.** -/
def part (cfg : LimiterConfig Double) (c : ServiceClass) (k : PoolKind) :
    Part machine (Pool Double ⊕ Option (Adaptive Double)) where
  own o j := j.place cfg o = (c, k)
  inv l := (Limiter.new cfg 0).Alike l
  view l := l.share c k
  keeps hl hstep := by
    obtain ⟨hcancels, hstepped⟩ := stepped_of_step hstep
    refine ⟨hl.trans hstepped.alike, hcancels, fun j' hj' => ?_⟩
    rw [hstepped.place_eq hl hj']
  apart hl hown hstep :=
    (stepped_of_step hstep).2.share_eq hl (by simpa using hown)
  alike hl hl' hshare hown hg := step_congr hl hl' hshare (by simpa using hown) hg
  waits {g l j now'} _ _ halarms := by
    rw [isSome_step, isSome_step]
    cases hphase : j.phase with
    | arriving => rfl
    | asleep until_ =>
      have hdue : until_ ≤ g.now ↔ until_ ≤ now' := halarms until_ (by simp [machine, hphase])
      simp [hdue]
    | holding a since until_ =>
      have hdue : until_ ≤ g.now ↔ until_ ≤ now' := halarms until_ (by simp [machine, hphase])
      simp [hdue]

end Job

end DriveDelta
