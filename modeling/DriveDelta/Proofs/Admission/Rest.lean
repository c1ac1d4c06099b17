import DriveDelta.Proofs.Admission.Workload
import Mathlib.Data.Prod.Lex

/-!
# Workloads come to rest

Every job of a workload ends.  A job that waits for tokens looks again and again, but not for ever:
the pool that it finds lacking holds more each time that the clock has moved on, and it can only
hold so much, until somebody is admitted or gives up, and that happens to each job but once.

## What is here

* `Limiter.gap`, how far the pools are from being full, and what a look in vain does to it
  (`Limiter.Sound.gap_lt`);
* `Job.Outcome`, what a turn does to the work that is left of a job;
* `Run.Steady`, what holds of a workload at every step, and `Run.effort`, which every step makes
  less (`Run.Steady.advance`);
* `Run.exists_settle_isOver`: every workload comes to rest.
-/

set_option autoImplicit false

namespace DriveDelta

open Number

/-! ## Pools that are looked at in vain -/

namespace Pool

/-- A pool was last used at this time, or at least a tick of the clock before. -/
def Timely {α : Type} (now : Nat) (p : Pool α) : Prop :=
  p.filledAt = now ∨ p.filledAt + Nanos.milli ≤ now

theorem Timely.later {α : Type} {p : Pool α} {now later : Nat} (h : p.Timely now)
    (hlater : now + Nanos.milli ≤ later) : p.filledAt + Nanos.milli ≤ later := by
  rcases h with h | h <;> omega

section Uses

variable {α : Type} [Number α] {p q : Pool α} {now cost : Nat}

theorem Timely.credited (h : p.Timely now) (hq : p.Credited now q) : q.Timely now := by
  cases hq with
  | refl => exact h
  | filled => exact .inl rfl

theorem Timely.accrued (h : p.Timely now) (hq : p.Accrued now q) : q.Timely now := by
  cases hq with
  | credited hq => exact h.credited hq
  | paced => exact .inl rfl

theorem Timely.paid (h : p.Timely now) (hq : p.Paid cost now q) : q.Timely now := by
  obtain ⟨p', hp', -, rfl⟩ := hq.credited
  have htimely : p'.Timely now := h.credited hp'
  exact htimely

end Uses

variable {p q : Pool Double} {now cost : Nat}

/-- How far a pool is from being full, in steps of its doubles. -/
def gap (p : Pool Double) : Nat := (Double.ofNat p.capacity).magnitude - p.tokens.magnitude

theorem Sound.gap_le (h : p.Sound) (hq : p.Accrued now q) : q.gap ≤ p.gap := by
  rw [gap, gap, hq.capacity_eq]
  exact Nat.sub_le_sub_left (h.accrued hq).2 _

theorem Sound.gap_lt (h : p.Sound) (hq : p.Accrued now q) (hlater : p.filledAt + Nanos.milli ≤ now)
    (hlacks : q.Lacks cost now) : q.gap < p.gap := by
  have hlt := h.lt_of_later hlater hq hlacks
  have hfull := (h.accrued hq).1.lt_capacity hlacks
  rw [hq.capacity_eq] at hfull
  rw [gap, gap, hq.capacity_eq]
  omega

end Pool

namespace Limiter

/-- The places where a limiter may have a pool. -/
def places : List (ServiceClass × PoolKind) :=
  [(.standard, .static), (.standard, .sliding), (.bulkContainer, .static),
    (.bulkContainer, .sliding)]

theorem mem_places (c : ServiceClass) (k : PoolKind) : (c, k) ∈ places := by
  cases c <;> cases k <;> simp [places]

/-- Every pool was last used at this time, or at least a tick of the clock before. -/
def Timely {α : Type} (now : Nat) (l : Limiter α) : Prop :=
  ∀ c k, (l.pool c k).Timely now

/-- How far the pools are from being full. -/
def gap (l : Limiter Double) : Nat := (places.map fun x => (l.pool x.1 x.2).gap).sum

/-- Whether some pool was used at this time. -/
def touched (now : Nat) (l : Limiter Double) : Bool :=
  places.any fun x => decide ((l.pool x.1 x.2).filledAt = now)

variable {l l' : Limiter Double} {c : ServiceClass} {k : PoolKind} {now cost : Nat}

theorem touched_of_filledAt (h : (l.pool c k).filledAt = now) : l.touched now = true :=
  List.any_eq_true.2 ⟨(c, k), mem_places c k, by simpa using h⟩

theorem Timely.touched_later {later : Nat} (h : l.Timely now)
    (hlater : now + Nanos.milli ≤ later) : l.touched later = false := by
  refine List.any_eq_false.2 fun x _ => ?_
  have hpool := (h x.1 x.2).later hlater
  simp only [Nanos.milli] at hpool
  simp only [decide_eq_true_eq]
  omega

theorem Timely.moved {later : Nat} (h : l.Timely now) (hlater : now + Nanos.milli ≤ later) :
    l.Timely later := fun c k => .inr ((h c k).later hlater)

theorem Timely.idles (h : l.Timely now) (hl : l.Idles now l') : l'.Timely now :=
  fun c k => (h c k).accrued (hl.accrued c k)

theorem Timely.admits (h : l.Timely now) (hl : l.Admits c k cost now l') : l'.Timely now :=
  hl.forall_pools h ((h c k).paid hl.paid)

theorem Timely.looked {status : Option CancelReason} {turn : Turn} (h : l.Timely now)
    (hl : Looked c k cost now l status l' turn) : l'.Timely now := by
  cases hl with
  | cancelled reason => exact h
  | granted hl => exact h.admits hl
  | asleep hl => exact h.idles hl

/-- Uses that take nothing leave the pools no emptier. -/
theorem Sound.gap_le (h : l.Sound) (hl : l.Idles now l') : l'.gap ≤ l.gap :=
  List.sum_le_sum fun x _ => (h x.1 x.2).gap_le (hl.accrued x.1 x.2)

/-- A pool that is found lacking has gained tokens since it was last used. -/
theorem Sound.gap_lt (h : l.Sound) (hl : l.Idles now l')
    (hlater : (l.pool c k).filledAt + Nanos.milli ≤ now) (hlacks : (l'.pool c k).Lacks cost now) :
    l'.gap < l.gap :=
  List.sum_lt_sum _ _ (fun x _ => (h x.1 x.2).gap_le (hl.accrued x.1 x.2))
    ⟨(c, k), mem_places c k, (h c k).gap_lt (hl.accrued c k) hlater hlacks⟩

end Limiter

/-! ## What a turn of a job comes to -/

/-- How a look ends, whether by a newcomer or by one who has been asleep. -/
theorem Limiter.visit_looked {α : Type} [Number α] {l : Limiter α} {c : ServiceClass}
    {k : PoolKind} {cost now : Nat} {status : Option CancelReason} {asleep : Option Nat}
    {r : Pool α × Turn} (hk : l.Has c k)
    (h : (l.pool c k).visit cost now status asleep = some r) :
    Looked c k cost now l status (l.setPool c k r.1) r.2 ∧
      ∀ until_ ∈ asleep, status.isSome ∨ until_ ≤ now := by
  have hvisit := l.visit_eq c k cost now status asleep
  rw [h, Option.map_some] at hvisit
  cases asleep with
  | none =>
    obtain ⟨hl, hturn⟩ := Prod.mk.inj (Option.some_inj.1 hvisit)
    refine ⟨?_, by simp⟩
    rw [← hl, ← hturn]
    exact arrive_looked hk cost now status
  | some until_ =>
    obtain ⟨q, hq, heq⟩ := Option.map_eq_some_iff.1 hvisit
    obtain ⟨t, ht, rfl⟩ := Option.map_eq_some_iff.1 hq
    obtain ⟨hl, hturn⟩ := Prod.mk.inj heq
    obtain ⟨hdue, hlooked⟩ := resume_looked hk ht
    refine ⟨?_, fun u hu => ?_⟩
    · rw [← hl, ← hturn]
      exact hlooked
    · obtain rfl := Option.some_inj.1 hu
      exact hdue

namespace Job

variable {g : Glance} {l l' : Limiter Double} {j : Job} {s : Job ⊕ Result}

/-- The turns that a job still needs, other than looks in vain. -/
def work (j : Job) : Nat :=
  match j.phase with
  | .arriving => 3
  | .asleep _ => 2
  | .holding .. => 1

theorem work_pos (j : Job) : 0 < j.work := by
  rw [work]
  split <;> decide

theorem work_le (j : Job) : j.work ≤ 3 := by
  rw [work]
  split <;> decide

/-- What a turn of a job comes to. -/
inductive Outcome (now : Nat) (l : Limiter Double) (j : Job) (l' : Limiter Double)
    (s : Job ⊕ Result) : Prop where
  | ended {result : Result} (hs : s = .inr result)
  /-- It has got further. -/
  | further {j' : Job} (hs : s = .inl j') (hwork : j'.work < j.work)
  /-- It has looked at a pool in vain, once more. -/
  | vain {j' : Job} {until_ until' cost : Nat} {c : ServiceClass} {k : PoolKind}
    (hs : s = .inl j') (hphase : j.phase = .asleep until_) (hdue : until_ ≤ now)
    (hphase' : j'.phase = .asleep until') (hlater : now + Nanos.milli ≤ until')
    (hl : l.Idles now l') (hlacks : (l'.pool c k).Lacks cost now)

theorem Stepped.outcome (h : j.Stepped g l l' s) : Outcome g.now l j l' s := by
  cases h with
  | completed => exact .ended rfl
  | @asked asleep r a hphase ha hr =>
    have hk : l.Has a.serviceClass a.kind := ha ▸ j.has_wants _ l
    obtain ⟨hlooked, hdue⟩ := Limiter.visit_looked hk hr
    generalize l.setPool a.serviceClass a.kind r.1 = l' at hlooked
    cases hturn : r.2 with
    | cancelled reason => exact .ended rfl
    | granted =>
      cases hcompletion : j.completion with
      | none =>
        have hnext : j.next g.now a .granted = .inr (.ok a, g.now) := by
          simp only [next, proceed.eq_def, hcompletion]
        exact .ended hnext
      | some completion =>
        have hnext : j.next g.now a .granted =
            .inl { j with phase := .holding a g.now (Nanos.wake g.now completion.1) } := by
          simp only [next, proceed.eq_def, hcompletion]
        refine .further hnext ?_
        cases asleep <;> simp [work, hphase, Phase.asking]
    | asleep until' =>
      rw [hturn] at hlooked
      cases asleep with
      | none => exact .further rfl (by simp [work, hphase, Phase.asking])
      | some until_ =>
        generalize hstatus : g.status = status at hlooked hdue
        cases hlooked with
        | asleep hl hlacks hlater =>
          refine .vain rfl (hphase.trans rfl) ?_ rfl hlater hl hlacks
          exact (hdue until_ rfl).resolve_left (by simp)

/-- What is kept by every look and by every completion is kept by every turn. -/
theorem Stepped.keeps {P : Limiter Double → Prop}
    (hlooked : ∀ {c k cost status l' turn}, Limiter.Looked c k cost g.now l status l' turn → P l')
    (hidles : ∀ {l'}, l.Idles g.now l' → P l') (h : j.Stepped g l l' s) : P l' := by
  cases h with
  | @asked asleep r a hphase ha hr =>
    have hk : l.Has a.serviceClass a.kind := ha ▸ j.has_wants _ l
    exact hlooked (Limiter.visit_looked hk hr).1
  | @completed a since until_ hphase hdue =>
    cases hcompletion : j.completion with
    | none => simpa only [complete, hcompletion] using hidles (.refl l g.now)
    | some completion =>
      have hl := l.complete_idles a.serviceClass a.kind completion.2 g.now
      simpa only [complete, hcompletion] using hidles hl

/-- Every turn leaves a sound limiter. -/
theorem Stepped.sound (h : j.Stepped g l l' s) (hs : l.Sound) : l'.Sound :=
  h.keeps hs.looked hs.idles

theorem Stepped.timely (h : j.Stepped g l l' s) (ht : l.Timely g.now) : l'.Timely g.now :=
  h.keeps ht.looked ht.idles

/-- A job that can go on can still do so when its context is done. -/
theorem isSome_step_mono {g g' : Glance} {l l' : Limiter Double} (hnow : g'.now = g.now)
    (hstatus : g.status.isSome = true → g'.status.isSome = true)
    (h : (machine.step g l j).isSome = true) : (machine.step g' l' j).isSome = true := by
  rw [isSome_step] at h ⊢
  rw [hnow]
  cases hphase : j.phase with
  | arriving => rfl
  | asleep until_ =>
    simp only [hphase, Bool.or_eq_true] at h ⊢
    exact h.imp_left hstatus
  | holding a since until_ =>
    simp only [hphase] at h ⊢
    exact h

end Job

/-! ## The effort that is left -/

namespace Member

/-- The turns that a member of a workload still needs, other than looks in vain. -/
def work : Member Job → Nat
  | .later .. => 6
  | .active _ _ j => j.work
  | .cancelAfter .. => 2
  | .cancelAt .. => 1

theorem work_pos (x : Member Job) : 0 < x.work := by
  cases x with
  | active me context j => exact j.work_pos
  | later => exact Nat.succ_pos _
  | cancelAfter => exact Nat.succ_pos _
  | cancelAt => exact Nat.succ_pos _

/-- Whether a member has slept long enough. -/
def isDue (now : Nat) : Member Job → Bool
  | .active _ _ j => match j.phase with
    | .asleep until_ => decide (until_ ≤ now)
    | _ => false
  | _ => false

/-- How many of the times that a member waits for are ahead. -/
def ahead (now : Nat) (x : Member Job) : Nat :=
  (x.alarms Job.machine).countP (now < Nanos.tick ·)

/-- What a member may still do before a pool is credited again.  One that has slept long enough may
look in vain, and then waits for one more time that is ahead. -/
def unrest (now : Nat) (touched : Bool) (x : Member Job) : Nat :=
  (if touched && x.isDue now then 4 else 0) + x.ahead now

theorem unrest_le (now : Nat) (touched : Bool) (x : Member Job) :
    x.unrest now touched ≤ x.unrest now true := by
  rw [unrest, unrest]
  cases touched <;> simp

theorem ahead_mono {now t : Nat} (h : now ≤ t) (x : Member Job) : x.ahead t ≤ x.ahead now :=
  List.countP_mono_left fun a _ ha => by
    simp only [decide_eq_true_eq] at ha ⊢
    omega

/-- When the clock reaches a time that a member waits for, fewer of them are ahead. -/
theorem ahead_lt {now t a : Nat} (h : now < t) {x : Member Job} (ha : a ∈ x.alarms Job.machine)
    (ht : Nanos.tick a = t) : x.ahead t < x.ahead now := by
  have hfilter : (x.alarms Job.machine).filter (t < Nanos.tick ·) =
      ((x.alarms Job.machine).filter (now < Nanos.tick ·)).filter (t < Nanos.tick ·) := by
    rw [List.filter_filter]
    refine List.filter_congr fun b _ => ?_
    rw [Bool.eq_iff_iff]
    simp only [Bool.and_eq_true, decide_eq_true_eq]
    omega
  rw [ahead, ahead, List.countP_eq_length_filter, List.countP_eq_length_filter, hfilter]
  exact List.length_filter_lt_length_iff_exists.2
    ⟨a, List.mem_filter.2 ⟨ha, by simpa [ht] using h⟩, by simp [ht]⟩

/-- Once a pool has been looked at, a look in vain makes up for the time that it puts ahead. -/
theorem unrest_of_vain {now until_ until' : Nat} {j j' : Job} (me : Nat) (context : Context)
    (touched : Bool) (hphase : j.phase = .asleep until_) (hdue : until_ ≤ now)
    (hphase' : j'.phase = .asleep until') (hlater : now + Nanos.milli ≤ until') :
    unrest now touched (.active me context j') + 3 ≤ unrest now true (.active me context j) := by
  have hasleep : ¬until' ≤ now := by simp only [Nanos.milli] at hlater; omega
  have hahead : ahead now (.active me context j') ≤ ahead now (.active me context j) + 1 := by
    simp only [ahead, alarms, Job.machine, hphase, hphase', List.countP_append]
    have hone : List.countP (now < Nanos.tick ·) [until'] ≤ 1 := List.countP_le_length
    omega
  simp only [unrest, isDue, hphase, hphase', hdue, hasleep, decide_true, decide_false,
    Bool.and_false, Bool.and_true, Bool.false_eq_true, if_true, if_false]
  omega

end Member

namespace Run

variable {r r' : Run (Limiter Double) Job Job.Result} {x : Member Job}

/-- The turns that the members of a workload still need, other than looks in vain. -/
def load (r : Run (Limiter Double) Job Job.Result) : Nat := (r.members.map Member.work).sum

/-- What lies between the member that has the turn and the next one. -/
def pause (r : Run (Limiter Double) Job Job.Result) : Nat :=
  match r.turn with
  | none => 1
  | some x => if r.isAble Job.machine x then 0 else 2

theorem pause_le (r : Run (Limiter Double) Job Job.Result) : r.pause ≤ 2 := by
  rw [pause]
  split
  · decide
  · split <;> decide

theorem pause_of_able (ht : r'.turn = some x) (hstage : r'.stage = r.stage)
    (hshared : r'.shared = r.shared) (h : r.isAble Job.machine x = true) : r'.pause = 0 := by
  simp only [pause, ht, isAble_congr hstage hshared, h, if_true]

/-- What may still happen before a pool is credited again. -/
def unrest (r : Run (Limiter Double) Job Job.Result) : Nat :=
  (r.members.map (Member.unrest r.stage.now (r.shared.touched r.stage.now))).sum + r.pause

/-- The effort that is left: turns that get a member further, then looks that find more in a pool
than the last one left, then everything else. -/
def effort (r : Run (Limiter Double) Job Job.Result) : ℕ ×ₗ ℕ ×ₗ ℕ :=
  toLex (r.load, toLex (r.shared.gap, r.unrest))

theorem effort_lt_of_load (h : r'.load < r.load) : r'.effort < r.effort :=
  Prod.Lex.toLex_lt_toLex.2 (.inl h)

theorem effort_lt (hload : r'.load = r.load) (hgap : r'.shared.gap ≤ r.shared.gap)
    (h : r'.shared.gap < r.shared.gap ∨ r'.unrest < r.unrest) : r'.effort < r.effort := by
  refine Prod.Lex.toLex_lt_toLex.2 (.inr ⟨hload, Prod.Lex.toLex_lt_toLex.2 ?_⟩)
  rcases Nat.lt_or_eq_of_le hgap with hlt | heq
  · exact .inl hlt
  · exact .inr ⟨heq, h.resolve_left (by simp [heq])⟩

/-- What holds of a workload at every step. -/
structure Steady (r : Run (Limiter Double) Job Job.Result) : Prop where
  unled : r.leader = none
  aligned : Nanos.tick r.stage.now = r.stage.now
  sound : r.shared.Sound
  timely : r.shared.Timely r.stage.now
  able : ∀ x ∈ r.ready, r.isAble Job.machine x = true

theorem Steady.of_same {q : Run (Limiter Double) Job Job.Result} (hs : r.Steady)
    (hlead : q.leader = none) (hstage : q.stage = r.stage) (hshared : q.shared = r.shared)
    (hable : ∀ x ∈ q.ready, r.isAble Job.machine x = true) : q.Steady where
  unled := hlead
  aligned := hstage ▸ hs.aligned
  sound := hshared ▸ hs.sound
  timely := hstage ▸ hshared ▸ hs.timely
  able x hx := (isAble_congr hstage hshared x).trans (hable x hx)

/-- A member that can go on still can after the turn of another. -/
theorem Keeps.isAble (h : Keeps r r') (hx : r.isAble Job.machine x = true) :
    r'.isAble Job.machine x = true := by
  cases x with
  | later me start recipe body =>
    rw [isAble_later] at hx ⊢
    rwa [h.now_eq]
  | active me context body =>
    rw [isAble_active] at hx ⊢
    exact Job.isSome_step_mono h.now_eq
      (Context.status_mono (h.isCancelled _) (Nat.le_of_eq h.now_eq.symm)) hx
  | cancelAfter token span => exact isAble_cancelAfter _ _ _ _
  | cancelAt token due =>
    rw [isAble_cancelAt] at hx ⊢
    rwa [h.now_eq]

/-- What the turn of a job that does not end does to the effort that is left. -/
theorem effort_lt_of_outcome (hs : r.Steady) {me : Nat} {context : Context} {j j' : Job}
    (ht : r.turn = some (.active me context j)) (ht' : r'.turn = some (.active me context j'))
    (hready : r'.ready = r.ready) (hline : r'.line = r.line)
    (hnow : r'.stage.now = r.stage.now) (hable : r.isAble Job.machine (.active me context j) = true)
    (h : Job.Outcome r.stage.now r.shared j r'.shared (.inl j')) : r'.effort < r.effort := by
  have hmembers := members_of_turn ht
  have hmembers' := members_of_turn ht'
  rw [hready, hline] at hmembers'
  generalize hj'' : (Sum.inl j' : Job ⊕ Job.Result) = s at h
  cases h with
  | ended hend => exact absurd (hj''.trans hend) (by simp)
  | further hfurther hwork =>
    obtain rfl := Sum.inl.inj (hj''.trans hfurther)
    refine effort_lt_of_load ?_
    rw [load, load, hmembers, hmembers', List.map_cons, List.map_cons, List.sum_cons, List.sum_cons]
    exact Nat.add_lt_add_right hwork _
  | @vain _ until_ until' cost c k heq hphase hdue hphase' hlater hl hlacks =>
    obtain rfl := Sum.inl.inj (hj''.trans heq)
    refine effort_lt ?_ (hs.sound.gap_le hl) ?_
    · rw [load, load, hmembers, hmembers']
      simp only [List.map_cons, Member.work, Job.work, hphase, hphase']
    · rcases hs.timely c k with htouched | huntouched
      · -- the pool has been looked at before, so this one was due and sleeps again
        have hdrop := Member.unrest_of_vain me context (r'.shared.touched r.stage.now)
          hphase hdue hphase' hlater
        have hothers : ((r.ready ++ r.line).map
              (Member.unrest r.stage.now (r'.shared.touched r.stage.now))).sum ≤
            ((r.ready ++ r.line).map (Member.unrest r.stage.now true)).sum :=
          List.sum_le_sum fun x _ => x.unrest_le _ _
        have hpause' := r'.pause_le
        right
        rw [unrest, unrest, hmembers, hmembers', hnow, Limiter.touched_of_filledAt htouched,
          pause_of_able ht rfl rfl hable]
        simp only [List.map_cons, List.sum_cons]
        omega
      · exact .inl (hs.sound.gap_lt hl huntouched hlacks)

theorem load_eq (r : Run (Limiter Double) Job Job.Result) :
    r.load = (r.turn.toList.map Member.work).sum + (r.ready.map Member.work).sum +
      (r.line.map Member.work).sum := by
  rw [load, members, List.map_append, List.map_append, List.sum_append, List.sum_append]

/-- The turns of members other than the tasks that have started leave the limiter alone. -/
theorem load_lt_of_play (ht : r.turn = some x) (hx : x.number? = none)
    (hp : r.play Job.machine x = some r') : r'.shared = r.shared ∧ r'.load < r.load := by
  have hload := r.load_eq
  rw [ht, Option.toList_some, List.map_singleton, List.sum_singleton] at hload
  rw [hload, r'.load_eq]
  cases played_of_play hp with
  | @started me start recipe deadline j =>
    refine ⟨rfl, ?_⟩
    have hwork := j.work_le
    have hcancel : ((recipe.cancelAfter.map
        (Member.cancelAfter r.stage.forest.size : Nat → Member Job)).toList.map
          Member.work).sum ≤ 2 := by
      cases recipe.cancelAfter <;> simp [Member.work]
    simp only [started, Option.toList_some, List.map_append, List.sum_append, List.map_singleton,
      List.sum_singleton, Member.work]
    omega
  | lost =>
    refine ⟨rfl, ?_⟩
    simp only [Option.toList_none, List.map_nil, List.sum_nil, Member.work]
    omega
  | goesOn => exact absurd hx (by simp [Member.number?])
  | ends => exact absurd hx (by simp [Member.number?])
  | waits =>
    refine ⟨rfl, ?_⟩
    simp only [Option.toList_none, List.map_nil, List.sum_nil, List.map_append, List.sum_append,
      List.map_singleton, List.sum_singleton, Member.work]
    omega
  | cancels htask =>
    refine ⟨rfl, ?_⟩
    have hwork := x.work_pos
    simp only [cancel, Option.toList_none, List.map_nil, List.sum_nil]
    omega

/-- The turn of a task that has started. -/
theorem Steady.play_active (hs : r.Steady) {me : Nat} {context : Context} {j : Job}
    (ht : r.turn = some (.active me context j))
    (hp : r.play Job.machine (.active me context j) = some r') :
    r'.shared.Sound ∧ r'.shared.Timely r.stage.now ∧ r'.effort < r.effort := by
  have hable := isAble_of_play hp
  rw [play_started fun p hp => (Job.stepped_of_step hp).1] at hp
  obtain ⟨p, hstep, rfl⟩ := Option.map_eq_some_iff.1 hp
  have hstepped := (Job.stepped_of_step hstep).2
  have houtcome := hstepped.outcome
  have hsound := hstepped.sound hs.sound
  have htimely := hstepped.timely hs.timely
  refine ⟨hsound, htimely, ?_⟩
  cases hstate : p.state with
  | inl j' =>
    rw [hstate] at houtcome
    exact effort_lt_of_outcome hs ht rfl rfl rfl rfl hable houtcome
  | inr result =>
    refine effort_lt_of_load ?_
    have hwork := j.work_pos
    rw [load_eq, load_eq, ht]
    simp only [Sum.elim_inr, Option.toList_none, Option.toList_some, List.map_nil,
      List.sum_nil, List.map_singleton, List.sum_singleton, Member.work]
    omega

/-- **The turn of a member keeps what holds of a workload and takes some of the effort.** -/
theorem Steady.play (hs : r.Steady) (ht : r.turn = some x)
    (hp : r.play Job.machine x = some r') : r'.Steady ∧ r'.effort < r.effort := by
  have hkeeps := keeps_of_play hp
  have hlimiter : r'.shared.Sound ∧ r'.shared.Timely r.stage.now ∧ r'.effort < r.effort := by
    cases x with
    | active me context j => exact hs.play_active ht hp
    | _ =>
      obtain ⟨hshared, hload⟩ := load_lt_of_play ht rfl hp
      exact ⟨hshared ▸ hs.sound, hshared ▸ hs.timely, effort_lt_of_load hload⟩
  have hable : ∀ y ∈ r'.ready, r'.isAble Job.machine y = true := by
    intro y hy
    rcases hkeeps.ready y hy with hy | ⟨token, span, rfl⟩
    · exact hkeeps.isAble (hs.able y hy)
    · exact isAble_cancelAfter _ _ _ _
  refine ⟨⟨hkeeps.leader_eq.trans hs.unled, ?_, hlimiter.1, ?_, hable⟩, hlimiter.2.2⟩
  · rw [hkeeps.now_eq, hs.aligned]
  · rw [hkeeps.now_eq]
    exact hlimiter.2.1

/-! ## Rest -/

/-- Two clock times are a tick apart. -/
theorem Steady.milli_le_nextTime (hs : r.Steady) {t : Nat} (h : r.nextTime Job.machine = some t) :
    r.stage.now + Nanos.milli ≤ t ∧ Nanos.tick t = t := by
  obtain ⟨⟨hlater, x, -, a, -, rfl⟩, -⟩ := nextTime_eq_some.1 h
  refine ⟨?_, Nanos.tick_tick a⟩
  have haligned := hs.aligned
  simp only [Nanos.tick, Nanos.milli] at haligned hlater ⊢
  omega

/-- The jump of the clock. -/
theorem Steady.jump (hs : r.Steady) (ht : r.turn = none) (hready : r.ready = []) {t : Nat}
    (hnext : r.nextTime Job.machine = some t) :
    let q : Run (Limiter Double) Job Job.Result := { r with stage := r.stage.moveTo t }
    (q.gather Job.machine).Steady ∧ (q.gather Job.machine).effort < r.effort := by
  obtain ⟨hlater, htick⟩ := hs.milli_le_nextTime hnext
  intro q
  have hunled : q.leader = none := hs.unled
  have hmembers : (q.gather Job.machine).members.Perm r.members := members_gather Job.machine q
  constructor
  · refine ⟨hs.unled, htick, hs.sound, hs.timely.moved hlater, fun y hy => ?_⟩
    rw [isAble_gather]
    exact (able_of_mem_gather hunled hy).resolve_left (by simp [q, hready])
  · refine effort_lt (hmembers.map _).sum_nat (Nat.le_refl _) (.inr ?_)
    obtain ⟨⟨hahead, x, hx, a, ha, hat⟩, -⟩ := nextTime_eq_some.1 hnext
    have huntouched : r.shared.touched t = false := hs.timely.touched_later hlater
    -- nobody is due before a pool is credited at the new time
    have hle (y : Member Job) : y.unrest t (r.shared.touched t) ≤
        y.unrest r.stage.now (r.shared.touched r.stage.now) := by
      have hmono := y.ahead_mono (Nat.le_of_lt hahead)
      simp only [Member.unrest, huntouched, Bool.false_and, Bool.false_eq_true, if_false]
      omega
    have hlt : x.unrest t (r.shared.touched t) <
        x.unrest r.stage.now (r.shared.touched r.stage.now) := by
      have hmono := Member.ahead_lt hahead ha hat
      simp only [Member.unrest, huntouched, Bool.false_and, Bool.false_eq_true, if_false]
      omega
    have hsum := List.sum_lt_sum (l := r.members) _ _ (fun y _ => hle y)
      ⟨x, List.mem_append_right _ hx, hlt⟩
    have hperm := (hmembers.map (Member.unrest t (r.shared.touched t))).sum_nat
    have hpause : (q.gather Job.machine).pause = r.pause := by
      have hturn : (q.gather Job.machine).turn = none := ht
      rw [pause, pause, hturn, ht]
    rw [unrest, unrest, hpause]
    exact Nat.add_lt_add_right (hperm.trans_lt hsum) _

/-- **Every step of a workload keeps what holds of it and takes some of the effort.** -/
theorem Steady.advance (hs : r.Steady) (h : r.Advances Job.machine r') :
    r'.Steady ∧ r'.effort < r.effort := by
  cases h with
  | played ht hp => exact hs.play ht hp
  | @blocked x ht hp =>
    have hmembers := members_blocked ht
    refine ⟨hs.of_same hs.unled rfl rfl hs.able, ?_⟩
    refine effort_lt (hmembers.map _).sum_nat (Nat.le_refl _) (.inr ?_)
    have hpause : r.pause = 2 := by simp only [pause, ht, hp, Bool.false_eq_true, if_false]
    rw [unrest, unrest, hpause]
    exact Nat.add_lt_add_of_le_of_lt (Nat.le_of_eq (hmembers.map _).sum_nat) (by simp [pause])
  | @called x ready ht hover hready =>
    have hmembers := members_called ht hready
    have hable : ∀ y ∈ x :: ready, r.isAble Job.machine y = true := fun y hy =>
      (able_of_mem_gather hs.unled (hready ▸ hy)).elim (hs.able y) id
    refine ⟨hs.of_same hs.unled rfl rfl fun y hy => hable y (List.mem_cons_of_mem _ hy), ?_⟩
    refine effort_lt (hmembers.map _).sum_nat (Nat.le_refl _) (.inr ?_)
    have hpause : r.pause = 1 := by simp only [pause, ht]
    have hpause' : ({ r.gather Job.machine with turn := some x, ready } :
        Run (Limiter Double) Job Job.Result).pause = 0 :=
      pause_of_able (r := r) rfl rfl rfl (hable x List.mem_cons_self)
    rw [unrest, unrest, hpause, hpause']
    exact Nat.add_lt_add_of_le_of_lt (Nat.le_of_eq (hmembers.map _).sum_nat) Nat.one_pos
  | jumped ht hover hready hunable hnext => exact hs.jump ht hready hnext

/-- A task that cannot go on waits for a time that is ahead. -/
theorem exists_alarm_of_unable (htask : x.isTask = true) (h : r.isAble Job.machine x = false) :
    ∃ a ∈ x.alarms Job.machine, r.stage.now < Nanos.tick a := by
  cases x with
  | later me start recipe j =>
    simp only [isAble_later, decide_eq_false_iff_not, not_le] at h
    exact ⟨start, by simp [Member.alarms], Nat.lt_of_lt_of_le h (Nanos.le_tick start)⟩
  | active me context j =>
    rw [isAble_active, Job.isSome_step] at h
    cases hphase : j.phase with
    | arriving => simp [hphase] at h
    | asleep until_ =>
      simp only [hphase, Bool.or_eq_false_iff, decide_eq_false_iff_not, not_le] at h
      exact ⟨until_, by simp [Member.alarms, Job.machine, hphase],
        Nat.lt_of_lt_of_le h.2 (Nanos.le_tick until_)⟩
    | holding a since until_ =>
      simp only [hphase, decide_eq_false_iff_not, not_le] at h
      exact ⟨until_, by simp [Member.alarms, Job.machine, hphase],
        Nat.lt_of_lt_of_le h (Nanos.le_tick until_)⟩
  | cancelAfter token span => exact absurd htask (by simp [Member.isTask])
  | cancelAt token due => exact absurd htask (by simp [Member.isTask])

/-- A workload that is not over takes another step. -/
theorem Steady.isOver_of_advance (hs : r.Steady) (h : r.advance Job.machine = none) :
    r.isOver = true := by
  by_contra hover
  rw [Bool.not_eq_true] at hover
  cases ht : r.turn with
  | some x => exact absurd h (by simp [advance_of_turn ht])
  | none =>
    cases hready : (r.gather Job.machine).ready with
    | cons x ready => exact absurd h (by simp [advance_called ht hover hready])
    | nil =>
      obtain ⟨hnobody, hunable, -⟩ := gather_of_ready_eq_nil hs.unled hready
      rw [advance_of_ready_eq_nil hs.unled ht hover hready, Option.map_eq_none_iff,
        nextTime_eq_none] at h
      have htask : ∃ x ∈ r.line, x.isTask = true := by
        by_contra hnone
        refine absurd (isOver_iff.2 ⟨ht, fun x hx => ?_⟩) (by simp [hover])
        rw [members_of_none ht, hnobody] at hx
        simpa using fun htask => hnone ⟨x, hx, htask⟩
      obtain ⟨x, hx, htask⟩ := htask
      obtain ⟨a, ha, hahead⟩ := exists_alarm_of_unable htask (hunable x hx)
      exact absurd (h x hx a ha) (Nat.not_le.2 hahead)

/-- **A workload that is under way comes to rest.** -/
theorem Steady.exists_settle_isOver (hs : r.Steady) :
    ∃ n, (r.settle Job.machine n).isOver = true := by
  induction heffort : r.effort using WellFoundedLT.induction generalizing r with
  | ind effort ih =>
    cases h : r.advance Job.machine with
    | none => exact ⟨0, hs.isOver_of_advance h⟩
    | some r' =>
      obtain ⟨hs', hlt⟩ := hs.advance (advances_of_advance hs.unled h)
      obtain ⟨n, hn⟩ := ih r'.effort (heffort ▸ hlt) hs' rfl
      exact ⟨n + 1, by rw [settle, h]; exact hn⟩

/-- **Every workload comes to rest.** -/
theorem exists_settle_isOver {cfg : LimiterConfig Double}
    (hcfg : ∀ c, (cfg.pool c).capacity ≤ maxCount) (jobs : List (Nat × Recipe × Job)) :
    ∃ n, ((Run.launch { shared := Limiter.new cfg 0 } jobs : Run (Limiter Double) Job
      Job.Result).settle Job.machine n).isOver = true := by
  refine Steady.exists_settle_isOver ⟨rfl, (by decide : Nanos.tick 0 = 0), .new hcfg 0, ?_, ?_⟩
  · exact fun c k => .inl (by rw [launch, Limiter.pool_new]; rfl)
  · simp [launch]

end Run

end DriveDelta
