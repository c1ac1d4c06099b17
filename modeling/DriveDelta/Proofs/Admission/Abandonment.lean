import DriveDelta.Proofs.Admission.Rest
import DriveDelta.Proofs.Rehearsal.Launching
import DriveDelta.Proofs.Rehearsal.Substitutes

/-!
# A call that is given up costs nothing

A caller whose context is done before its call is granted has done nothing but look at the pool.  If
somebody with the same context looks at the tokens available instead, at the times at which the call
tried to take some, and rests in between as long as the call did, then everybody else is served as
before, whatever they do with the limiter.

The rests are those that the pool named to the call, so they are read off its rehearsal.  The two
rehearsals go in lockstep: as long as the call waits, it waits for what the other one waits for, and
a try in vain leaves what a look leaves.

## What is here

* `Limiter.look` and `Limiter.Spared`, what a look leaves alone;
* `Job.Tried`, what a turn of a call comes to before it is granted, and `Job.tries`, when there is
  such a turn;
* `Watch`, a caller that looks at the tokens available, and `Caller.machine`, jobs, watches and
  whoever else uses the limiter;
* `Caller.Costless`, what is meant by a call that costs nothing, and `Caller.Asks.couldLook`, by
  induction on the steps until it ends;
* `Caller.abandoned_costless`: a call that is given up costs nothing.
-/

set_option autoImplicit false

namespace DriveDelta

open Number

/-! ## Looks at the tokens available -/

/-- A limiter with all of its pools empty.  Two limiters that are alike in this way have the same
capacities, rates and counters. -/
def Limiter.drained (l : Limiter Double) : Limiter Double :=
  let drain (p : Pool Double) : Pool Double := { p with tokens := .zero, filledAt := 0 }
  let empty (ps : ClassPools Double) : ClassPools Double :=
    ⟨drain ps.static, ps.sliding.map fun a => { a with pool := drain a.pool }⟩
  ⟨empty l.standard, empty l.bulk⟩

namespace Limiter

/-- Look at the tokens available in a pool, which credits what has accrued. -/
def look {α : Type} [Number α] (l : Limiter α) (c : ServiceClass) (k : PoolKind) (now : Nat) :
    Limiter α := l.setPool c k ((l.pool c k).filled now)

/-- No tokens have been taken out, and no rate and no counter has changed. -/
structure Spared (l l' : Limiter Double) : Prop where
  tokens_le : ∀ c k, (l.pool c k).tokens.value ≤ (l'.pool c k).tokens.value
  drained_eq : l'.drained = l.drained

variable {l : Limiter Double} {c : ServiceClass} {k : PoolKind}

theorem Spared.refl (l : Limiter Double) : l.Spared l := ⟨fun _ _ => le_rfl, rfl⟩

theorem drained_look (l : Limiter Double) (c : ServiceClass) (k : PoolKind) (now : Nat) :
    (l.look c k now).drained = l.drained := by
  cases k with
  | static => cases c <;> rfl
  | sliding =>
    cases hs : (l.pools c).sliding with
    | none =>
      rw [look, setPool_sliding_of_none hs, pool, hs]
      cases c <;> rfl
    | some a =>
      rw [look, setPool_sliding hs, pool, hs]
      cases c <;> simp_all [drained, setPools, pools, Pool.filled]

theorem look_idles (hk : l.Has c k) (now : Nat) : l.Idles now (l.look c k now) :=
  idles_setPool hk (.filled .refl)

theorem Sound.spared_look (h : l.Sound) (hk : l.Has c k) (now : Nat) :
    l.Spared (l.look c k now) :=
  ⟨fun c' k' => ((look_idles hk now).accrued c' k').value_le (h c' k'), drained_look l c k now⟩

end Limiter

/-! ## Tries -/

/-- What a visit to a pool comes to.  A newcomer tries twice, but finds the same both times. -/
theorem Pool.Sound.visit_cases {p : Pool Double} {cost now : Nat} {status : Option CancelReason}
    {asleep : Option Nat} {r : Pool Double × Turn} (h : p.Sound)
    (hr : p.visit cost now status asleep = some r) :
    (∃ reason, status = some reason ∧ r = (p, .cancelled reason)) ∨
      status = none ∧ (∀ until_ ∈ asleep, until_ ≤ now) ∧
        ((∃ until_, r = (p.filled now, .asleep until_)) ∨ r.2 = .granted) := by
  have hturn (q : Pool Double) (hq : q.filled now = p.filled now) :
      (∃ until_, q.turn cost now none = (p.filled now, .asleep until_)) ∨
        (q.turn cost now none).2 = .granted := by
    rw [turn]
    rcases q.take_cases cost now with ⟨q', heq, -⟩ | ⟨span, heq, -⟩
    · exact .inr (by rw [heq])
    · exact .inl ⟨_, by rw [heq, hq]⟩
  cases asleep with
  | none =>
    obtain rfl := Option.some_inj.1 hr
    cases status with
    | some reason => exact .inl ⟨reason, rfl, rfl⟩
    | none =>
      refine .inr ⟨rfl, by simp, ?_⟩
      rw [enter]
      rcases p.take_cases cost now with ⟨q, heq, -⟩ | ⟨span, heq, -⟩
      · exact .inr (by rw [heq])
      · rw [heq]
        exact hturn _ (h.filled_filled now)
  | some until_ =>
    rw [visit, resume] at hr
    split at hr
    · rename_i hdue
      obtain rfl := Option.some_inj.1 hr
      cases status with
      | some reason => exact .inl ⟨reason, rfl, rfl⟩
      | none => exact .inr ⟨rfl, by simpa using hdue, hturn p rfl⟩
    · exact absurd hr (by simp)

namespace Job

variable {g : Glance} {l l' : Limiter Double} {j : Job} {asleep : Option Nat} {s : Job ⊕ Result}

/-- What a turn of a call comes to. -/
inductive Tried (g : Glance) (l : Limiter Double) (j : Job) (asleep : Option Nat) :
    Limiter Double → Job ⊕ Result → Prop where
  | cancelled {reason : CancelReason} (hstatus : g.status = some reason) :
    Tried g l j asleep l (.inr (.error (.cancelled reason), g.now))
  /-- It has tried in vain. -/
  | waits {until_ : Nat} (hstatus : g.status = none) (hdue : ∀ u ∈ asleep, u ≤ g.now) :
    Tried g l j asleep
      (l.look (j.wants g.context.options l).serviceClass (j.wants g.context.options l).kind g.now)
      (.inl { j with phase := .asleep until_ })
  | granted {l' : Limiter Double} :
    Tried g l j asleep l' (j.next g.now (j.wants g.context.options l) .granted)

theorem asking_injective : Function.Injective Phase.asking := by
  intro a b h
  cases a <;> cases b <;> simp_all [Phase.asking]

theorem asking_ne_holding {a : Admission} {since until_ : Nat} :
    Phase.asking asleep ≠ .holding a since until_ := by
  cases asleep <;> simp [Phase.asking]

theorem Stepped.tried (h : j.Stepped g l l' s) (hs : l.Sound) (hphase : j.phase = .asking asleep) :
    j.Tried g l asleep l' s := by
  cases h with
  | @asked asleep' r a hphase' ha hr =>
    obtain rfl := asking_injective (hphase.symm.trans hphase')
    subst ha
    rcases (hs _ _).visit_cases hr with
      ⟨reason, hstatus, rfl⟩ | ⟨hstatus, hdue, ⟨until_, rfl⟩ | hturn⟩
    · rw [Limiter.setPool_pool]
      exact .cancelled hstatus
    · exact .waits hstatus hdue
    · rw [hturn]
      exact .granted
  | completed hphase' => exact absurd (hphase.symm.trans hphase') asking_ne_holding

/-- A job that is granted what it asked for holds it or has ended. -/
theorem next_granted (j : Job) (now : Nat) (a : Admission) :
    (∃ j', j.next now a .granted = .inl j' ∧ ∃ a since until_, j'.phase = .holding a since until_) ∨
      j.next now a .granted = .inr (.ok a, now) := by
  cases hcompletion : j.completion with
  | none => exact .inr (by simp only [next, proceed, hcompletion])
  | some completion =>
    have hnext : j.next now a .granted =
        .inl { j with phase := .holding a now (Nanos.wake now completion.1) } := by
      simp only [next, proceed, hcompletion]
    exact .inl ⟨_, hnext, a, now, _, rfl⟩

/-- Whether a job tries to take tokens when it gets its turn. -/
def tries (now : Nat) (status : Option CancelReason) (j : Job) : Bool :=
  status.isNone && match j.phase with
    | .arriving => true
    | .asleep until_ => decide (until_ ≤ now)
    | .holding .. => false

theorem tries_of_asking {now : Nat} (hphase : j.phase = .asking asleep) :
    j.tries now none = asleep.all (decide <| · ≤ now) := by
  cases asleep <;> simp [tries, hphase, Phase.asking]

/-- A job that tries can go on. -/
theorem isSome_step_of_tries (h : j.tries g.now g.status = true) :
    (machine.step g l j).isSome = true := by
  rw [isSome_step]
  cases hphase : j.phase <;> simp_all [tries]

theorem isSome_step_of_asking (hphase : j.phase = .asking asleep) (g : Glance)
    (l : Limiter Double) : (machine.step g l j).isSome =
      (g.status.isSome || asleep.all (decide <| · ≤ g.now)) := by
  rw [isSome_step, hphase]
  cases asleep <;> simp [Phase.asking]

theorem alarms_of_asking (hphase : j.phase = .asking asleep) :
    machine.alarms j = asleep.toList := by
  simp only [machine, hphase]
  cases asleep <;> rfl

theorem keeps_sound : machine.Keeps Limiter.Sound :=
  fun _ _ _ _ hstep => (stepped_of_step hstep).2.sound

end Job

/-! ## Watches -/

/-- A caller that looks at the tokens available: at once, and again after each of its rests.  The
pool is the one that a job of this class would draw from. -/
structure Watch where
  serviceClass : Option ServiceClass := none
  /-- The times until which it rests after its looks. -/
  rests : List Nat
  asleep : Option Nat := none
  /-- What it has seen so far, and when. -/
  seen : List (Nat × Double) := []

namespace Watch

/-- What a watch has seen when it ends. -/
abbrev Result := List (Nat × Double)

/-- The pool that is looked at, by class and kind. -/
def place (w : Watch) (o : CallOptions) (l : Limiter Double) : ServiceClass × PoolKind :=
  let c := w.serviceClass.getD (o.serviceClass.getD .standard)
  (c, l.kind c o.sliding)

/-- A look. -/
def look (w : Watch) (g : Glance) (l : Limiter Double) : Progress (Limiter Double) Watch Result :=
  let x := w.place g.context.options l
  let l' := l.look x.1 x.2 g.now
  let seen := w.seen ++ [(g.now, (l'.pool x.1 x.2).tokens)]
  { shared := l'
    state :=
      match w.rests with
      | [] => .inr seen
      | until_ :: rests => .inl { w with rests, asleep := some until_, seen } }

/-- Callers that look at the tokens available until their context is done. -/
def machine : Machine (Limiter Double) Watch Result where
  step g l w :=
    if g.status.isSome then some { shared := l, state := .inr w.seen }
    else if w.asleep.all (decide <| · ≤ g.now) then some (w.look g l)
    else none
  alarms w := w.asleep.toList

variable {g : Glance} {l : Limiter Double} {w : Watch}

theorem step_of_status {reason : CancelReason} (h : g.status = some reason) :
    machine.step g l w = some { shared := l, state := .inr w.seen } := by
  simp [machine, h]

theorem step_of_due (h : g.status = none) (hdue : ∀ u ∈ w.asleep, u ≤ g.now) :
    machine.step g l w = some (w.look g l) := by
  have hall : w.asleep.all (decide <| · ≤ g.now) = true := by
    cases hw : w.asleep <;> simp_all
  simp [machine, h, hall]

theorem isSome_step (g : Glance) (l : Limiter Double) (w : Watch) :
    (machine.step g l w).isSome = (g.status.isSome || w.asleep.all (decide <| · ≤ g.now)) := by
  simp only [machine]
  cases g.status.isSome <;> cases w.asleep.all (decide <| · ≤ g.now) <;> rfl

theorem keeps_sound : machine.Keeps Limiter.Sound := by
  intro g l w p hstep hs
  have hlook : (w.look g l).shared.Sound :=
    hs.idles (Limiter.look_idles (l.has_kind _ _) g.now)
  simp only [machine] at hstep
  split at hstep
  · obtain rfl := Option.some_inj.1 hstep
    exact hs
  · split at hstep
    · obtain rfl := Option.some_inj.1 hstep
      exact hlook
    · exact absurd hstep (by simp)

end Watch

/-! ## Callers -/

/-- A caller of a limiter: a job, a watch, or one that does something else. -/
abbrev Caller (τ : Type) := Job ⊕ Watch ⊕ τ

namespace Caller

abbrev Result (ρ : Type) := Job.Result ⊕ Watch.Result ⊕ ρ

variable {τ ρ : Type}

/-- The callers of a limiter. -/
def machine (m : Machine (Limiter Double) τ ρ) :
    Machine (Limiter Double) (Caller τ) (Result ρ) := Job.machine.sum (Watch.machine.sum m)

/-- What a job does, as one of the callers. -/
abbrev ofJob (p : Progress (Limiter Double) Job Job.Result) :
    Progress (Limiter Double) (Caller τ) (Result ρ) := p.map .inl .inl

/-- What a watch does, as one of the callers. -/
abbrev ofWatch (p : Progress (Limiter Double) Watch Watch.Result) :
    Progress (Limiter Double) (Caller τ) (Result ρ) := (p.map .inl .inl).map .inr .inr

theorem step_job (m : Machine (Limiter Double) τ ρ) (g : Glance) (l : Limiter Double) (j : Job) :
    (machine m).step g l (.inl j) = (Job.machine.step g l j).map ofJob := rfl

theorem step_watch (m : Machine (Limiter Double) τ ρ) (g : Glance) (l : Limiter Double)
    (w : Watch) :
    (machine m).step g l (.inr (.inl w)) = (Watch.machine.step g l w).map ofWatch := by
  simp only [machine, Machine.sum, Option.map_map]
  rfl

/-- Whether a call was given up. -/
def abandoned : Result ρ → Bool
  | .inl (.error (.cancelled _), _) => true
  | _ => false

/-- The time at which a call tries to take tokens, if it has the turn and does. -/
def tries (i : Nat) (r : Run (Limiter Double) (Caller τ) (Result ρ)) : List Nat :=
  match r.turn with
  | some (.active me context (.inl j)) =>
    if me = i ∧ j.tries r.stage.now (r.stage.status context) then [r.stage.now] else []
  | _ => []

variable {m : Machine (Limiter Double) τ ρ} {i n : Nat} {e : Ending (Result ρ)}
  {seen : Watch.Result} {r r' q q' : Run (Limiter Double) (Caller τ) (Result ρ)}

/-- A call costs nothing, with one rehearsal where it is made and one where the tokens available are
looked at instead. -/
structure Costless (m : Machine (Limiter Double) τ ρ) (i n : Nat) (e : Ending (Result ρ))
    (seen : Watch.Result) (r q : Run (Limiter Double) (Caller τ) (Result ρ)) : Prop where
  /-- Nobody else notices which of the two it is, and the limiter is the same at every step. -/
  unnoticed : ∀ fuel, Run.Unnoticed i (r.settle (machine m) fuel) (q.settle (machine m) fuel)
  /-- No turn of the call takes tokens or changes a rate or a counter. -/
  spared : ∀ fuel context a s, (r.settle (machine m) fuel).turn = some (.active i context a) →
    (r.settle (machine m) fuel).advance (machine m) = some s →
      (r.settle (machine m) fuel).shared.Spared s.shared
  /-- Whoever looks does so when the call tries, and ends when it ends. -/
  ending : ∃ looks : Watch.Result,
    { e with result := .inr (.inl (seen ++ looks)) } ∈ (q.settle (machine m) n).endings ∧
      looks.map (·.1) = r.story (machine m) (tries i) n

/-- One more step in which a call costs nothing. -/
theorem Costless.step (hr : r.advance (machine m) = some r') (hq : q.advance (machine m) = some q')
    (hunnoticed : Run.Unnoticed i r q)
    (hspared : ∀ context a, r.turn = some (.active i context a) → r.shared.Spared r'.shared)
    (new : Watch.Result) (hnew : new.map (·.1) = tries i r)
    (h : Costless m i n e (seen ++ new) r' q') : Costless m i (n + 1) e seen r q := by
  have hsettle (fuel : Nat) : r.settle (machine m) (fuel + 1) = r'.settle (machine m) fuel := by
    rw [Run.settle, hr]
  have hsettle' (fuel : Nat) : q.settle (machine m) (fuel + 1) = q'.settle (machine m) fuel := by
    rw [Run.settle, hq]
  refine ⟨fun fuel => ?_, fun fuel => ?_, ?_⟩
  · cases fuel with
    | zero => exact hunnoticed
    | succ fuel =>
      rw [hsettle, hsettle']
      exact h.unnoticed fuel
  · cases fuel with
    | zero =>
      intro context a s ht hs
      obtain rfl := Option.some_inj.1 (hr.symm.trans hs)
      exact hspared context a ht
    | succ fuel =>
      rw [hsettle]
      exact h.spared fuel
  · obtain ⟨looks, hmem, hlooks⟩ := h.ending
    refine ⟨new ++ looks, ?_, ?_⟩
    · rw [hsettle', ← List.append_assoc]
      exact hmem
    · rw [List.map_append, hnew, hlooks, Run.story, hr]

/-- Who cannot go on does not try. -/
theorem tries_of_unable (h : ∀ context a, r.turn = some (.active i context a) →
    r.isAble (machine m) (.active i context a) = false) : tries i r = [] := by
  rw [tries]
  split
  · rename_i me context j ht
    refine if_neg ?_
    rintro ⟨rfl, htries⟩
    have hunable := h context _ ht
    rw [Run.isAble_active, step_job, Option.isSome_map, Job.isSome_step_of_tries htries] at hunable
    exact absurd hunable (by simp)
  · rfl

/-- A call that has ended tries no more. -/
theorem story_of_gone {Q : Ending (Result ρ) → Prop} (h : Run.Gone i Q r) (n : Nat) :
    r.story (machine m) (tries i) n = [] := by
  induction n generalizing r with
  | zero => rfl
  | succ n ih =>
    rw [Run.story]
    cases hr : r.advance (machine m) with
    | none => rfl
    | some r' =>
      have hrest := ih (h.advance (Run.upholds_gone _ Q) (Run.moves_of_advance hr))
      have hnow : tries i r = [] := tries_of_unable (m := m) fun context a ht =>
        absurd rfl (h.ne (Run.mem_members_of_turn ht))
      simp only [hnow, hrest, List.append_nil]

/-- When the call has ended, and whoever looked instead has done so too, the rest is the same. -/
theorem Costless.of_gone {Q : Ending (Result ρ) → Prop} {b : Caller τ}
    (h : Run.Stands (machine m) i b r q) (hgone : Run.Gone i Q r)
    (he : { e with result := .inr (.inl seen) } ∈ q.endings) (n : Nat) :
    Costless m i n e seen r q where
  unnoticed fuel := (h.settle hgone fuel).unnoticed
  spared fuel context a s ht hs := by
    have hrest : Run.Gone i Q (r.settle (machine m) fuel) :=
      hgone.settle (Run.upholds_gone (machine m) Q) fuel
    exact absurd rfl (hrest.ne (Run.mem_members_of_turn ht))
  ending := by
    refine ⟨[], ?_, ?_⟩
    · rw [List.append_nil]
      exact Run.mem_endings_settle he n
    · rw [story_of_gone hgone]
      rfl

/-! ### A call that waits -/

/-- A call takes part, and is at its first look or has been asleep. -/
structure Asks (i : Nat) (j : Job) (asleep : Option Nat)
    (r : Run (Limiter Double) (Caller τ) (Result ρ)) : Prop where
  sound : r.shared.Sound
  one : r.numbers.count i ≤ 1
  runs : r.Runs i (.inl j)
  phase_eq : j.phase = .asking asleep

variable {j : Job} {asleep : Option Nat} {context : Context}

theorem keeps_sound (hm : m.Keeps Limiter.Sound) : (machine m).Keeps Limiter.Sound :=
  Job.keeps_sound.sum (Watch.keeps_sound.sum hm)

/-- A call and a watch wait for the same. -/
theorem alike_watch (m : Machine (Limiter Double) τ ρ) (hphase : j.phase = .asking asleep)
    (c : Option ServiceClass) (rests : List Nat) (seen : Watch.Result) :
    (machine m).Alike (.inl j) (.inr (.inl ⟨c, rests, asleep, seen⟩)) where
  isSome_step g l := by
    simp only [machine, Machine.sum, Option.isSome_map]
    rw [Job.isSome_step_of_asking hphase, Watch.isSome_step]
  alarms_eq := (Job.alarms_of_asking hphase).symm

/-- A job that has been admitted. -/
def Holding (a : Caller τ) : Prop :=
  ∃ j, a = .inl j ∧ ∃ a' since until_, j.phase = .holding a' since until_

/-- A job that has been admitted is not given up. -/
theorem upholds_holding (m : Machine (Limiter Double) τ ρ) :
    Run.Upholds (machine m) Holding fun e => abandoned e.result = false := by
  rintro g l _ p ⟨j, rfl, a', since, until_, hphase⟩ hstep
  obtain ⟨p', hp', rfl⟩ := Option.map_eq_some_iff.1 hstep
  rw [Job.step_holding hphase] at hp'
  split at hp'
  · obtain rfl := Option.some_inj.1 hp'
    exact ⟨fun _ h => absurd h (by simp [Progress.map]), by rintro _ ⟨⟩; rfl⟩
  · exact absurd hp' (by simp)

/-- With some rests, somebody who looks from now on instead of the call costs nothing. -/
def CouldLook (m : Machine (Limiter Double) τ ρ) (i n : Nat) (e : Ending (Result ρ)) (j : Job)
    (asleep : Option Nat) (r : Run (Limiter Double) (Caller τ) (Result ρ)) : Prop :=
  ∃ rests, ∀ seen q, Run.Stands (machine m) i
    (.inr (.inl ⟨j.serviceClass, rests, asleep, seen⟩)) r q → Costless m i n e seen r q

namespace Asks

/-- A step after which the call still takes part. -/
theorem advance (h : Asks i j asleep r) (hm : m.Keeps Limiter.Sound)
    (ha : r.Moves (machine m) r') {j' : Job} {asleep' : Option Nat}
    (hruns : r'.Runs i (.inl j')) (hphase : j'.phase = .asking asleep') : Asks i j' asleep' r' :=
  ⟨ha.shared (keeps_sound hm) h.sound, (ha.count_numbers i).trans h.one, hruns, hphase⟩

section Turns

variable {p : Progress (Limiter Double) Job Job.Result}

/-- What a watch does when it stands where a call has its turn. -/
theorem advance_watch {w : Watch} (ht : r.turn = some (.active i context (.inl j)))
    (h : Run.Stands (machine m) i (.inr (.inl w)) r q)
    {p' : Progress (Limiter Double) Watch Watch.Result}
    (hp : Watch.machine.step ⟨i, r.stage.now, context, r.stage.status context⟩ r.shared w = some p')
    (hc : p'.cancels = false) : q.advance (machine m) = some (q.went i context (ofWatch p')) := by
  have hturn : q.turn = some (.active i context (.inr (.inl w))) := by
    rw [h.turn_eq_some ht, Member.recast, if_pos rfl]
  refine Run.advance_active hturn ?_ hc
  rw [step_watch, h.stage_eq, h.shared_eq, hp, Option.map_some]

/-- The context is done, and the call ends. -/
theorem cancelled (h : Asks i j asleep r) (hme : e.me = i)
    (ht : r.turn = some (.active i context (.inl j)))
    (hr : r.advance (machine m) = some (r.went i context (ofJob p)))
    {reason : CancelReason} (hstatus : r.stage.status context = some reason)
    (hshared : p.shared = r.shared)
    (hstate : p.state = .inr (.error (.cancelled reason), r.stage.now))
    (he : e ∈ ((r.went i context (ofJob p)).settle (machine m) n).endings) {rests : List Nat}
    (hq : Run.Stands (machine m) i (.inr (.inl ⟨j.serviceClass, rests, asleep, seen⟩)) r q) :
    Costless m i (n + 1) e seen r q := by
  have hend : (ofJob p : Progress _ (Caller τ) (Result ρ)).state =
      .inr (.inl (.error (.cancelled reason), r.stage.now)) := by
    rw [ofJob, Progress.map, hstate]
    rfl
  have hgoes (a : Caller τ) : (ofJob p : Progress _ (Caller τ) (Result ρ)).state ≠ .inl a := by
    simp [hend]
  have hgone : Run.Gone i (fun e => e.finish = r.stage.now ∧ e.context = context)
      (r.went i context (ofJob p)) :=
    Run.holds_went h.one ht (fun a ha => absurd ha (hgoes a)) fun _ _ => ⟨rfl, rfl⟩
  obtain ⟨hfinish, hcontext⟩ :=
    (hgone.settle (Run.upholds_gone (machine m) _) n).endings e he hme
  have hadvance := advance_watch ht hq (Watch.step_of_status hstatus) rfl
  have hwent : Run.Stands (machine m) i (.inl j) (r.went i context (ofJob p))
      (q.went i context (ofWatch { shared := r.shared, state := .inr seen })) :=
    hq.went h.one ht hshared.symm (fun a ha => absurd ha (hgoes a)) fun _ _ => ⟨_, rfl⟩
  refine .step hr hadvance hq.unnoticed (fun _ _ _ => ?_) [] ?_ (.of_gone hwent hgone ?_ n)
  · show r.shared.Spared p.shared
    rw [hshared]
    exact .refl _
  · simp [tries, ht, Job.tries, hstatus]
  · refine List.mem_append_right _ (List.mem_singleton.2 ?_)
    rw [hme, hfinish, hcontext, hq.stage_eq, List.append_nil]

/-- The call has tried in vain, and rests. -/
theorem waits (h : Asks i j asleep r) (ht : r.turn = some (.active i context (.inl j)))
    (hr : r.advance (machine m) = some (r.went i context (ofJob p)))
    (hstatus : r.stage.status context = none) (hdue : ∀ u ∈ asleep, u ≤ r.stage.now)
    {a : Admission} (ha : a = j.wants context.options r.shared)
    (hshared : p.shared = r.shared.look a.serviceClass a.kind r.stage.now) {until_ : Nat}
    (hstate : p.state = .inl { j with phase := .asleep until_ }) {rests : List Nat}
    (hrest : ∀ seen q', Run.Stands (machine m) i
      (.inr (.inl ⟨j.serviceClass, rests, some until_, seen⟩)) (r.went i context (ofJob p)) q' →
        Costless m i n e seen (r.went i context (ofJob p)) q')
    (hq : Run.Stands (machine m) i (.inr (.inl ⟨j.serviceClass, until_ :: rests, asleep, seen⟩))
      r q) : Costless m i (n + 1) e seen r q := by
  subst ha
  have hgoes : (ofJob p : Progress _ (Caller τ) (Result ρ)).state =
      .inl (.inl { j with phase := .asleep until_ }) := by
    rw [ofJob, Progress.map, hstate]
    rfl
  -- what the watch sees
  let c := (j.wants context.options r.shared).serviceClass
  let k := (j.wants context.options r.shared).kind
  let look := (r.stage.now, ((r.shared.look c k r.stage.now).pool c k).tokens)
  let w : Watch := ⟨j.serviceClass, until_ :: rests, asleep, seen⟩
  let p' := w.look ⟨i, r.stage.now, context, r.stage.status context⟩ r.shared
  have hadvance : q.advance (machine m) = some (q.went i context (ofWatch p')) :=
    advance_watch ht hq (Watch.step_of_due hstatus hdue) rfl
  have hwent : Run.Stands (machine m) i
      (.inr (.inl ⟨j.serviceClass, rests, some until_, seen ++ [look]⟩))
      (r.went i context (ofJob p)) (q.went i context (ofWatch p')) := by
    refine hq.went h.one ht hshared.symm (fun a ha => ⟨rfl, ?_⟩) fun s hs =>
      absurd (hgoes.symm.trans hs) (by simp)
    obtain rfl := Sum.inl.inj (hgoes.symm.trans ha)
    exact alike_watch m rfl _ _ _
  refine .step hr hadvance hq.unnoticed (fun _ _ _ => ?_) [look] ?_ (hrest _ _ hwent)
  · show r.shared.Spared p.shared
    rw [hshared]
    exact h.sound.spared_look (j.has_wants _ _) _
  · have htries : j.tries r.stage.now (r.stage.status context) = true := by
      rw [hstatus, Job.tries_of_asking h.phase_eq]
      cases asleep <;> simp_all
    simp [look, tries, ht, htries]

/-- The call is granted, and not given up any more. -/
theorem granted (h : Asks i j asleep r) (hme : e.me = i)
    (ht : r.turn = some (.active i context (.inl j))) {a : Admission}
    (hstate : p.state = j.next r.stage.now a .granted)
    (he : e ∈ ((r.went i context (ofJob p)).settle (machine m) n).endings) :
    abandoned e.result = false := by
  have hholds : Run.Holds i Holding (fun e => abandoned e.result = false)
      (r.went i context (ofJob p)) := by
    rcases j.next_granted r.stage.now a with ⟨j', hnext, hholding⟩ | hnext <;>
      rw [hnext] at hstate <;> refine Run.holds_went h.one ht ?_ ?_ <;>
      simp only [ofJob, Progress.map, hstate]
    · rintro _ ⟨⟩
      exact ⟨j', rfl, hholding⟩
    · rintro _ ⟨⟩
    · rintro _ ⟨⟩
    · rintro _ ⟨⟩
      rfl
  exact (hholds.settle (upholds_holding m) n).endings e he hme

/-- The call has a turn, and goes on. -/
theorem own (h : Asks i j asleep r) (hm : m.Keeps Limiter.Sound) (hme : e.me = i)
    (habandoned : abandoned e.result = true) (hr : r.advance (machine m) = some r')
    (he : e ∈ (r'.settle (machine m) n).endings)
    (hrest : ∀ j' asleep', Asks i j' asleep' r' → CouldLook m i n e j' asleep' r')
    (ht : r.turn = some (.active i context (.inl j)))
    (hp : Job.machine.step ⟨i, r.stage.now, context, r.stage.status context⟩ r.shared j = some p) :
    CouldLook m i (n + 1) e j asleep r := by
  have ha := Run.moves_of_advance hr
  obtain ⟨hcancels, hstepped⟩ := Job.stepped_of_step hp
  have hgoes : r.advance (machine m) = some (r.went i context (ofJob p)) :=
    Run.advance_active ht (by rw [step_job, hp, Option.map_some]) hcancels
  obtain rfl := Option.some_inj.1 (hr.symm.trans hgoes)
  have htried := hstepped.tried h.sound h.phase_eq
  generalize hshared : p.shared = l at htried
  generalize hstate : p.state = s at htried
  cases htried with
  | cancelled hstatus =>
    exact ⟨[], fun seen q hq => h.cancelled hme ht hr hstatus hshared hstate he hq⟩
  | @waits until_ hstatus hdue =>
    have hturn : (r.went i context (ofJob p)).turn =
        some (.active i context (.inl { j with phase := .asleep until_ })) :=
      Run.turn_went_of_inl (by rw [ofJob, Progress.map, hstate]; rfl)
    have hasks : Asks i { j with phase := .asleep until_ } (some until_)
        (r.went i context (ofJob p)) :=
      h.advance hm ha ⟨_, Run.mem_members_of_turn hturn, rfl, rfl⟩ rfl
    obtain ⟨rests, hrests⟩ := hrest _ _ hasks
    exact ⟨until_ :: rests, fun seen q hq =>
      h.waits ht hr hstatus hdue rfl hshared hstate hrests hq⟩
  | granted => exact absurd habandoned (by simp [h.granted hme ht hstate he])

end Turns

/-- Somebody else has a turn, or the call has to wait. -/
theorem others (h : Asks i j asleep r) (hr : r.advance (machine m) = some r')
    (hself : ∀ context a, r.turn = some (.active i context a) →
      r.isAble (machine m) (.active i context a) = false)
    (hrest : CouldLook m i n e j asleep r') : CouldLook m i (n + 1) e j asleep r := by
  obtain ⟨rests, hrests⟩ := hrest
  refine ⟨rests, fun seen q hq => ?_⟩
  obtain ⟨q', hq', h'⟩ := hq.exists_advance hr hself
  have hspared (context : Context) (a : Caller τ) (ht : r.turn = some (.active i context a)) :
      r.shared.Spared r'.shared := by
    rw [(Run.moves_of_advance hr).shared_eq]
    · exact .refl _
    · intro me context' a' ht'
      obtain ⟨rfl, rfl, rfl⟩ : me = i ∧ context' = context ∧ a' = a := by
        simpa using ht'.symm.trans ht
      exact hself _ _ ht
  refine .step hr hq' hq.unnoticed hspared [] (tries_of_unable hself).symm ?_
  rw [List.append_nil]
  exact hrests seen q' h'

/-- **While a call waits, it could as well look.** -/
theorem couldLook (hm : m.Keeps Limiter.Sound) (hme : e.me = i)
    (habandoned : abandoned e.result = true) (h : Asks i j asleep r)
    (he : e ∈ (r.settle (machine m) n).endings) : CouldLook m i n e j asleep r := by
  -- the rests are found from the end of the call back to its beginning
  induction n generalizing r j asleep with
  | zero => exact absurd hme (h.runs.not_ended h.one e he)
  | succ n ih =>
    rw [Run.settle] at he
    cases hr : r.advance (machine m) with
    | none =>
      rw [hr] at he
      exact absurd hme (h.runs.not_ended h.one e he)
    | some r' =>
      rw [hr] at he
      have ha := Run.moves_of_advance hr
      by_cases hself : ∀ context a, r.turn = some (.active i context a) →
        r.isAble (machine m) (.active i context a) = false
      · rcases h.runs.advance h.one ha with ⟨context, ht, hable⟩ | hruns | hlost
        · exact absurd hable (by simp [hself context _ ht])
        · exact h.others hr hself (ih (h.advance hm ha hruns h.phase_eq) he)
        · -- its deadline lies beyond the clock, so it never ends
          have hnever : Run.Gone i (fun _ => False) r' := Run.holds_of_not_mem_numbers hlost
          have hrest := hnever.settle (Run.upholds_gone (machine m) _) n
          exact (hrest.endings e he hme).elim
      · push Not at hself
        obtain ⟨context, a, ht, hable⟩ := hself
        obtain rfl : a = .inl j :=
          Option.some_inj.1 (h.runs.body_of_mem h.one (Run.mem_members_of_turn ht) rfl)
        rw [Run.isAble_active, step_job, Option.isSome_map, ne_eq, Bool.not_eq_false,
          Option.isSome_iff_exists] at hable
        obtain ⟨p, hp⟩ := hable
        exact h.own hm hme habandoned hr he (fun j' asleep' hasks => ih hasks he) ht hp

end Asks

/-- **A call that is given up costs nothing.**  Whatever callers do with a limiter, and whether one
of them leads or not, a call that ends because its context is done might as well have been made by
somebody who only looks at the tokens available in the same pool, at the times at which the call
tried to take some: at every step the limiter is the same, and so are all other callers and what
they have been granted or told. -/
theorem abandoned_costless (hm : m.Keeps Limiter.Sound) (hsound : r.shared.Sound)
    (hone : r.numbers.count i ≤ 1) (hruns : r.Runs i (.inl j)) (hphase : j.phase = .arriving)
    (he : e ∈ (r.settle (machine m) n).endings) (hme : e.me = i)
    (habandoned : abandoned e.result = true) :
    ∃ rests, Costless m i n e []
      r (r.recast i (.inr (.inl { serviceClass := j.serviceClass, rests }))) := by
  have hasking : j.phase = .asking none := hphase
  have hasks : Asks i j none r := ⟨hsound, hone, hruns, hasking⟩
  obtain ⟨rests, hrests⟩ := hasks.couldLook hm hme habandoned he
  have halike := alike_watch m hasking j.serviceClass rests []
  exact ⟨rests, hrests [] _ (Run.stands_recast hone hruns halike)⟩

/-- Those who take tokens from a pool of a limiter themselves leave it sound. -/
theorem keeps_poolTask (c : ServiceClass) (k : PoolKind) :
    (PoolTask.machine (·.pool c k) (·.setPool c k ·)).Keeps Limiter.Sound := by
  intro g l t p hstep hs
  obtain ⟨k', hk', hpool, hset⟩ := l.exists_has c k
  have hturn (r : Pool Double × Turn) (hr : r = (l.pool c k).turn t.cost g.now g.status) :
      (t.progress (l.setPool c k r.1) r.2).shared.Sound := by
    have hlooked : Limiter.Looked c k' t.cost g.now l g.status (l.setPool c k r.1) r.2 := by
      rw [hr, hset, hpool]
      exact Limiter.turn_looked hk' .refl g.status fun _ => rfl
    cases r.2 <;> exact hs.looked hlooked
  obtain ⟨r, hr, rfl⟩ := Option.map_eq_some_iff.1 hstep
  split at hr
  · exact hturn r (Option.some_inj.1 hr).symm
  · rw [Pool.resume] at hr
    split at hr
    · exact hturn r (Option.some_inj.1 hr).symm
    · exact absurd hr (by simp)

/-- A call whose deadline is close is given up after it has tried twice: at once, and when a token
has come in that somebody else takes, who waited longer. -/
theorem abandoned_costless_overtaken :
    let cfg : LimiterConfig Double :=
      { standard := ⟨1, ofNat 1⟩, bulk := ⟨1, ofNat 1⟩, sliding := none }
    let m := PoolTask.machine (Limiter.pool · .standard .static) (·.setPool .standard .static ·)
    let callers : List (Nat × Recipe × Caller PoolTask) :=
      [(0, {}, .inl {}), (0, {}, .inr (.inr { cost := 1 })),
        (0, { timeout := some 1300000000 }, .inl {}),
        (1500000000, {}, .inr (.inl { rests := [] })), (1500000000, {}, .inl {})]
    let r : Run (Limiter Double) (Caller PoolTask) (Result (Except Error Unit)) :=
      .launch { shared := .new cfg 0 } callers
    m.Keeps Limiter.Sound ∧ r.shared.Sound ∧ r.numbers.count 2 ≤ 1 ∧ r.Runs 2 (.inl {}) ∧
      ((r.settle (machine m) 40).endings.map fun e => (e.me, e.finish)) =
        [(0, 0), (1, 1000000000), (2, 1300000000), (3, 1500000000), (4, 2000000000)] ∧
      r.story (machine m) (tries 2) 40 = [0, 1000000000] ∧
      ∃ e ∈ (r.settle (machine m) 40).endings, e.me = 2 ∧ abandoned e.result = true ∧
        ∃ rests, Costless m 2 40 e [] r (r.recast 2 (.inr (.inl { rests }))) := by
  intro cfg m callers r
  have hm : m.Keeps Limiter.Sound := keeps_poolTask .standard .static
  have hsound : r.shared.Sound := .new (fun c => by cases c <;> decide) 0
  have hone : r.numbers.count 2 ≤ 1 := by
    rw [(Run.numbers_launch _ callers).count_eq]
    decide
  have hlaunch : r = _ := Run.launch_of_pairwise (by decide)
  have hruns : r.Runs 2 (.inl {}) := by
    refine ⟨.later 2 0 { timeout := some 1300000000 } (.inl {}), ?_, rfl, rfl⟩
    rw [hlaunch]
    simp [Run.members, callers]
  have hendings : ((r.settle (machine m) 40).endings.map fun e => (e.me, e.finish)) =
      [(0, 0), (1, 1000000000), (2, 1300000000), (3, 1500000000), (4, 2000000000)] := by
    rw [hlaunch]
    decide +kernel
  have hstory : r.story (machine m) (tries 2) 40 = [0, 1000000000] := by
    rw [hlaunch]
    decide +kernel
  have hgiven : ∃ e ∈ (r.settle (machine m) 40).endings, e.me = 2 ∧ abandoned e.result = true := by
    rw [hlaunch]
    decide +kernel
  obtain ⟨e, he, hme, habandoned⟩ := hgiven
  exact ⟨hm, hsound, hone, hruns, hendings, hstory, e, he, hme, habandoned,
    abandoned_costless hm hsound hone hruns rfl he hme habandoned⟩

end Caller

end DriveDelta
