import DriveDelta.Proofs.Admission.Abandonment

/-!
# Ways to ask for admission

Somebody who wants tokens may name a class and a cost to the limiter, or derive a context that
carries both, or go to the pool and take the tokens in a plain loop.  The limiter tries once before
the loop, so that it can tell how long the wait will be.  The loop then begins with a second look at
the same time, which finds what the first one left.  So it makes no difference to anybody which of
the ways is taken, but for what is told in the log.

## What is here

* `Pool.look`, a look without a try before it, and `Pool.Sound.visit_eq_look`;
* `Asker` and `Asker.machine`, those who ask in one of three ways, and `Asker.turn_eq`, what a turn
  of theirs is, whatever their way;
* `Asker.Agree`, what is meant by two ways that agree;
* `Asker.Asking` and `Asker.Over`, two rehearsals before and after the end of whoever asks, with
  what a step makes of them (`Asker.Asking.advance`, `Asker.Over.advance`);
* `Asker.ways_agree`: the ways agree.
-/

set_option autoImplicit false

namespace DriveDelta

open Number

/-! ## First looks -/

namespace Pool

variable {α : Type} [Number α]

/-- A look at a pool, by a newcomer or by one who has been asleep, without a try before it. -/
def look (p : Pool α) (cost now : Nat) (status : Option CancelReason) :
    Option Nat → Option (Pool α × Turn)
  | none => some (p.turn cost now status)
  | some until_ => p.resume cost now status until_

theorem isSome_look (p : Pool α) (cost now : Nat) (status : Option CancelReason)
    (asleep : Option Nat) :
    (p.look cost now status asleep).isSome =
      (status.isSome || asleep.all (decide <| · ≤ now)) := by
  cases asleep with
  | none => simp [look]
  | some until_ =>
    rw [look, resume]
    split
    · rename_i h
      exact h.symm
    · rename_i h
      exact (Bool.eq_false_iff.2 h).symm

theorem isSome_visit (p : Pool α) (cost now : Nat) (status : Option CancelReason)
    (asleep : Option Nat) :
    (p.visit cost now status asleep).isSome =
      (status.isSome || asleep.all (decide <| · ≤ now)) := by
  rw [← p.isSome_look cost]
  cases asleep with
  | none => simp only [visit, look, Option.isSome_some]
  | some until_ => rfl

variable {p : Pool Double}

theorem Sound.take_filled (h : p.Sound) (cost now : Nat) :
    (p.filled now).take cost now = p.take cost now := by
  rw [take, take, h.filled_filled]

/-- A try in vain leaves nothing that the look after it could see. -/
theorem Sound.enter_eq (h : p.Sound) (cost now : Nat) (status : Option CancelReason) :
    p.enter cost now status = p.turn cost now status := by
  cases status with
  | some reason => rfl
  | none =>
    rw [enter, turn]
    rcases p.take_cases cost now with ⟨q, heq, -⟩ | ⟨span, heq, -⟩
    · rw [heq]
    · simp only [heq]
      rw [turn, h.take_filled, heq]

theorem Sound.visit_eq_look (h : p.Sound) (cost now : Nat) (status : Option CancelReason)
    (asleep : Option Nat) : p.visit cost now status asleep = p.look cost now status asleep := by
  cases asleep with
  | none => exact congrArg some (h.enter_eq cost now status)
  | some until_ => rfl

end Pool

/-- Whatever a look finds, it leaves the limiter sound. -/
theorem Limiter.Sound.setPool_look {l : Limiter Double} {c : ServiceClass} {k : PoolKind}
    {cost now : Nat} {status : Option CancelReason} {asleep : Option Nat} {r : Pool Double × Turn}
    (h : l.Sound) (hk : l.Has c k) (hr : (l.pool c k).look cost now status asleep = some r) :
    (l.setPool c k r.1).Sound := by
  have hturn : r = (l.pool c k).turn cost now status := by
    cases asleep with
    | none => exact (Option.some_inj.1 hr).symm
    | some until_ =>
      rw [Pool.look, Pool.resume] at hr
      split at hr
      · exact (Option.some_inj.1 hr).symm
      · exact absurd hr (by simp)
  rw [hturn]
  exact h.looked (turn_looked hk .refl status fun _ => rfl)

/-! ## Those who ask -/

/-- Whatever cost is asked for, it stands for at least one token and for a 32-bit number of them. -/
theorem Context.normalCost_bounds (cost : Option Int) :
    1 ≤ normalCost cost ∧ normalCost cost ≤ maxCost := by
  cases cost with
  | none => exact ⟨le_rfl, by decide⟩
  | some n =>
    rw [normalCost]
    split
    · exact ⟨le_min (by omega) (by decide), Nat.min_le_right _ _⟩
    · exact ⟨le_rfl, by decide⟩

/-- How somebody asks for tokens. -/
inductive Way where
  /-- They name the class and the cost to the limiter. -/
  | outright
  /-- They ask the limiter with a context that is derived from theirs and carries both. -/
  | derived
  /-- They take the tokens from the pool in a plain loop. -/
  | plain
  deriving DecidableEq, Repr

/-- Somebody who asks for tokens of a class. -/
structure Asker where
  way : Way
  serviceClass : ServiceClass
  cost : Int
  asleep : Option Nat := none

namespace Asker

/-- What is returned: what the limiter answers, or nothing but that the tokens have been taken. -/
abbrev Result := AdmissionTask.Result ⊕ Except Error Unit

/-- A turn of somebody who asks, each in their own way. -/
def turn (g : Glance) (l : Limiter Double) :
    Asker → Option (Progress (Limiter Double) Asker Result)
  | ⟨.outright, c, n, asleep⟩ =>
    (AdmissionTask.machine.step g l { serviceClass := some c, cost := some n, asleep }).map
      (·.map (fun t => ⟨.outright, c, n, t.asleep⟩) .inl)
  | ⟨.derived, c, n, asleep⟩ =>
    (AdmissionTask.machine.step
      { g with context := (g.context.withServiceClass c).withCost n } l { asleep }).map
        (·.map (fun t => ⟨.derived, c, n, t.asleep⟩) .inl)
  | ⟨.plain, c, n, asleep⟩ =>
    let k := l.kind c g.context.options.sliding
    ((PoolTask.machine (Limiter.pool · c k) (Limiter.setPool · c k ·)).step g l
      { cost := Context.normalCost (some n), asleep }).map
        (·.map (fun t => ⟨.plain, c, n, t.asleep⟩) .inr)

/-- Those who ask a limiter for tokens. -/
def machine : Machine (Limiter Double) Asker Result where
  step := turn
  alarms a := a.asleep.toList

/-- What is asked for. -/
def wanted (c : ServiceClass) (n : Int) (o : CallOptions) (l : Limiter Double) : Admission where
  serviceClass := c
  kind := l.kind c o.sliding
  tokens := Context.normalCost (some n)

end Asker

namespace Way

/-- What is returned of what the limiter would answer. -/
def report : Way → AdmissionTask.Result → Asker.Result
  | outright, x | derived, x => .inl x
  | plain, x => .inr (x.map fun _ => ())

/-- What is told of what the limiter would tell. -/
def tells {ε : Type} : Way → List ε → List ε
  | outright, es | derived, es => es
  | plain, _ => []

theorem report_of_ne_plain {w : Way} (hw : w ≠ plain) : w.report = .inl := by
  cases w with
  | plain => exact absurd rfl hw
  | _ => rfl

theorem tells_of_ne_plain {ε : Type} {w : Way} (hw : w ≠ plain) (es : List ε) :
    w.tells es = es := by
  cases w with
  | plain => exact absurd rfl hw
  | _ => rfl

theorem tells_nil {ε : Type} (w : Way) : w.tells ([] : List ε) = [] := by
  cases w <;> rfl

theorem tells_map {ε ε' : Type} (w : Way) (f : ε → ε') (es : List ε) :
    (w.tells es).map f = w.tells (es.map f) := by
  cases w <;> rfl

end Way

/-- What a look comes to for whoever asks: it waits until a time, or has an answer. -/
def Turn.outcome (x : Admission) : Turn → Nat ⊕ AdmissionTask.Result
  | .granted => .inr (.ok x)
  | .asleep until_ => .inl until_
  | .cancelled reason => .inr (.error (.cancelled reason))

/-- What the limiter tells when it is asked by a newcomer, or by one who has been asleep. -/
def Limiter.notes (l : Limiter Double) (x : Admission) (now : Nat) (status : Option CancelReason) :
    Option Nat → List (LogEvent Double)
  | none => (l.arrive x.serviceClass x.kind x.tokens now status).2.2.map .admission
  | some _ => []

/-- The limiter tells nothing but how long the wait will be. -/
theorem Limiter.notes_cases (l : Limiter Double) (x : Admission) (now : Nat)
    (status : Option CancelReason) (asleep : Option Nat) :
    l.notes x now status asleep = [] ∨ ∃ span,
      l.notes x now status asleep = [.admission (.waiting x.serviceClass x.tokens span)] := by
  cases asleep with
  | some until_ => exact .inl rfl
  | none =>
    cases status with
    | some reason => exact .inl rfl
    | none =>
      rw [notes, arrive.eq_def]
      cases (l.pool x.serviceClass x.kind).take x.tokens now with
      | mk q taken =>
        cases taken with
        | granted => exact .inl rfl
        | wait span => exact .inr ⟨span, rfl⟩

/-- The turn of a call that asks for something and does not complete what it is granted. -/
theorem AdmissionTask.step_eq {g : Glance} {l : Limiter Double} {t : AdmissionTask}
    {x : Admission} (htarget : t.target g.context l = x) (hcompletion : t.completion = none) :
    machine.step g l t =
      ((l.pool x.serviceClass x.kind).visit x.tokens g.now g.status t.asleep).map fun r =>
        { shared := l.setPool x.serviceClass x.kind r.1
          state := (r.2.outcome x).map (fun until_ => { t with asleep := some until_ }) id
          log := l.notes x g.now g.status t.asleep } := by
  have hprogress (l' : Limiter Double) (log : List (AdmissionEvent Double)) (turn : Turn) :
      t.progress x g.now l' log turn =
        { shared := l'
          state := (turn.outcome x).map (fun until_ => { t with asleep := some until_ }) id
          log := log.map .admission } := by
    cases turn with
    | granted => simp [progress, hcompletion, Turn.outcome]
    | asleep => rfl
    | cancelled => rfl
  simp only [machine, htarget]
  cases t.asleep with
  | none =>
    have harrive := l.arrive_eq x.serviceClass x.kind x.tokens g.now g.status
    rw [Prod.mk.injEq] at harrive
    simp only [hprogress, harrive.1, harrive.2]
    rfl
  | some until_ =>
    simp only [hprogress, Limiter.resume, Option.map_map]
    rfl

/-- The turn of a task that takes tokens from a pool is a look at it. -/
theorem PoolTask.step_eq {σ : Type} (get : σ → Pool Double) (set : σ → Pool Double → σ)
    (g : Glance) (s : σ) (t : PoolTask) :
    (machine get set).step g s t =
      ((get s).look t.cost g.now g.status t.asleep).map fun r => t.progress (set s r.1) r.2 := by
  simp only [machine]
  cases t.asleep <;> rfl

namespace Asker

variable {l : Limiter Double}

theorem target_outright (c : ServiceClass) (n : Int) (asleep : Option Nat) (x : Context) :
    ({ serviceClass := some c, cost := some n, asleep } : AdmissionTask).target x l =
      wanted c n x.options l := by
  simp [AdmissionTask.target, wanted]

/-- What a derived context carries is read as what is named outright. -/
theorem target_derived (c : ServiceClass) (n : Int) (asleep : Option Nat) (x : Context) :
    ({ asleep } : AdmissionTask).target ((x.withServiceClass c).withCost n) l =
      wanted c n x.options l := by
  simp [AdmissionTask.target, wanted, Context.serviceClass, Context.cost,
    Context.withServiceClass, Context.withCost]

/-- Whoever asks the limiter has a look that may be preceded by a try. -/
theorem turn_of_ne_plain {w : Way} (hw : w ≠ .plain) (g : Glance) (l : Limiter Double)
    (c : ServiceClass) (n : Int) (asleep : Option Nat) :
    turn g l ⟨w, c, n, asleep⟩ =
      let x := wanted c n g.context.options l
      ((l.pool x.serviceClass x.kind).visit x.tokens g.now g.status asleep).map fun r =>
        { shared := l.setPool x.serviceClass x.kind r.1
          state := (r.2.outcome x).map (fun until_ => ⟨w, c, n, some until_⟩) .inl
          log := l.notes x g.now g.status asleep } := by
  cases w with
  | outright =>
    rw [turn, AdmissionTask.step_eq (target_outright c n asleep g.context) rfl, Option.map_map]
    congr 1
    funext ⟨q, turn⟩
    cases turn <;> rfl
  | derived =>
    rw [turn, AdmissionTask.step_eq (target_derived c n asleep g.context) rfl, Option.map_map]
    congr 1
    funext ⟨q, turn⟩
    cases turn <;> rfl
  | plain => exact absurd rfl hw

theorem turn_plain (g : Glance) (l : Limiter Double) (c : ServiceClass) (n : Int)
    (asleep : Option Nat) :
    turn g l ⟨.plain, c, n, asleep⟩ =
      let x := wanted c n g.context.options l
      ((l.pool x.serviceClass x.kind).look x.tokens g.now g.status asleep).map fun r =>
        { shared := l.setPool x.serviceClass x.kind r.1
          state := (r.2.outcome x).map (fun until_ => ⟨.plain, c, n, some until_⟩)
            (.inr <| ·.map fun _ => ()) } := by
  rw [turn, PoolTask.step_eq, Option.map_map]
  congr 1
  funext ⟨q, turn⟩
  cases turn <;> rfl

/-- Whether somebody can go on is not a question of their way. -/
theorem isSome_turn (g : Glance) (l : Limiter Double) (w : Way) (c : ServiceClass) (n : Int)
    (asleep : Option Nat) :
    (turn g l ⟨w, c, n, asleep⟩).isSome =
      (g.status.isSome || asleep.all (decide <| · ≤ g.now)) := by
  by_cases hw : w = .plain
  · subst hw
    simp only [turn_plain, Option.isSome_map, Pool.isSome_look]
  · simp only [turn_of_ne_plain hw, Option.isSome_map, Pool.isSome_visit]

/-- **Whatever the way, a turn is a look at the pool.** -/
theorem turn_eq (hs : l.Sound) (g : Glance) (w : Way) (c : ServiceClass) (n : Int)
    (asleep : Option Nat) :
    turn g l ⟨w, c, n, asleep⟩ =
      let x := wanted c n g.context.options l
      ((l.pool x.serviceClass x.kind).look x.tokens g.now g.status asleep).map fun r =>
        { shared := l.setPool x.serviceClass x.kind r.1
          state := (r.2.outcome x).map (fun until_ => ⟨w, c, n, some until_⟩) w.report
          log := w.tells (l.notes x g.now g.status asleep) } := by
  by_cases hw : w = .plain
  · subst hw
    rw [turn_plain]
    rfl
  · rw [turn_of_ne_plain hw]
    simp only [(hs _ _).visit_eq_look, Way.report_of_ne_plain hw, Way.tells_of_ne_plain hw]

theorem keeps_sound : machine.Keeps Limiter.Sound := by
  rintro g l ⟨w, c, n, asleep⟩ p hstep hs
  have hturn : turn g l ⟨w, c, n, asleep⟩ = some p := hstep
  rw [turn_eq hs] at hturn
  obtain ⟨r, hr, rfl⟩ := Option.map_eq_some_iff.1 hturn
  exact hs.setPool_look (l.has_kind c g.context.options.sliding) hr

/-- Those who ask in two ways wait for the same. -/
theorem alike {τ ρ : Type} (m : Machine (Limiter Double) τ ρ) (w w' : Way) (c : ServiceClass)
    (n : Int) (asleep : Option Nat) :
    (machine.sum m).Alike (.inl ⟨w, c, n, asleep⟩) (.inl ⟨w', c, n, asleep⟩) where
  isSome_step g l := by simp only [Machine.sum, machine, Option.isSome_map, isSome_turn]
  alarms_eq := rfl

end Asker

/-! ## Two ways -/

/-- How a call that is made in a way ends if the limiter would answer so. -/
def Way.reported {ρ : Type} (w : Way) (e : Ending AdmissionTask.Result) :
    Ending (Asker.Result ⊕ ρ) :=
  { e with result := .inl (w.report e.result) }

namespace Asker

variable {τ ρ : Type} {m : Machine (Limiter Double) τ ρ} {i : Nat} {w w' : Way} {c : ServiceClass}
  {n : Int} {asleep : Option Nat} {o : Option (Ending AdmissionTask.Result)}
  {r r' q q' : Run (Limiter Double) (Asker ⊕ τ) (Result ⊕ ρ)}

/-- The task of a number has ended as the limiter would answer, or not at all. -/
def EndsAs (i : Nat) (w : Way) (o : Option (Ending AdmissionTask.Result))
    (r : Run (Limiter Double) (Asker ⊕ τ) (Result ⊕ ρ)) : Prop :=
  ∀ e, e ∈ r.endings ∧ e.me = i ↔ ∃ answer ∈ o, e = w.reported answer

/-- Two logs are the same, but for what the limiter tells about whoever asks it, which is at most
once how long they will have to wait. -/
def SameLogs (c : ServiceClass) (n : Int) (w w' : Way)
    (r q : Run (Limiter Double) (Asker ⊕ τ) (Result ⊕ ρ)) : Prop :=
  ∃ before notes after,
    (notes = [] ∨ ∃ now span,
      notes = [(now, .admission (.waiting c (Context.normalCost (some n)) span))]) ∧
    r.log = before ++ w.tells notes ++ after ∧ q.log = before ++ w'.tells notes ++ after

/-- If an answer is that tokens have been granted, they are those that were asked for. -/
def Fitting (c : ServiceClass) (n : Int) (o : Option (Ending AdmissionTask.Result)) : Prop :=
  ∀ answer ∈ o, ∀ x, answer.result = .ok x →
    x.serviceClass = c ∧ x.tokens = Context.normalCost (some n)

/-- Two rehearsals in which somebody asks for the same in two ways agree. -/
structure Agree (i : Nat) (c : ServiceClass) (n : Int) (w w' : Way)
    (r q : Run (Limiter Double) (Asker ⊕ τ) (Result ⊕ ρ)) : Prop where
  /-- Time, pools and everybody else are the same. -/
  unnoticed : Run.Unnoticed i r q
  /-- Both have ended with the same result and at the same time, or neither has. -/
  ending : ∃ o, Fitting c n o ∧ EndsAs i w o r ∧ EndsAs i w' o q
  logs : SameLogs c n w w' r q

theorem SameLogs.append (h : SameLogs c n w w' r q) {said : List (Nat × LogEvent Double)}
    (hr : r'.log = r.log ++ said) (hq : q'.log = q.log ++ said) : SameLogs c n w w' r' q' := by
  obtain ⟨before, notes, after, hnotes, hlog, hlog'⟩ := h
  refine ⟨before, notes, after ++ said, hnotes, ?_, ?_⟩
  · rw [hr, hlog, List.append_assoc]
  · rw [hq, hlog', List.append_assoc]

/-! ### After the end -/

/-- The task of a number has ended so, or will never end. -/
structure Ended (i : Nat) (w : Way) (o : Option (Ending AdmissionTask.Result))
    (r : Run (Limiter Double) (Asker ⊕ τ) (Result ⊕ ρ)) : Prop where
  gone : Run.Gone i (fun e => ∃ answer ∈ o, e = w.reported answer) r
  mem : ∀ answer ∈ o, w.reported answer ∈ r.endings ∧ answer.me = i

theorem Ended.endsAs (h : Ended i w o r) : EndsAs i w o r := by
  intro e
  constructor
  · rintro ⟨he, hme⟩
    exact h.gone.endings e he hme
  · rintro ⟨answer, hanswer, rfl⟩
    exact h.mem answer hanswer

theorem Ended.advance (h : Ended i w o r) (ha : r.Moves (machine.sum m) r') : Ended i w o r' :=
  ⟨h.gone.advance (Run.upholds_gone _ _) ha,
    fun answer hanswer => (h.mem answer hanswer).imp_left ha.mem_endings⟩

/-- Who has no number any more does not end. -/
theorem ended_of_lost (h : i ∉ r.numbers) : Ended i w none r :=
  ⟨Run.holds_of_not_mem_numbers h, by simp⟩

/-- Two rehearsals in which somebody has asked in two ways, and has ended. -/
structure Over (m : Machine (Limiter Double) τ ρ) (i : Nat) (c : ServiceClass) (n : Int)
    (w w' : Way) (r q : Run (Limiter Double) (Asker ⊕ τ) (Result ⊕ ρ)) : Prop where
  stands : ∃ b, Run.Stands (machine.sum m) i b r q
  logs : SameLogs c n w w' r q
  ended : ∃ o, Fitting c n o ∧ Ended i w o r ∧ Ended i w' o q

theorem Over.agree (h : Over m i c n w w' r q) : Agree i c n w w' r q := by
  obtain ⟨⟨b, hstands⟩, hlogs, o, hfitting, hended, hended'⟩ := h
  exact ⟨hstands.unnoticed, ⟨o, hfitting, hended.endsAs, hended'.endsAs⟩, hlogs⟩

/-- Somebody who has ended has no turn. -/
theorem Over.unable (h : Over m i c n w w' r q) (context : Context) (a : Asker ⊕ τ)
    (ht : r.turn = some (.active i context a)) :
    r.isAble (machine.sum m) (.active i context a) = false := by
  obtain ⟨o, -, hended, -⟩ := h.ended
  exact absurd rfl (hended.gone.ne (Run.mem_members_of_turn ht))

theorem Over.advance (h : Over m i c n w w' r q) (hr : r.advance (machine.sum m) = some r') :
    ∃ q', q.advance (machine.sum m) = some q' ∧ Over m i c n w w' r' q' := by
  have hself := h.unable
  obtain ⟨⟨b, hstands⟩, hlogs, o, hfitting, hended, hended'⟩ := h
  obtain ⟨q', hq, hstands'⟩ := hstands.exists_advance hr hself
  refine ⟨q', hq, ⟨b, hstands'⟩, ?_, o, hfitting, hended.advance (Run.moves_of_advance hr),
    hended'.advance (Run.moves_of_advance hq)⟩
  exact hlogs.append (Run.log_advance hr) (hstands.said_eq hself ▸ Run.log_advance hq)

/-! ### Until the end -/

/-- Two rehearsals in which somebody asks in two ways, and waits or is at the first look. -/
structure Asking (m : Machine (Limiter Double) τ ρ) (i : Nat) (c : ServiceClass) (n : Int)
    (w w' : Way) (asleep : Option Nat)
    (r q : Run (Limiter Double) (Asker ⊕ τ) (Result ⊕ ρ)) : Prop where
  sound : r.shared.Sound
  one_left : r.numbers.count i ≤ 1
  one_right : q.numbers.count i ≤ 1
  runs : r.Runs i (.inl ⟨w, c, n, asleep⟩)
  stands : Run.Stands (machine.sum m) i (.inl ⟨w', c, n, asleep⟩) r q
  logs : SameLogs c n w w' r q
  /-- A newcomer has not told anything. -/
  log_eq : asleep = none → q.log = r.log

theorem Asking.agree (h : Asking m i c n w w' asleep r q) : Agree i c n w w' r q := by
  refine ⟨h.stands.unnoticed, ⟨none, nofun, ?_, ?_⟩, h.logs⟩
  · intro e
    refine ⟨fun ⟨he, hme⟩ => ?_, by simp⟩
    exact absurd hme (h.runs.not_ended h.one_left e he)
  · intro e
    refine ⟨fun ⟨he, hme⟩ => ?_, by simp⟩
    exact absurd hme ((h.stands.runs h.runs).not_ended h.one_right e he)

theorem Asking.turn_right {context : Context} (h : Asking m i c n w w' asleep r q)
    (ht : r.turn = some (.active i context (.inl ⟨w, c, n, asleep⟩))) :
    q.turn = some (.active i context (.inl ⟨w', c, n, asleep⟩)) := by
  rw [h.stands.turn_eq_some ht, Member.recast, if_pos rfl]

/-- If the task cannot go on in one of the rehearsals, it cannot in the other. -/
theorem Asking.unable_right (h : Asking m i c n w w' asleep r q)
    (hself : ∀ context a, r.turn = some (.active i context a) →
      r.isAble (machine.sum m) (.active i context a) = false)
    {context : Context} {a : Asker ⊕ τ} (ht : q.turn = some (.active i context a)) :
    q.isAble (machine.sum m) (.active i context a) = false := by
  rw [h.stands.turn_eq, Option.map_eq_some_iff] at ht
  obtain ⟨x, hx, hrecast⟩ := ht
  rw [← hrecast, h.stands.isAble_eq (Run.mem_members_of_turn hx)]
  cases x with
  | active me context' body =>
    obtain rfl : me = i := by simp_all [Member.recast]
    exact hself context' body hx
  | _ => exact absurd hrecast (by simp [Member.recast])

/-- A step of others. -/
theorem Asking.others (hm : m.Keeps Limiter.Sound) (h : Asking m i c n w w' asleep r q)
    (hr : r.advance (machine.sum m) = some r')
    (hself : ∀ context a, r.turn = some (.active i context a) →
      r.isAble (machine.sum m) (.active i context a) = false) :
    ∃ q', q.advance (machine.sum m) = some q' ∧
      (Asking m i c n w w' asleep r' q' ∨ Over m i c n w w' r' q') := by
  have ha := Run.moves_of_advance hr
  obtain ⟨q', hq, hstands⟩ := h.stands.exists_advance hr hself
  have ha' := Run.moves_of_advance hq
  have hsaid := h.stands.said_eq hself ▸ Run.log_advance hq
  have hlogs := h.logs.append (Run.log_advance hr) hsaid
  refine ⟨q', hq, ?_⟩
  rcases h.runs.advance h.one_left ha with ⟨context, ht, hable⟩ | hruns | hlost
  · exact absurd hable (by simp [hself context _ ht])
  · refine .inl ⟨ha.shared (keeps_sound.sum hm) h.sound, (ha.count_numbers i).trans h.one_left,
      (ha'.count_numbers i).trans h.one_right, hruns, hstands, hlogs, fun hnone => ?_⟩
    rw [hsaid, Run.log_advance hr, h.log_eq hnone]
  · -- its deadline lies beyond the clock, in both
    have hlost' : i ∉ q'.numbers := by
      rcases (h.stands.runs h.runs).advance h.one_right ha' with ⟨context, ht, hable⟩ | hruns | hno
      · exact absurd hable (by simp [h.unable_right hself ht])
      · obtain ⟨y, hy, hi, -⟩ := hruns
        rw [hstands.members_eq] at hy
        obtain ⟨x, hx, rfl⟩ := List.mem_map.1 hy
        rw [Member.taskNumber?_recast] at hi
        exact absurd (List.mem_append_left _ (List.mem_filterMap.2 ⟨x, hx, hi⟩)) hlost
      · exact hno
    exact .inr ⟨⟨_, hstands⟩, hlogs, none, nofun, ended_of_lost hlost, ended_of_lost hlost'⟩

/-- What a look makes of somebody who asks in a way, as one of many. -/
def looked (w : Way) (c : ServiceClass) (n : Int) (x : Admission) (l : Limiter Double)
    (s : Pool Double × Turn) (notes : List (LogEvent Double)) :
    Progress (Limiter Double) (Asker ⊕ τ) (Result ⊕ ρ) where
  shared := l.setPool x.serviceClass x.kind s.1
  state := (s.2.outcome x).map (fun until_ => .inl ⟨w, c, n, some until_⟩) (.inl <| w.report ·)
  log := w.tells notes

theorem step_eq (m : Machine (Limiter Double) τ ρ) {g : Glance} {l : Limiter Double}
    (hs : l.Sound) (w : Way) {x : Admission} (hx : x = wanted c n g.context.options l)
    {s : Pool Double × Turn}
    (hlook : (l.pool x.serviceClass x.kind).look x.tokens g.now g.status asleep = some s) :
    (machine.sum m).step g l (.inl ⟨w, c, n, asleep⟩) =
      some (looked w c n x l s (l.notes x g.now g.status asleep)) := by
  subst hx
  show (turn g l ⟨w, c, n, asleep⟩).map _ = _
  rw [turn_eq hs]
  simp only [hlook, Option.map_some]
  obtain ⟨q, turn⟩ := s
  cases turn <;> rfl

section Turns

variable {context : Context} {x : Admission} {s : Pool Double × Turn}
  {notes : List (LogEvent Double)}

/-- What the turn of whoever asks tells is the same in both ways, but for what the limiter tells. -/
theorem Asking.sameLogs_went (h : Asking m i c n w w' asleep r q)
    (hnotes : notes = [] ∨ ∃ span,
      notes = [.admission (.waiting c (Context.normalCost (some n)) span)])
    (hasleep : asleep.isSome → notes = []) :
    SameLogs c n w w' (r.went i context (looked w c n x r.shared s notes))
      (q.went i context (looked w' c n x r.shared s notes)) := by
  have hlog : (r.went i context (looked w c n x r.shared s notes)).log =
      r.log ++ w.tells (notes.map (r.stage.now, ·)) := by
    rw [← Way.tells_map]
    rfl
  have hlog' : (q.went i context (looked w' c n x r.shared s notes)).log =
      q.log ++ w'.tells (notes.map (r.stage.now, ·)) := by
    rw [← Way.tells_map, ← h.stands.stage_eq]
    rfl
  cases asleep with
  | none =>
    refine ⟨r.log, notes.map (r.stage.now, ·), [], ?_, ?_, ?_⟩
    · rcases hnotes with rfl | ⟨span, rfl⟩
      · exact .inl rfl
      · exact .inr ⟨_, span, rfl⟩
    · rw [hlog, List.append_nil]
    · rw [hlog', h.log_eq rfl, List.append_nil]
  | some until_ =>
    have hsilent (v : Way) : v.tells (notes.map (r.stage.now, ·)) = [] := by
      rw [hasleep rfl, List.map_nil, Way.tells_nil]
    rw [hsilent] at hlog hlog'
    exact h.logs.append hlog hlog'

/-- Whoever gets an answer has ended. -/
theorem ended_went {a : Asker ⊕ τ} (hone : r.numbers.count i ≤ 1)
    (ht : r.turn = some (.active i context a)) {l : Limiter Double} {answer : AdmissionTask.Result}
    (hs : s.2.outcome x = .inr answer) :
    Ended i w (some ⟨i, answer, r.stage.now, context⟩)
      (r.went i context (looked w c n x l s notes)) := by
  have hstate : (looked w c n x l s notes : Progress _ (Asker ⊕ τ) (Result ⊕ ρ)).state =
      .inr (.inl (w.report answer)) := by
    rw [looked, hs]
    rfl
  refine ⟨Run.holds_went hone ht ?_ ?_, ?_⟩
  · intro a' ha'
    exact absurd (hstate.symm.trans ha') (by simp)
  · intro result hresult
    obtain rfl := Sum.inr.inj (hstate.symm.trans hresult)
    exact ⟨_, rfl, rfl⟩
  · rintro _ ⟨⟩
    refine ⟨List.mem_append_right _ ?_, rfl⟩
    rw [hstate]
    exact List.mem_singleton.2 rfl

/-- Whoever finds too few tokens waits in both ways until the same time. -/
theorem Asking.waits (hm : m.Keeps Limiter.Sound) (h : Asking m i c n w w' asleep r q)
    (ht : r.turn = some (.active i context (.inl ⟨w, c, n, asleep⟩))) {until_ : Nat}
    (hout : s.2.outcome x = .inl until_)
    (hr : r.advance (machine.sum m) = some (r.went i context (looked w c n x r.shared s notes)))
    (hq : q.advance (machine.sum m) = some (q.went i context (looked w' c n x r.shared s notes)))
    (hlogs : SameLogs c n w w' (r.went i context (looked w c n x r.shared s notes))
      (q.went i context (looked w' c n x r.shared s notes))) :
    Asking m i c n w w' (some until_) (r.went i context (looked w c n x r.shared s notes))
      (q.went i context (looked w' c n x r.shared s notes)) := by
  have ha := Run.moves_of_advance hr
  have ha' := Run.moves_of_advance hq
  have hstate (v : Way) : (looked v c n x r.shared s notes : Progress _ (Asker ⊕ τ)
      (Result ⊕ ρ)).state = .inl (.inl ⟨v, c, n, some until_⟩) := by
    rw [looked, hout]
    rfl
  have hturn : (r.went i context (looked w c n x r.shared s notes)).turn =
      some (.active i context (.inl ⟨w, c, n, some until_⟩)) := Run.turn_went_of_inl (hstate w)
  refine ⟨ha.shared (keeps_sound.sum hm) h.sound, (ha.count_numbers i).trans h.one_left,
    (ha'.count_numbers i).trans h.one_right, ⟨_, Run.mem_members_of_turn hturn, rfl, rfl⟩, ?_,
    hlogs, nofun⟩
  refine h.stands.went h.one_left ht rfl ?_ ?_
  · intro a hgoes
    obtain rfl := Sum.inl.inj ((hstate w).symm.trans hgoes)
    exact ⟨hstate w', alike m w w' c n _⟩
  · intro result hends
    exact absurd ((hstate w).symm.trans hends) (by simp)

/-- Whoever gets an answer gets the same one in both ways. -/
theorem Asking.answered (h : Asking m i c n w w' asleep r q)
    (ht : r.turn = some (.active i context (.inl ⟨w, c, n, asleep⟩)))
    (hx : x.serviceClass = c ∧ x.tokens = Context.normalCost (some n))
    {answer : AdmissionTask.Result} (hout : s.2.outcome x = .inr answer)
    (hlogs : SameLogs c n w w' (r.went i context (looked w c n x r.shared s notes))
      (q.went i context (looked w' c n x r.shared s notes))) :
    Over m i c n w w' (r.went i context (looked w c n x r.shared s notes))
      (q.went i context (looked w' c n x r.shared s notes)) := by
  have hstate (v : Way) : (looked v c n x r.shared s notes : Progress _ (Asker ⊕ τ)
      (Result ⊕ ρ)).state = .inr (.inl (v.report answer)) := by
    rw [looked, hout]
    rfl
  have hstands : Run.Stands (machine.sum m) i (.inl ⟨w', c, n, asleep⟩)
      (r.went i context (looked w c n x r.shared s notes))
      (q.went i context (looked w' c n x r.shared s notes)) := by
    refine h.stands.went h.one_left ht rfl ?_ ?_
    · intro a hgoes
      exact absurd ((hstate w).symm.trans hgoes) (by simp)
    · intro result hends
      exact ⟨_, hstate w'⟩
  have hended : Ended i w (some ⟨i, answer, r.stage.now, context⟩)
      (r.went i context (looked w c n x r.shared s notes)) := ended_went h.one_left ht hout
  have hended' : Ended i w' (some ⟨i, answer, r.stage.now, context⟩)
      (q.went i context (looked w' c n x r.shared s notes)) :=
    h.stands.stage_eq ▸ ended_went h.one_right (h.turn_right ht) hout
  refine ⟨⟨_, hstands⟩, hlogs, _, ?_, hended, hended'⟩
  rintro _ ⟨⟩ y rfl
  cases hturn : s.2 with
  | granted =>
    rw [hturn] at hout
    obtain rfl : x = y := by simpa [Turn.outcome] using hout
    exact hx
  | asleep until_ => exact absurd hout (by simp [hturn, Turn.outcome])
  | cancelled reason => exact absurd hout (by simp [hturn, Turn.outcome])

/-- A turn of whoever asks. -/
theorem Asking.own (hm : m.Keeps Limiter.Sound) (h : Asking m i c n w w' asleep r q)
    (ht : r.turn = some (.active i context (.inl ⟨w, c, n, asleep⟩)))
    (hable : r.isAble (machine.sum m) (.active i context (.inl ⟨w, c, n, asleep⟩)) = true) :
    ∃ r' q', r.advance (machine.sum m) = some r' ∧ q.advance (machine.sum m) = some q' ∧
      ((∃ asleep', Asking m i c n w w' asleep' r' q') ∨ Over m i c n w w' r' q') := by
  let g : Glance := ⟨i, r.stage.now, context, r.stage.status context⟩
  obtain ⟨x, hx⟩ : ∃ x, x = wanted c n g.context.options r.shared := ⟨_, rfl⟩
  have hasked : x.serviceClass = c ∧ x.tokens = Context.normalCost (some n) := by
    rw [hx]
    exact ⟨rfl, rfl⟩
  -- in both ways it is a look at the same pool
  have hlook : ((r.shared.pool x.serviceClass x.kind).look x.tokens g.now g.status asleep).isSome =
      true := by
    rw [Run.isAble_active] at hable
    rw [Pool.isSome_look, ← isSome_turn g r.shared w c n asleep]
    simpa [Machine.sum, machine] using hable
  obtain ⟨s, hs⟩ := Option.isSome_iff_exists.1 hlook
  let notes := r.shared.notes x g.now g.status asleep
  have hr : r.advance (machine.sum m) =
      some (r.went i context (looked w c n x r.shared s notes)) :=
    Run.advance_active ht (step_eq m h.sound w hx hs) rfl
  have hq : q.advance (machine.sum m) =
      some (q.went i context (looked w' c n x r.shared s notes)) := by
    refine Run.advance_active (h.turn_right ht) ?_ rfl
    rw [h.stands.stage_eq, h.stands.shared_eq]
    exact step_eq m h.sound w' hx hs
  have hnotes := r.shared.notes_cases x g.now g.status asleep
  rw [hasked.1, hasked.2] at hnotes
  have hlogs : SameLogs c n w w' (r.went i context (looked w c n x r.shared s notes))
      (q.went i context (looked w' c n x r.shared s notes)) := by
    refine h.sameLogs_went hnotes ?_
    intro hasleep
    obtain ⟨until_, rfl⟩ := Option.isSome_iff_exists.1 hasleep
    rfl
  refine ⟨_, _, hr, hq, ?_⟩
  cases hout : s.2.outcome x with
  | inl until_ => exact .inl ⟨_, h.waits hm ht hout hr hq hlogs⟩
  | inr answer => exact .inr (h.answered ht hasked hout hlogs)

end Turns

/-- What one step makes of two rehearsals in which somebody asks in two ways. -/
theorem Asking.advance (hm : m.Keeps Limiter.Sound) (h : Asking m i c n w w' asleep r q)
    (hr : r.advance (machine.sum m) = some r') :
    ∃ q', q.advance (machine.sum m) = some q' ∧
      ((∃ asleep', Asking m i c n w w' asleep' r' q') ∨ Over m i c n w w' r' q') := by
  by_cases hself : ∀ context a, r.turn = some (.active i context a) →
    r.isAble (machine.sum m) (.active i context a) = false
  · obtain ⟨q', hq, hnext⟩ := h.others hm hr hself
    exact ⟨q', hq, hnext.imp_left fun hasking => ⟨asleep, hasking⟩⟩
  · push Not at hself
    obtain ⟨context, a, ht, hable⟩ := hself
    obtain rfl : a = .inl ⟨w, c, n, asleep⟩ :=
      Option.some_inj.1 (h.runs.body_of_mem h.one_left (Run.mem_members_of_turn ht) rfl)
    obtain ⟨r'', q', hr', hq, hnext⟩ := h.own hm ht (Bool.not_eq_false _ ▸ hable)
    obtain rfl := Option.some_inj.1 (hr.symm.trans hr')
    exact ⟨q', hq, hnext⟩

theorem Over.settle (h : Over m i c n w w' r q) (fuel : Nat) :
    Agree i c n w w' (r.settle (machine.sum m) fuel) (q.settle (machine.sum m) fuel) := by
  induction fuel generalizing r q with
  | zero => exact h.agree
  | succ fuel ih =>
    rw [Run.settle, Run.settle]
    cases hr : r.advance (machine.sum m) with
    | none =>
      obtain ⟨b, hstands⟩ := h.stands
      rw [hstands.advance_eq_none hr]
      exact h.agree
    | some r' =>
      obtain ⟨q', hq, h'⟩ := h.advance hr
      rw [hq]
      exact ih h'

theorem Asking.settle (hm : m.Keeps Limiter.Sound) (h : Asking m i c n w w' asleep r q)
    (fuel : Nat) :
    Agree i c n w w' (r.settle (machine.sum m) fuel) (q.settle (machine.sum m) fuel) := by
  induction fuel generalizing r q asleep with
  | zero => exact h.agree
  | succ fuel ih =>
    rw [Run.settle, Run.settle]
    cases hr : r.advance (machine.sum m) with
    | none =>
      rw [h.stands.advance_eq_none hr]
      exact h.agree
    | some r' =>
      obtain ⟨q', hq, ⟨asleep', h'⟩ | hover⟩ := h.advance hm hr
      · rw [hq]
        exact ih h'
      · rw [hq]
        exact hover.settle fuel

/-- **It makes no difference in which way somebody asks.**  Whatever others do with a limiter, and
whenever the context is done, somebody who names a class and any cost, with a context that carries
both, or from the pool that the limiter would choose and with the cost in its normal form, gets the
same result at the same time, and at every step the pools are the same and so is everybody else.
Only the log differs, by at most one event: that of the limiter about the wait to come. -/
theorem ways_agree (hm : m.Keeps Limiter.Sound) (hsound : r.shared.Sound)
    (hone : r.numbers.count i ≤ 1) (hruns : r.Runs i (.inl ⟨w, c, n, none⟩)) (w' : Way)
    (fuel : Nat) :
    (1 ≤ Context.normalCost (some n) ∧ Context.normalCost (some n) ≤ Context.maxCost) ∧
      Agree i c n w w' (r.settle (machine.sum m) fuel)
        ((r.recast i (.inl ⟨w', c, n, none⟩)).settle (machine.sum m) fuel) := by
  have hstands := Run.stands_recast hone hruns (alike m w w' c n none)
  have hone' : (r.recast i (.inl ⟨w', c, n, none⟩)).numbers.count i ≤ 1 := by
    rw [Run.numbers_recast]
    exact hone
  have hlogs : SameLogs c n w w' r (r.recast i (.inl ⟨w', c, n, none⟩)) := by
    refine ⟨r.log, [], [], .inl rfl, ?_, ?_⟩
    · rw [Way.tells_nil, List.append_nil, List.append_nil]
    · rw [Way.tells_nil, List.append_nil, List.append_nil]
      rfl
  have hasking : Asking m i c n w w' none r (r.recast i (.inl ⟨w', c, n, none⟩)) :=
    ⟨hsound, hone, hone', hruns, hstands, hlogs, fun _ => rfl⟩
  exact ⟨Context.normalCost_bounds (some n), hasking.settle hm fuel⟩

/-- Somebody asks for a negative cost, which counts as one, from a pool whose only token has just
been taken, and somebody else comes while they wait.  They are served after a second in every way,
and the other one after two; the log has one event more when it is the limiter that is asked. -/
theorem ways_agree_contended :
    let cfg : LimiterConfig Double :=
      { standard := ⟨1, ofNat 1⟩, bulk := ⟨1, ofNat 1⟩, sliding := none }
    let m := PoolTask.machine (Limiter.pool · .standard .static) (·.setPool .standard .static ·)
    let callers : List (Nat × Recipe × (Asker ⊕ PoolTask)) :=
      [(0, {}, .inr { cost := 1 }), (0, {}, .inl ⟨.outright, .standard, -5, none⟩),
        (500000000, {}, .inr { cost := 1 })]
    let r : Run (Limiter Double) (Asker ⊕ PoolTask) (Result ⊕ Except Error Unit) :=
      .launch { shared := .new cfg 0 } callers
    let q := r.recast 1 (.inl ⟨.plain, .standard, -5, none⟩)
    let q' := r.recast 1 (.inl ⟨.derived, .standard, -5, none⟩)
    m.Keeps Limiter.Sound ∧ r.shared.Sound ∧ r.numbers.count 1 ≤ 1 ∧
      r.Runs 1 (.inl ⟨.outright, .standard, -5, none⟩) ∧
      ((r.settle (machine.sum m) 40).endings.map fun e => (e.me, e.finish)) =
        [(0, 0), (1, 1000000000), (2, 2000000000)] ∧
      ((q.settle (machine.sum m) 40).endings.map fun e => (e.me, e.finish)) =
        [(0, 0), (1, 1000000000), (2, 2000000000)] ∧
      (r.settle (machine.sum m) 40).log.length = 1 ∧
      (q.settle (machine.sum m) 40).log.length = 0 ∧
      Agree 1 .standard (-5) .outright .plain (r.settle (machine.sum m) 40)
        (q.settle (machine.sum m) 40) ∧
      Agree 1 .standard (-5) .outright .derived (r.settle (machine.sum m) 40)
        (q'.settle (machine.sum m) 40) := by
  intro cfg m callers r q q'
  have hm : m.Keeps Limiter.Sound := Caller.keeps_poolTask .standard .static
  have hsound : r.shared.Sound := .new (fun c => by cases c <;> decide) 0
  have hone : r.numbers.count 1 ≤ 1 := by
    rw [(Run.numbers_launch _ callers).count_eq]
    decide
  have hlaunch : r = _ := Run.launch_of_pairwise (by decide)
  have hruns : r.Runs 1 (.inl ⟨.outright, .standard, -5, none⟩) := by
    refine ⟨.later 1 0 {} (.inl ⟨.outright, .standard, -5, none⟩), ?_, rfl, rfl⟩
    rw [hlaunch]
    simp [Run.members, callers]
  have hendings : ((r.settle (machine.sum m) 40).endings.map fun e => (e.me, e.finish)) =
      [(0, 0), (1, 1000000000), (2, 2000000000)] := by
    rw [hlaunch]
    decide +kernel
  have hendings' : ((q.settle (machine.sum m) 40).endings.map fun e => (e.me, e.finish)) =
      [(0, 0), (1, 1000000000), (2, 2000000000)] := by
    show ((Run.settle (machine.sum m) 40 (r.recast 1 _)).endings.map _) = _
    rw [hlaunch]
    decide +kernel
  have hlog : (r.settle (machine.sum m) 40).log.length = 1 := by
    rw [hlaunch]
    decide +kernel
  have hlog' : (q.settle (machine.sum m) 40).log.length = 0 := by
    show (Run.settle (machine.sum m) 40 (r.recast 1 _)).log.length = 0
    rw [hlaunch]
    decide +kernel
  exact ⟨hm, hsound, hone, hruns, hendings, hendings', hlog, hlog',
    (ways_agree hm hsound hone hruns .plain 40).2, (ways_agree hm hsound hone hruns .derived 40).2⟩

end Asker

end DriveDelta
