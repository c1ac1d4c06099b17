import DriveDelta.Proofs.Admission.Pacing
import DriveDelta.Proofs.Double.Rounding
import DriveDelta.Proofs.Rehearsal.Alone
import DriveDelta.Rehearsal.Tokens

/-!
# A lone caller is served in time

A try in vain says how long the missing tokens will take to accrue, rounded to a nanosecond.
Whoever sleeps that long may thus be up to half a nanosecond early and find the pool a trifle short.
What is missing then accrues within the millisecond that every sleep lasts at least, so the third
try at the latest is granted: the loop neither spins nor waits for ever, whatever the cost and the
capacity.

## What is here

* `Pool.lack`, what is missing for an admission, with `Pool.lack_after_wait` and
  `Pool.granted_of_lack_le`: what is missing after a sleep, and when nothing is;
* `PoolTask.drawing`, tasks that take tokens from a pool with any kind of amounts;
* `PoolTask.Acquires`, what is meant by being served in time, and `PoolTask.acquires_promptly`.
-/

set_option autoImplicit false

namespace DriveDelta

open Number

/-! ## Rounded spans -/

/-- Two whole milliseconds in a row. -/
theorem Nanos.tick_add_milli (t : Nat) : tick (tick t + milli) = tick t + milli := by
  simp only [tick, milli]
  omega

/-- What is rounded down loses no more than a half. -/
theorem two_mul_le_roundHalfEven (num : Nat) {den : Nat} (hden : 0 < den) :
    2 * num ≤ (2 * roundHalfEven num den + 1) * den := by
  have hsplit : den * (num / den) + num % den = num := Nat.div_add_mod num den
  have hlt : num % den < den := Nat.mod_lt num hden
  have hquot : 2 * (den * (num / den)) = 2 * (num / den) * den := by ring
  simp only [roundHalfEven]
  split
  · rw [Nat.add_mul, ← hquot]
    omega
  · have hup : (2 * (num / den + 1) + 1) * den = 2 * (den * (num / den)) + 3 * den := by ring
    split
    · rw [hup]
      omega
    · split
      · rw [Nat.add_mul, ← hquot]
        omega
      · rw [hup]
        omega

namespace Pool

/-- An amount of seconds is a quotient of whole numbers, and what is negative counts as nothing. -/
theorem le_toNat_div (x : Rat) : x ≤ (x.num.toNat : Rat) / x.den := by
  calc x = (x.num : Rat) / x.den := (Rat.num_div_den x).symm
    _ ≤ _ := by
      refine div_le_div_of_nonneg_right ?_ (Nat.cast_nonneg _)
      exact_mod_cast Int.self_le_toNat x.num

/-- The nearest nanosecond is at most half a nanosecond too early. -/
theorem le_seconds_nanos (x : Rat) : x ≤ seconds (nanos x) + seconds 1 / 2 := by
  have hround := two_mul_le_roundHalfEven (x.num.toNat * Nanos.second) x.den_pos
  have hden : (0 : Rat) < x.den := by exact_mod_cast x.den_pos
  have hcast : 2 * ((x.num.toNat : Rat) * 1000000000) ≤ (2 * (nanos x : Nat) + 1) * x.den := by
    exact_mod_cast hround
  refine (le_toNat_div x).trans ?_
  rw [seconds_rat, seconds_rat, div_le_iff₀ hden, Nat.cast_one]
  linarith

theorem nanos_le {x : Rat} {d : Nat} (h : x ≤ seconds d) : nanos x ≤ d := by
  have hden : (0 : Rat) < x.den := by exact_mod_cast x.den_pos
  have hnum : x.num.toNat * Nanos.second ≤ d * x.den := by
    rcases le_total x.num 0 with hneg | hpos
    · rw [Int.toNat_of_nonpos hneg, Nat.zero_mul]
      exact Nat.zero_le _
    · have hx : ((x.num.toNat : Nat) : Rat) = x * x.den := by
        rw [Rat.mul_den_eq_num]
        exact_mod_cast Int.toNat_of_nonneg hpos
      have hle := mul_le_mul_of_nonneg_right h hden.le
      rw [← hx, seconds_rat] at hle
      have hscaled : ((x.num.toNat : Nat) : Rat) * 1000000000 ≤ d * x.den := by linarith
      exact_mod_cast hscaled
  calc nanos x = roundHalfEven (x.num.toNat * Nanos.second) x.den := rfl
    _ ≤ roundHalfEven (d * x.den) x.den := roundHalfEven_mono hnum
    _ = d := roundHalfEven_mul d x.den_pos

/-! ## What is missing -/

/-- What a pool lacks for an admission; nothing if this is not positive. -/
def lack (p : Pool Rat) (cost now : Nat) : Rat := p.charge cost - p.held now

variable {p : Pool Rat} {cost now later d w : Nat}

theorem take_granted (h : p.lack cost now ≤ 0) : (p.take cost now).2 = .granted := by
  have hle : p.charge cost ≤ p.held now := sub_nonpos.1 h
  rw [take]
  exact congrArg Prod.snd (if_pos (le_rat.2 hle))

theorem take_wait (h : (p.take cost now).2 = .wait w) :
    p.take cost now = (p.filled now, .wait w) ∧ w = nanos (p.lack cost now / p.rate) := by
  rw [take] at h ⊢
  split at h
  · exact absurd h (by simp)
  · rename_i hlacks
    rw [if_neg hlacks]
    cases h
    exact ⟨rfl, rfl⟩

/-- Accruing makes up for what is missing; what does not fit into the pool is never missed. -/
theorem lack_filled_le (p : Pool Rat) (cost now later : Nat) :
    (p.filled now).lack cost later ≤ max 0 (p.lack cost now - seconds (later - now) * p.rate) := by
  have hcharge : p.charge cost ≤ p.capacity := by
    rw [charge_rat]
    exact_mod_cast Nat.min_le_right _ _
  have hheld : (p.filled now).held later =
      min (p.held now + seconds (later - now) * p.rate) p.capacity := held_eq _ _
  have hlack : (p.filled now).lack cost later =
      p.charge cost - min (p.held now + seconds (later - now) * p.rate) p.capacity :=
    congrArg (p.charge cost - ·) hheld
  rw [hlack, lack]
  rcases min_choice (p.held now + seconds (later - now) * p.rate) p.capacity with hmin | hmin
  · rw [hmin]
    exact le_max_of_le_right (by linarith)
  · rw [hmin]
    exact le_max_of_le_left (sub_nonpos.2 hcharge)

theorem seconds_mono {d d' : Nat} (h : d ≤ d') : (seconds d : Rat) ≤ seconds d' := by
  rw [seconds_rat, seconds_rat]
  exact mul_le_mul_of_nonneg_right (by exact_mod_cast h) (by norm_num)

/-- What accrues within a span is there when the span is over. -/
theorem granted_of_lack_le (hrate : 0 < p.rate) (hlack : p.lack cost now ≤ seconds d * p.rate)
    (hlater : now + d ≤ later) : ((p.filled now).take cost later).2 = .granted := by
  have hspan : seconds d * p.rate ≤ seconds (later - now) * p.rate :=
    mul_le_mul_of_nonneg_right (seconds_mono (by omega)) hrate.le
  exact take_granted ((lack_filled_le p cost now later).trans (max_le le_rfl (by linarith)))

/-- Whoever has slept as long as the pool said is short of half a nanosecond's worth at most. -/
theorem lack_after_wait (hrate : 0 < p.rate) (hwait : (p.take cost now).2 = .wait w)
    (hlater : now + w ≤ later) : (p.filled now).lack cost later ≤ seconds 1 / 2 * p.rate := by
  have hnanos : p.lack cost now ≤ (seconds w + seconds 1 / 2) * p.rate := by
    rw [← div_le_iff₀ hrate, (take_wait hwait).2]
    exact le_seconds_nanos _
  have hspan : seconds w * p.rate ≤ seconds (later - now) * p.rate :=
    mul_le_mul_of_nonneg_right (seconds_mono (by omega)) hrate.le
  have hhalf : 0 ≤ (seconds 1 : Rat) / 2 * p.rate := by
    rw [seconds_rat]
    positivity
  exact (lack_filled_le p cost now later).trans (max_le hhalf (by linarith))

theorem wait_le (hrate : 0 < p.rate) (hwait : (p.take cost now).2 = .wait w)
    (hlack : p.lack cost now ≤ seconds d * p.rate) : w ≤ d := by
  rw [(take_wait hwait).2]
  exact nanos_le ((div_le_iff₀ hrate).2 hlack)

/-- However a pool is used, it keeps accruing. -/
theorem rate_pos_after (capacity start : Nat) (rate : Rat) (us : List (Use Rat)) :
    0 < (keeper.after (.new (Pool.new capacity rate start)) us).kept.rate := by
  have hleast (rate : Rat) : 0 < larger rate leastRate := by
    rw [larger_rat, leastRate_rat]
    exact lt_max_of_lt_right (by norm_num)
  refine keeper.forall_after (I := fun p => 0 < p.rate) ?_ ?_ ?_ us
  · intro p now g q hp hq
    exact lt_of_lt_of_eq hp hq.rate_eq.symm
  · intro p rate now _
    exact hleast rate
  · exact hleast rate

end Pool

/-! ## A lone caller -/

namespace PoolTask

section Tasks

variable {α σ : Type} [Number α]

/-- Tasks that take tokens from a pool that is part of a larger state, with amounts of any kind. -/
def drawing (get : σ → Pool α) (set : σ → Pool α → σ) : Machine σ PoolTask (Except Error Unit) where
  step g s t :=
    let look :=
      match t.asleep with
      | none => some ((get s).turn t.cost g.now g.status)
      | some until_ => (get s).resume t.cost g.now g.status until_
    look.map fun r => t.progress (set s r.1) r.2
  alarms t := t.asleep.toList

theorem machine_eq_drawing (get : σ → Pool Double) (set : σ → Pool Double → σ) :
    machine get set = drawing get set := rfl

/-- Tasks that take tokens from a pool that is all there is. -/
def lone : Machine (Pool α) PoolTask (Except Error Unit) := drawing id fun _ q => q

/-- What the pool answers to a task that has the turn and tries to take tokens. -/
def tried (r : Run (Pool α) PoolTask (Except Error Unit)) : List Pool.Take :=
  match r.turn with
  | some (.active _ context t) =>
    if (r.stage.status context).isNone && t.asleep.all (· ≤ r.stage.now) then
      [(r.shared.take t.cost r.stage.now).2]
    else []
  | _ => []

variable {r : Run (Pool α) PoolTask (Except Error Unit)} {me now w : Nat} {context : Context}
  {forest : Forest} {p : Pool α} {t : PoolTask}

/-- A task that is not asleep, or no longer, has a look. -/
theorem step_of_due (hendless : context.Endless forest) (hdue : ∀ u ∈ t.asleep, u ≤ now) :
    lone.step (Run.glance me context forest now) p t =
      some (t.progress (p.turn t.cost now none).1 (p.turn t.cost now none).2) := by
  simp only [lone, drawing, Run.glance, hendless now]
  cases hasleep : t.asleep with
  | none => rfl
  | some until_ =>
    have hresume : p.resume t.cost now none until_ = some (p.turn t.cost now none) :=
      if_pos (by simpa using hdue until_ hasleep)
    exact congrArg (Option.map _) hresume

theorem step_of_early {until_ : Nat} (hendless : context.Endless forest)
    (hasleep : t.asleep = some until_) (hearly : now < until_) :
    lone.step (Run.glance me context forest now) p t = none := by
  have hresume : p.resume t.cost now none until_ = none := if_neg (by simpa using hearly)
  simp only [lone, drawing, Run.glance, hendless now, hasleep]
  exact congrArg (Option.map _) hresume

theorem tried_of_due (h : r.Alone me context forest now p t) (hendless : context.Endless forest)
    (hdue : ∀ u ∈ t.asleep, u ≤ now) : tried r = [(p.take t.cost now).2] := by
  have hstatus : r.stage.status context = none := by
    rw [h.stage_eq]
    exact hendless now
  have hall : t.asleep.all (· ≤ r.stage.now) = true := by
    rw [h.stage_eq, Option.all_eq_true]
    exact fun u hu => decide_eq_true (hdue u hu)
  rw [tried, h.turn_eq]
  simp only [hstatus, hall, h.shared_eq]
  rw [h.stage_eq]
  rfl

theorem tried_of_early {until_ : Nat} (h : r.Alone me context forest now p t)
    (hasleep : t.asleep = some until_) (hearly : now < until_) : tried r = [] := by
  have hnot : t.asleep.all (· ≤ r.stage.now) = false := by
    rw [h.stage_eq, hasleep]
    simpa using hearly
  rw [tried, h.turn_eq]
  simp [hnot]

omit [Number α] in
theorem cancels_progress (t : PoolTask) (p : Pool α) (turn : Turn) :
    (t.progress p turn).cancels = false := by
  cases turn <;> rfl

/-- A lone task that finds the tokens it wants takes them, and that is all. -/
theorem passes_granted (h : r.Alone me context forest now p t) (hendless : context.Endless forest)
    (hdue : ∀ u ∈ t.asleep, u ≤ now) (hgranted : (p.take t.cost now).2 = .granted) :
    ∃ r', r.Passes lone tried [.granted] r' ∧ r'.advance lone = none ∧
      r'.endings = [⟨me, .ok (), now, context⟩] := by
  have hturn : p.turn t.cost now none = ((p.take t.cost now).1, .granted) := by
    rw [Pool.turn]
    generalize p.take t.cost now = r at hgranted
    obtain ⟨q, _⟩ := r
    cases hgranted
    rfl
  obtain ⟨r', hadvance, hover, -, hendings⟩ := h.finish (step_of_due hendless hdue)
    (by rw [hturn]; rfl) (by rw [hturn]; rfl)
  refine ⟨r', ?_, hover, hendings⟩
  rw [← hgranted, ← tried_of_due h hendless hdue]
  exact .single hadvance

/-- A lone task that sleeps goes on when its sleep is over, as there is nothing else to wait for. -/
theorem passes_awake {until_ : Nat} (h : r.Alone me context forest now p t)
    (hendless : context.Endless forest) (hasleep : t.asleep = some until_)
    (hearly : now < until_) :
    ∃ r', r.Passes lone tried [] r' ∧ r'.Alone me context forest (Nanos.tick until_) p t := by
  have hgoes : lone.step (Run.glance me context forest (Nanos.tick until_)) p t =
      some (t.progress (p.turn t.cost (Nanos.tick until_) none).1
        (p.turn t.cost (Nanos.tick until_) none).2) := by
    refine step_of_due hendless ?_
    rw [hasleep]
    rintro u ⟨⟩
    exact Nanos.le_tick until_
  have hcancels (q : Progress (Pool α) PoolTask (Except Error Unit))
      (hq : lone.step (Run.glance me context forest (Nanos.tick until_)) p t = some q) :
      q.cancels = false := by
    obtain rfl := Option.some_inj.1 (hgoes.symm.trans hq)
    exact cancels_progress _ _ _
  have halarms : (lone : Machine (Pool α) PoolTask (Except Error Unit)).alarms t = [until_] :=
    congrArg Option.toList hasleep
  obtain ⟨r₁, r', hadvance, hnobody, hadvance', h'⟩ := h.wait
    (step_of_early hendless hasleep hearly) hendless.deadline_eq
    (halarms ▸ Nanos.min?_alarm hearly) (by rw [hgoes]; rfl) hcancels
  have htried : tried r = [] := tried_of_early h hasleep hearly
  have htried₁ : tried r₁ = [] := by rw [tried, hnobody]
  have hpasses : r.Passes lone tried (tried r ++ tried r₁) r' :=
    .trans (.single hadvance) (.single hadvance')
  rw [htried, htried₁] at hpasses
  exact ⟨r', hpasses, h'⟩

/-- A lone task that finds too few tokens sleeps as long as the pool says, or a millisecond. -/
theorem passes_asleep (h : r.Alone me context forest now p t) (hendless : context.Endless forest)
    (hdue : ∀ u ∈ t.asleep, u ≤ now) (hwait : (p.take t.cost now) = (p.filled now, .wait w))
    (hclock : now + max w Nanos.milli ≤ Nanos.lastInstant) :
    ∃ r', r.Passes lone tried [.wait w] r' ∧
      r'.Alone me context forest (Nanos.tick (now + max w Nanos.milli)) (p.filled now)
        { t with asleep := some (now + max w Nanos.milli) } := by
  have hturn : p.turn t.cost now none =
      (p.filled now, .asleep (now + max w Nanos.milli)) := by
    rw [← Nanos.wake_of_le hclock, Pool.turn, hwait]
  have hlater : now < now + max w Nanos.milli :=
    Nat.lt_add_of_pos_right (Nat.lt_of_lt_of_le (by decide) (Nat.le_max_right _ _))
  obtain ⟨r₁, hadvance, h₁⟩ := h.step (step_of_due hendless hdue)
    (by rw [hturn]; rfl) (by rw [hturn]; rfl)
  rw [hturn] at h₁
  obtain ⟨r', hpasses, h'⟩ := passes_awake h₁ hendless rfl hlater
  have htried : tried r = [.wait w] := by rw [tried_of_due h hendless hdue, hwait]
  rw [← htried, ← List.append_nil (tried r)]
  exact ⟨r', .head hadvance hpasses, h'⟩

end Tasks

/-- A lone task ends with the tokens that it wants, no later than at a given time and after no more
than so many tries. -/
def Acquires (r : Run (Pool Rat) PoolTask (Except Error Unit)) (context : Context)
    (tries latest : Nat) : Prop :=
  ∃ finish answers enough, r.stage.now ≤ finish ∧ finish ≤ latest ∧ answers.length ≤ tries ∧
    ∀ fuel, enough ≤ fuel →
      (r.settle lone fuel).endings = [⟨0, .ok (), finish, context⟩] ∧
        r.story lone tried fuel = answers

section Promptness

variable {r r' : Run (Pool Rat) PoolTask (Except Error Unit)} {context : Context}
  {forest : Forest} {p : Pool Rat} {t : PoolTask} {now tries latest : Nat}
  {answers : List Pool.Take}

/-- Where a try is granted, all is over. -/
theorem acquires_of_granted (hpasses : r.Passes lone tried answers r')
    (h : r'.Alone 0 context forest now p t) (hendless : context.Endless forest)
    (hdue : ∀ u ∈ t.asleep, u ≤ now) (hgranted : (p.take t.cost now).2 = .granted)
    (hsince : r.stage.now ≤ now) (hlatest : now ≤ latest) (htries : answers.length + 1 ≤ tries) :
    Acquires r context tries latest := by
  obtain ⟨r'', hlast, hover, hendings⟩ := passes_granted h hendless hdue hgranted
  obtain ⟨enough, hall⟩ := (hpasses.trans hlast).settle hover
  refine ⟨now, answers ++ [.granted], enough, hsince, hlatest, by simpa using htries, ?_⟩
  intro fuel hfuel
  obtain ⟨hsettle, hstory⟩ := hall fuel hfuel
  exact ⟨by rw [hsettle, hendings], hstory⟩

/-- Where a try is in vain, the third one is granted at the latest. -/
theorem acquires_of_wait {w second : Nat} (h : r.Alone 0 context forest now p t)
    (hendless : context.Endless forest) (hdue : ∀ u ∈ t.asleep, u ≤ now) (hrate : 0 < p.rate)
    (hwait : (p.take t.cost now).2 = .wait w)
    (hsecond : Nanos.tick (now + max w Nanos.milli) = second)
    (hclock : second + Nanos.milli ≤ Nanos.lastInstant) :
    Acquires r context 3 (second + Nanos.milli) := by
  have hstart : r.stage.now = now := by rw [h.stage_eq]
  have hslept : now + max w Nanos.milli ≤ second := hsecond ▸ Nanos.le_tick _
  have hlack : (p.filled now).lack t.cost second ≤ seconds 1 / 2 * p.rate :=
    Pool.lack_after_wait hrate hwait (by omega)
  obtain ⟨r₁, hpasses₁, h₁⟩ := passes_asleep h hendless hdue (Pool.take_wait hwait).1 (by omega)
  rw [hsecond] at h₁
  cases hanswer : ((p.filled now).take t.cost second).2 with
  | granted =>
    exact acquires_of_granted hpasses₁ h₁ hendless (by simpa using hslept) hanswer (by omega)
      (by omega) (by simp)
  | wait w' =>
    -- what is missing now accrues within the shortest sleep
    have hrate₁ : 0 < (p.filled now).rate := hrate
    have hshort : (p.filled now).lack t.cost second ≤
        seconds Nanos.milli * (p.filled now).rate := by
      refine hlack.trans (mul_le_mul_of_nonneg_right ?_ hrate.le)
      rw [Pool.seconds_rat, Pool.seconds_rat]
      norm_num [Nanos.milli]
    have hmilli : max w' Nanos.milli = Nanos.milli :=
      Nat.max_eq_right (Pool.wait_le hrate₁ hanswer hshort)
    have hthird : Nanos.tick (second + Nanos.milli) = second + Nanos.milli :=
      hsecond ▸ Nanos.tick_add_milli _
    obtain ⟨r₂, hpasses₂, h₂⟩ := passes_asleep h₁ hendless (by simpa using hslept)
      (Pool.take_wait hanswer).1 (by omega)
    rw [hmilli, hthird] at h₂
    have hgranted := Pool.granted_of_lack_le hrate₁ hshort (le_refl (second + Nanos.milli))
    exact acquires_of_granted (hpasses₁.trans hpasses₂) h₂ hendless (by simp) hgranted (by omega)
      le_rfl (by simp)

end Promptness

/-- **A lone caller is served in time.**  Take any pool in use, any cost, and a context that is
never done.  If the first try is granted, all is over at once.  If it says how long to wait, and the
clock can represent when that is over, then the call ends within a millisecond of the end of a sleep
of so long, or of a millisecond, with the tokens, after three tries at the most. -/
theorem acquires_promptly (capacity start cost : Nat) (rate : Rat) (us : List (Use Rat))
    (stage : Stage) (context : Context) (hendless : context.Endless stage.forest) :
    let p := (Pool.keeper.after (.new (Pool.new capacity rate start)) us).kept
    let r : Run (Pool Rat) PoolTask (Except Error Unit) :=
      .join { stage, shared := p } context { cost := cost }
    ((p.take cost stage.now).2 = .granted → Acquires r context 1 stage.now) ∧
    ∀ w, (p.take cost stage.now).2 = .wait w →
      let due := Nanos.tick (stage.now + max w Nanos.milli) + Nanos.milli
      due ≤ Nanos.lastInstant → Acquires r context 3 due := by
  intro p r
  have h : r.Alone 0 context stage.forest stage.now p { cost := cost } :=
    Run.alone_join stage p context _
  constructor
  · intro hgranted
    exact acquires_of_granted (.refl r) h hendless (by simp) hgranted le_rfl le_rfl le_rfl
  · intro w hwait due hclock
    have hrate : 0 < p.rate := Pool.rate_pos_after capacity start rate us
    exact acquires_of_wait h hendless (by simp) hrate hwait rfl hclock

/-- At a rate of one token in a millisecond and three tenths of a nanosecond, whoever wants a token
of an empty pool has to wait for a millisecond and is short of the three tenths, so it is the third
try that is granted.  A full pool grants more than it can hold at once. -/
theorem acquires_promptly_third :
    (let us : List (Use Rat) := [⟨0, .inl (.take 1)⟩]
      let context : Context := { token := 0 }
      let p := (Pool.keeper.after (.new (Pool.new 1 (10000000000 / 10000003 : Rat) 0)) us).kept
      let r : Run (Pool Rat) PoolTask (Except Error Unit) :=
        .join { shared := p } context { cost := 1 }
      context.Endless {} ∧ (p.take 1 0).2 = .wait 1000000 ∧ 2000000 ≤ Nanos.lastInstant ∧
        r.story lone tried 10 = [.wait 1000000, .wait 0, .granted] ∧
        Acquires r context 3 2000000) ∧
    (let us : List (Use Rat) := [⟨0, .inr 2⟩]
      let context : Context := { token := 0 }
      let p := (Pool.keeper.after (.new (Pool.new 3 (1 : Rat) 0)) us).kept
      let r : Run (Pool Rat) PoolTask (Except Error Unit) :=
        .join { shared := p } context { cost := 5 }
      (p.take 5 0).2 = .granted ∧ Acquires r context 1 0) := by
  have hendless : ({ token := 0 } : Context).Endless {} := fun _ => rfl
  constructor
  · intro us context p r
    have hwait : (p.take 1 0).2 = .wait 1000000 := by decide +kernel
    have hclock : 2000000 ≤ Nanos.lastInstant := by decide
    have hpromptly := (acquires_promptly 1 0 1 (10000000000 / 10000003) us {} context hendless).2
    exact ⟨hendless, hwait, hclock, by decide +kernel, hpromptly 1000000 hwait hclock⟩
  · intro us context p r
    have hgranted : (p.take 5 0).2 = .granted := by decide +kernel
    exact ⟨hgranted, (acquires_promptly 3 0 5 1 us {} context hendless).1 hgranted⟩

end PoolTask

end DriveDelta
