import DriveDelta.Proofs.Admission.Conformance
import DriveDelta.Proofs.Double.Order

/-!
# The rate of an adaptive pool

What is observed moves the rate of an adaptive pool down at once and up in steps, and three bounds
act on it in different places: the floor when it goes down, the ceiling when it goes up, and the
lowest rate of any pool whenever it is set.  However these lie to each other, the rate stays between
the larger one of floor and lowest rate and the larger one of ceiling and lowest rate.  A step up
takes a full run of successes, so a pool with any history behind it is back at its ceiling ten full
runs later, unless something has been throttled in between.

## What is here

* `Keeper.after`, what uses of a pool leave, `observations`, what was observed in them, and
  `streak`, the successes since the last throttled exchange;
* `Adaptive.Observed`, the ways in which one observation can act, and `Adaptive.after_induction`;
* `Adaptive.Counts`, what the length of the current run is;
* `Adaptive.Banded`, for pools over doubles, and `Adaptive.rate_keeps_to_band`: the rate stays in
  its band and moves the right way;
* `Adaptive.Climbs`, for exact amounts, and `Adaptive.rate_recovers`: ten full runs of successes
  restore the ceiling.
-/

set_option autoImplicit false

namespace DriveDelta

open Number

/-! ## Uses and observations -/

/-- What uses of a kept pool leave. -/
def Keeper.after {α π γ : Type} [Number α] (k : Keeper α π γ) (d : Desk π) (us : List (Use γ)) :
    Desk π := us.foldl (fun d u => (k.use d u).1) d

/-- What is observed in some uses, in their order. -/
def observations (us : List (Use Feedback)) : List Feedback := us.filterMap (·.deed.getRight?)

/-- The successes since the last throttled exchange. -/
def streak (fs : List Feedback) : Nat := (fs.reverse.takeWhile (· ≠ .throttled)).count .success

theorem streak_concat_success (fs : List Feedback) :
    streak (fs ++ [.success]) = streak fs + 1 := by
  simp [streak]

theorem streak_concat_throttled (fs : List Feedback) : streak (fs ++ [.throttled]) = 0 := by
  simp [streak]

theorem streak_concat_neutral (fs : List Feedback) : streak (fs ++ [.neutral]) = streak fs := by
  simp [streak]

/-- Successes are not forgotten before an exchange is throttled. -/
theorem count_le_streak_append (fs : List Feedback) {gs : List Feedback}
    (hgs : .throttled ∉ gs) : gs.count .success ≤ streak (fs ++ gs) := by
  have hall : ∀ g ∈ gs.reverse, g ≠ .throttled := by
    rintro g hg rfl
    exact hgs (List.mem_reverse.1 hg)
  rw [streak, List.reverse_append, List.takeWhile_append_of_pos (by simpa using hall),
    List.count_append, List.count_reverse]
  exact Nat.le_add_right _ _

theorem observations_append (us us' : List (Use Feedback)) :
    observations (us ++ us') = observations us ++ observations us' :=
  List.filterMap_append

theorem Keeper.after_append {α π γ : Type} [Number α] (k : Keeper α π γ) (d : Desk π)
    (us us' : List (Use γ)) : k.after d (us ++ us') = k.after (k.after d us) us' :=
  List.foldl_append

theorem Keeper.after_concat {α π γ : Type} [Number α] (k : Keeper α π γ) (d : Desk π)
    (us : List (Use γ)) (u : Use γ) : k.after d (us ++ [u]) = (k.use (k.after d us) u).1 :=
  k.after_append d us [u]

/-- What holds of what a pool is kept in, and is kept by every use, holds in the end. -/
theorem Keeper.forall_after {α π γ : Type} [Number α] (k : Keeper α π γ) {I : π → Prop}
    (hput : ∀ x now g q, I x → (k.pool x).Served now g q → I (k.put x q))
    (hadjust : ∀ x c now, I x → I (k.adjust x c now)) {d : Desk π} (hd : I d.kept)
    (us : List (Use γ)) : I (k.after d us).kept := by
  induction us generalizing d with
  | nil => exact hd
  | cons u us ih =>
    have hnext : I (k.use d u).1.kept := by
      rw [use]
      split
      · exact hput _ _ _ _ hd (Pool.serve_served _ _ _ _)
      · exact hadjust _ _ _ hd
    exact ih hnext

namespace Adaptive

section Steps

variable {α : Type} [Number α] {a b : Adaptive α} {now : Nat} {f : Feedback}

/-- How an observation acts on an adaptive pool. -/
inductive Observed (now : Nat) (a : Adaptive α) : Feedback → Adaptive α → Prop where
  /-- A success of a run that is not full yet. -/
  | counted (hrun : min (a.successes + 1) maxCount < a.recovery) :
    Observed now a .success { a with successes := min (a.successes + 1) maxCount }
  /-- A full run that raises the rate. -/
  | raised (hrun : a.recovery ≤ min (a.successes + 1) maxCount)
    (hlt : lt a.pool.rate a.faster = true) :
    Observed now a .success { a with successes := 0, pool := a.pool.setRate a.faster now }
  /-- A full run that finds the rate at its upper end. -/
  | full (hrun : a.recovery ≤ min (a.successes + 1) maxCount)
    (hlt : lt a.pool.rate a.faster = false) :
    Observed now a .success { a with successes := 0 }
  /-- A throttled exchange that lowers the rate. -/
  | lowered (hlt : lt a.slower a.pool.rate = true) :
    Observed now a .throttled { a with
      successes := 0, throttled := min (a.throttled + 1) maxCount,
      pool := a.pool.setRate a.slower now }
  /-- A throttled exchange that finds the rate at its lower end. -/
  | floored (hlt : lt a.slower a.pool.rate = false) :
    Observed now a .throttled { a with
      successes := 0, throttled := min (a.throttled + 1) maxCount }
  | ignored : Observed now a .neutral a

theorem recordSuccess_observed (a : Adaptive α) (now : Nat) :
    a.Observed now .success (a.recordSuccess now).1 := by
  simp only [recordSuccess]
  split
  · rename_i hrun
    exact .counted hrun
  · rename_i hrun
    split
    · rename_i hlt
      exact .raised (Nat.le_of_not_lt hrun) hlt
    · rename_i hlt
      exact .full (Nat.le_of_not_lt hrun) (by simpa using hlt)

theorem recordThrottled_observed (a : Adaptive α) (now : Nat) :
    a.Observed now .throttled (a.recordThrottled now).1 := by
  rw [recordThrottled]
  split
  · rename_i hlt
    exact .lowered hlt
  · rename_i hlt
    exact .floored (by simpa using hlt)

theorem observe_observed (a : Adaptive α) (f : Feedback) (now : Nat) :
    a.Observed now f (a.observe f now) := by
  cases f with
  | success => exact a.recordSuccess_observed now
  | throttled => exact a.recordThrottled_observed now
  | neutral => exact .ignored

/-- **What callers leave alone and every observation keeps, all uses of an adaptive pool keep.**
Callers change the tokens of the pool only, so neither its rate nor a counter. -/
theorem after_induction {I : List Feedback → Adaptive α → Prop}
    (hput : ∀ fs a p, I fs a → p.rate = a.pool.rate → I fs { a with pool := p })
    (hobserve : ∀ fs a f now, I fs a → I (fs ++ [f]) (a.observe f now))
    {d : Desk (Adaptive α)} (hd : I [] d.kept) (us : List (Use Feedback)) :
    I (observations us) (keeper.after d us).kept := by
  induction us using List.reverseRecOn with
  | nil => exact hd
  | append_singleton us u ih =>
    rw [keeper.after_concat, Keeper.use]
    cases hdeed : u.deed with
    | inl deed =>
      have hnone : observations (us ++ [u]) = observations us := by
        simp [observations, hdeed]
      rw [hnone]
      exact hput _ _ _ ih (Pool.serve_served _ _ _ _).rate_eq
    | inr f =>
      have hone : observations (us ++ [u]) = observations us ++ [f] := by
        simp [observations, hdeed]
      rw [hone]
      exact hobserve _ _ _ _ ih

/-! ### The run of successes -/

/-- The length of the current run of successes.  A run is begun anew by a throttled exchange, and
when it is full. -/
structure Counts (recovery : Nat) (fs : List Feedback) (a : Adaptive α) : Prop where
  recovery_eq : a.recovery = recovery
  successes_eq : a.successes = streak fs % recovery

variable {recovery : Nat} {fs : List Feedback}

omit [Number α] in
theorem Counts.successes_lt (h : a.Counts recovery fs) (hpos : 0 < recovery) :
    a.successes < recovery := h.successes_eq ▸ Nat.mod_lt _ hpos

omit [Number α] in
/-- The run that a success ends is full. -/
theorem Counts.full_run (h : a.Counts recovery fs) (hpos : 0 < recovery)
    (hrun : a.recovery ≤ min (a.successes + 1) maxCount) : a.successes + 1 = recovery := by
  have hlt := h.successes_lt hpos
  have hle := hrun.trans (Nat.min_le_left _ _)
  rw [h.recovery_eq] at hle
  omega

omit [Number α] in
theorem Counts.dvd_of_full_run (h : a.Counts recovery fs) (hpos : 0 < recovery)
    (hrun : a.recovery ≤ min (a.successes + 1) maxCount) : recovery ∣ streak fs + 1 := by
  have hfull := h.full_run hpos hrun
  rw [h.successes_eq] at hfull
  rw [← Nat.div_add_mod (streak fs) recovery, Nat.add_assoc, hfull]
  exact (Nat.dvd_mul_right _ _).add (Nat.dvd_refl _)

omit [Number α] in
/-- In a run that is not full, the successes of earlier runs do not count. -/
theorem Counts.mod_of_short_run (h : a.Counts recovery fs) (hpos : 0 < recovery)
    (hle : recovery ≤ maxCount) (hrun : min (a.successes + 1) maxCount < a.recovery) :
    (streak fs + 1) % recovery = a.successes + 1 := by
  have hlt := h.successes_lt hpos
  rw [h.recovery_eq, Nat.min_eq_left (by omega)] at hrun
  have hsplit := Nat.div_add_mod (streak fs) recovery
  rw [← h.successes_eq] at hsplit
  rw [← hsplit, Nat.add_assoc, Nat.mul_add_mod, Nat.mod_eq_of_lt hrun]

theorem Counts.new (capacity : Nat) (ceiling floor : α) (recovery now : Nat) :
    (Adaptive.new capacity ceiling floor recovery now).Counts (max recovery 1) [] :=
  ⟨rfl, (Nat.zero_mod _).symm⟩

theorem Counts.observed (h : a.Counts recovery fs) (hpos : 0 < recovery)
    (hle : recovery ≤ maxCount) (hb : a.Observed now f b) : b.Counts recovery (fs ++ [f]) := by
  cases hb with
  | counted hrun =>
    refine ⟨h.recovery_eq, ?_⟩
    have hlt := h.successes_lt hpos
    rw [streak_concat_success, h.mod_of_short_run hpos hle hrun]
    exact Nat.min_eq_left (by omega)
  | raised hrun | full hrun =>
    refine ⟨h.recovery_eq, ?_⟩
    rw [streak_concat_success, Nat.mod_eq_zero_of_dvd (h.dvd_of_full_run hpos hrun)]
  | lowered | floored =>
    refine ⟨h.recovery_eq, ?_⟩
    rw [streak_concat_throttled, Nat.zero_mod]
  | ignored => exact ⟨h.recovery_eq, by rw [streak_concat_neutral, h.successes_eq]⟩

end Steps

/-! ## The band -/

section Band

variable {a b : Adaptive Double} {ceiling floor : Double} {now : Nat} {f : Feedback}

theorem isNaN_leastRate : (Pool.leastRate : Double).isNaN = false := Pool.isAmount_leastRate.isNaN

/-- Whatever rate is asked for, the one that is set is at least the lowest one. -/
theorem leastRate_le_larger (rate : Double) :
    (Pool.leastRate : Double).le (larger rate Pool.leastRate) = true :=
  Double.le_max_right isNaN_leastRate

/-- The rate lies between the floor and the ceiling, where both count as the lowest rate of any pool
if they are below it. -/
structure Banded (ceiling floor : Double) (a : Adaptive Double) : Prop where
  ceiling_eq : a.ceiling = ceiling
  floor_eq : a.floor = smaller floor ceiling
  le_rate : (larger (smaller floor ceiling) Pool.leastRate).le a.pool.rate = true
  rate_le : a.pool.rate.le (larger ceiling Pool.leastRate) = true

namespace Banded

theorem leastRate_le (h : a.Banded ceiling floor) :
    (Pool.leastRate : Double).le a.pool.rate = true :=
  Double.le_trans (leastRate_le_larger _) h.le_rate

theorem new (hceiling : ceiling.isNaN = false) (capacity recovery start : Nat) :
    (Adaptive.new capacity ceiling floor recovery start).Banded ceiling floor := by
  have hleast := leastRate_le_larger ceiling
  refine ⟨rfl, rfl, ?_, Double.le_refl (Double.le_iff.1 hleast).2.1⟩
  exact Double.max_le (Double.le_trans (Double.min_le_right hceiling) (Double.le_max_left hceiling))
    hleast

/-- A throttled exchange does not raise the rate. -/
theorem rate_le_of_throttled (h : a.Banded ceiling floor) (hb : a.Observed now .throttled b) :
    b.pool.rate.le a.pool.rate = true := by
  cases hb with
  | lowered hlt => exact Double.max_le (Double.le_of_lt hlt) h.leastRate_le
  | floored => exact Double.le_refl (Double.le_iff.1 h.rate_le).1

/-- A success does not lower the rate. -/
theorem le_rate_of_success (h : a.Banded ceiling floor) (hb : a.Observed now .success b) :
    a.pool.rate.le b.pool.rate = true := by
  have hself : a.pool.rate.le a.pool.rate = true := Double.le_refl (Double.le_iff.1 h.rate_le).1
  cases hb with
  | raised _ hlt =>
    have hfaster : a.faster.isNaN = false := (Double.lt_iff.1 hlt).2.1
    exact Double.le_trans (Double.le_of_lt hlt) (Double.le_max_left hfaster)
  | counted => exact hself
  | full => exact hself

theorem put (h : a.Banded ceiling floor) {p : Pool Double} (hp : p.rate = a.pool.rate) :
    ({ a with pool := p } : Adaptive Double).Banded ceiling floor :=
  ⟨h.ceiling_eq, h.floor_eq, hp ▸ h.le_rate, hp ▸ h.rate_le⟩

theorem observed (h : a.Banded ceiling floor) (hceiling : ceiling.isNaN = false)
    (hfloor : floor.isNaN = false) (hb : a.Observed now f b) : b.Banded ceiling floor := by
  cases hb with
  | lowered hlt =>
    have hbound : (smaller floor ceiling).le a.slower = true := by
      rw [slower, h.floor_eq]
      exact Double.le_max_right (Double.isNaN_min hfloor hceiling)
    have hslower : a.slower.isNaN = false := (Double.le_iff.1 hbound).2.1
    refine ⟨h.ceiling_eq, h.floor_eq, ?_, ?_⟩
    · exact Double.max_le (Double.le_trans hbound (Double.le_max_left hslower))
        (leastRate_le_larger _)
    · exact Double.le_trans (h.rate_le_of_throttled (.lowered hlt)) h.rate_le
  | raised hrun hlt =>
    have hbound : a.faster.le ceiling = true := by
      rw [faster, h.ceiling_eq]
      exact Double.min_le_right hceiling
    refine ⟨h.ceiling_eq, h.floor_eq, ?_, ?_⟩
    · exact Double.le_trans h.le_rate (h.le_rate_of_success (.raised hrun hlt))
    · exact Double.max_le (Double.le_trans hbound (Double.le_max_left hceiling))
        (leastRate_le_larger _)
  | counted => exact ⟨h.ceiling_eq, h.floor_eq, h.le_rate, h.rate_le⟩
  | full => exact ⟨h.ceiling_eq, h.floor_eq, h.le_rate, h.rate_le⟩
  | floored => exact ⟨h.ceiling_eq, h.floor_eq, h.le_rate, h.rate_le⟩
  | ignored => exact h

end Banded

/-- A success that changes the rate ends a full run. -/
theorem Observed.run_le (hb : a.Observed now .success b) (hne : b.pool.rate ≠ a.pool.rate) :
    a.recovery ≤ min (a.successes + 1) maxCount := by
  cases hb with
  | raised hrun => exact hrun
  | counted => exact absurd rfl hne
  | full => exact absurd rfl hne

/-- The rate of an adaptive pool keeps to its band and moves the right way, with what has been
observed so far. -/
structure Tame (ceiling floor : Double) (recovery : Nat) (fs : List Feedback)
    (a : Adaptive Double) : Prop where
  le_rate : (larger (smaller floor ceiling) Pool.leastRate).le a.pool.rate = true
  rate_le : a.pool.rate.le (larger ceiling Pool.leastRate) = true
  throttled_le : ∀ now, (a.recordThrottled now).1.pool.rate.le a.pool.rate = true
  le_success : ∀ now, a.pool.rate.le (a.recordSuccess now).1.pool.rate = true
  /-- The run is what is left of the successes since the last throttled exchange after as many full
  runs as they make up. -/
  successes_eq : a.successes = streak fs % recovery
  successes_lt : a.successes < recovery
  /-- A success that changes the rate is the last one of a full run. -/
  full_run : ∀ now, (a.recordSuccess now).1.pool.rate ≠ a.pool.rate →
    recovery ∣ streak (fs ++ [.success])

theorem Counts.tame {recovery : Nat} {fs : List Feedback} (h : a.Counts recovery fs)
    (hpos : 0 < recovery) (hbanded : a.Banded ceiling floor) :
    a.Tame ceiling floor recovery fs where
  le_rate := hbanded.le_rate
  rate_le := hbanded.rate_le
  throttled_le now := hbanded.rate_le_of_throttled (a.recordThrottled_observed now)
  le_success now := hbanded.le_rate_of_success (a.recordSuccess_observed now)
  successes_eq := h.successes_eq
  successes_lt := h.successes_lt hpos
  full_run now hne := by
    rw [streak_concat_success]
    exact h.dvd_of_full_run hpos ((a.recordSuccess_observed now).run_le hne)

end Band

end Adaptive

/-! ## The pools of a limiter -/

namespace Limiter

/-- A limiter as its users leave it: it was configured with these figures, and since then tokens
have been taken from it and observations passed on to it. -/
inductive Configured (cfg : LimiterConfig Double) : Limiter Double → Prop where
  | new (now : Nat) : Configured cfg (.new cfg now)
  | take {l : Limiter Double} (h : Configured cfg l) (c : ServiceClass) (k : PoolKind)
      (cost now : Nat) : Configured cfg (l.take c k cost now).1
  | feed {l : Limiter Double} (h : Configured cfg l) (c : ServiceClass) (f : Feedback)
      (now : Nat) : Configured cfg (l.feed c f now).1

/-- The static pool of a class has the rate that it was configured with, and that is the upper end
of the band of the adaptive one. -/
structure PacedAs (rate : Double) (ps : ClassPools Double) : Prop where
  static : ps.static.rate = larger rate Pool.leastRate
  sliding : rate.isNaN = false → ∀ a ∈ ps.sliding,
    ∃ floor, floor.isNaN = false ∧ a.Banded rate floor

/-- Every adaptive pool has its band, and every static one the rate at its upper end. -/
def Paced (rates : ServiceClass → Double) (l : Limiter Double) : Prop :=
  ∀ c, PacedAs (rates c) (l.pools c)

namespace Paced

variable {l : Limiter Double} {rates : ServiceClass → Double} {c : ServiceClass}

theorem setPools (h : l.Paced rates) {ps : ClassPools Double} (hps : PacedAs (rates c) ps) :
    (l.setPools c ps).Paced rates := by
  intro c'
  rw [pools_setPools]
  split
  · rename_i hc
    exact hc ▸ hps
  · exact h c'

/-- What is kept of the band of an adaptive pool, is kept of the bands of all. -/
theorem setSliding (h : l.Paced rates) {a b : Adaptive Double} (ha : (l.pools c).sliding = some a)
    (hb : (rates c).isNaN = false → ∀ floor, floor.isNaN = false → a.Banded (rates c) floor →
      b.Banded (rates c) floor) :
    (l.setPools c { l.pools c with sliding := some b }).Paced rates := by
  have hps : PacedAs (rates c) { l.pools c with sliding := some b } := by
    refine ⟨(h c).static, ?_⟩
    rintro hrate b' ⟨⟩
    obtain ⟨floor, hfloor, hbanded⟩ := (h c).sliding hrate a (by simp [ha])
    exact ⟨floor, hfloor, hb hrate floor hfloor hbanded⟩
  exact h.setPools hps

/-- Callers leave the rate of a pool alone. -/
theorem setPool (h : l.Paced rates) {k : PoolKind} {p : Pool Double}
    (hp : p.rate = (l.pool c k).rate) : (l.setPool c k p).Paced rates := by
  have hstatic (hrate : p.rate = (l.pools c).static.rate) :
      PacedAs (rates c) { l.pools c with static := p } :=
    ⟨hrate.trans (h c).static, (h c).sliding⟩
  cases k with
  | static =>
    rw [setPool_static]
    exact h.setPools (hstatic hp)
  | sliding =>
    cases hs : (l.pools c).sliding with
    | none =>
      rw [setPool_sliding_of_none hs]
      rw [pool, hs] at hp
      exact h.setPools (hstatic hp)
    | some a =>
      rw [setPool_sliding hs]
      rw [pool, hs] at hp
      exact h.setSliding hs fun _ _ _ hbanded => hbanded.put hp

theorem feed (h : l.Paced rates) (f : Feedback) (now : Nat) :
    (l.feed c f now).1.Paced rates := by
  have hsliding {a b : Adaptive Double} (ha : (l.pools c).sliding = some a)
      (hb : a.Observed now f b) :
      (l.setPools c { l.pools c with sliding := some b }).Paced rates :=
    h.setSliding ha fun hrate _ hfloor hbanded => hbanded.observed hrate hfloor hb
  rw [feed.eq_def]
  split
  · rename_i a ha
    exact hsliding ha (a.recordSuccess_observed now)
  · rename_i a ha
    exact hsliding ha (a.recordThrottled_observed now)
  · exact h

/-- The adaptive pool of a class is not faster than the static one. -/
theorem rate_le (h : l.Paced rates) (hrate : (rates c).isNaN = false) :
    (l.pool c .sliding).rate.le (l.pool c .static).rate = true := by
  show (((l.pools c).sliding.map (·.pool)).getD (l.pools c).static).rate.le
    (l.pools c).static.rate = true
  rw [(h c).static]
  cases hs : (l.pools c).sliding with
  | none =>
    rw [Option.map_none, Option.getD_none, (h c).static]
    exact Double.le_refl (Double.le_iff.1 (Adaptive.leastRate_le_larger _)).2.1
  | some a =>
    obtain ⟨floor, -, hbanded⟩ := (h c).sliding hrate a (by simp [hs])
    exact hbanded.rate_le

end Paced

theorem Configured.paced {l : Limiter Double} {cfg : LimiterConfig Double} (h : Configured cfg l)
    (hfloor : ∀ s ∈ cfg.sliding, s.floorPerSecond.isNaN = false) :
    l.Paced fun c => (cfg.pool c).refillPerSecond := by
  induction h with
  | new now =>
    intro c
    have hpools : (Limiter.new cfg now).pools c = newPools cfg now c := by cases c <;> rfl
    rw [hpools]
    refine ⟨rfl, fun hrate a ha => ?_⟩
    obtain ⟨s, hs, rfl⟩ := Option.map_eq_some_iff.1 ha
    exact ⟨_, hfloor s (Option.filter_eq_some_iff.1 hs).1, .new hrate _ _ _⟩
  | @take l _ c k cost now ih =>
    refine ih.setPool ?_
    rcases (l.pool c k).take_served cost now with ⟨q, heq, hq⟩ | ⟨q, span, heq, hq⟩ <;>
      rw [heq] <;> exact hq.rate_eq
  | feed _ c f now ih => exact ih.feed f now

end Limiter

namespace Adaptive

/-- **The rate of an adaptive pool keeps to its band and moves the right way.**  Whatever numbers
the ceiling and the floor are, and whatever is taken and observed at whatever times, the rate is
never below the floor nor above the ceiling, where both count as the lowest rate of any pool if they
are below it; a throttled exchange does not raise it and a success does not lower it, and only the
last success of a full run changes it.  So in a limiter the adaptive pool of a class is never faster
than the static one. -/
theorem rate_keeps_to_band :
    (∀ (capacity recovery start : Nat) (ceiling floor : Double) (us : List (Use Feedback)),
      recovery ≤ maxCount → ceiling.isNaN = false → floor.isNaN = false →
        let a := Adaptive.new capacity ceiling floor recovery start
        (keeper.after (.new a) us).kept.Tame ceiling floor (max recovery 1) (observations us)) ∧
    ∀ (cfg : LimiterConfig Double) (l : Limiter Double), l.Configured cfg →
      (∀ s ∈ cfg.sliding, s.floorPerSecond.isNaN = false) →
        ∀ c, (cfg.pool c).refillPerSecond.isNaN = false →
          (l.pool c .sliding).rate.le (l.pool c .static).rate = true := by
  constructor
  · intro capacity recovery start ceiling floor us hrecovery hceiling hfloor a
    have hpos : 0 < max recovery 1 := by omega
    have hle : max recovery 1 ≤ maxCount := Nat.max_le.2 ⟨hrecovery, by decide⟩
    have hall : (keeper.after (.new a) us).kept.Counts (max recovery 1) (observations us) ∧
        (keeper.after (.new a) us).kept.Banded ceiling floor := by
      refine after_induction
        (I := fun fs a => a.Counts (max recovery 1) fs ∧ a.Banded ceiling floor) ?_ ?_ ?_ us
      · intro fs a p h hp
        exact ⟨⟨h.1.recovery_eq, h.1.successes_eq⟩, h.2.put hp⟩
      · intro fs a f now h
        have hb := a.observe_observed f now
        exact ⟨h.1.observed hpos hle hb, h.2.observed hceiling hfloor hb⟩
      · exact ⟨.new capacity ceiling floor recovery start, .new hceiling capacity recovery start⟩
    exact hall.1.tame hpos hall.2
  · intro cfg l hl hfloor c hrate
    exact (hl.paced hfloor).rate_le hrate

/-- With a run of two successes, a throttled exchange halves the rate of sixteen and the second
success after it, which is the last one of a full run, adds a tenth of the ceiling.  A floor above a
ceiling that is below the lowest rate leaves just that rate. -/
theorem rate_keeps_to_band_halved :
    (let us : List (Use Feedback) := [⟨0, .inr .success⟩, ⟨0, .inr .throttled⟩,
        ⟨0, .inl (.take 5)⟩, ⟨1000000000, .inr .success⟩]
      let a := (keeper.after (.new (Adaptive.new 3 (.ofNat 16) (.ofNat 2) 2 0)) us).kept
      2 ≤ maxCount ∧ (Double.ofNat 16).isNaN = false ∧ (Double.ofNat 2).isNaN = false ∧
        a.pool.rate = .ofNat 8 ∧ (a.recordSuccess 2000000000).1.pool.rate = .round false 96 10 ∧
        a.Tame (.ofNat 16) (.ofNat 2) 2 (observations us) ∧
        2 ∣ streak (observations us ++ [.success])) ∧
    (let us : List (Use Feedback) := [⟨0, .inr .throttled⟩, ⟨0, .inr .success⟩]
      let a := (keeper.after (.new (Adaptive.new 3 (.neg .infinity) (.ofNat 2) 0 0)) us).kept
      0 ≤ maxCount ∧ (Double.neg .infinity).isNaN = false ∧ (Double.ofNat 2).isNaN = false ∧
        a.pool.rate = Pool.leastRate ∧
        a.Tame (.neg .infinity) (.ofNat 2) 1 (observations us)) ∧
    (let cfg : LimiterConfig Double := .builtin
      let l := ((Limiter.new cfg 0).feed .standard .throttled 0).1
      l.Configured cfg ∧ (∀ s ∈ cfg.sliding, s.floorPerSecond.isNaN = false) ∧
        (cfg.pool .standard).refillPerSecond.isNaN = false ∧
        (l.pool .standard .sliding).rate = .ofNat 8 ∧ (l.pool .standard .static).rate = .ofNat 16 ∧
        (l.pool .standard .sliding).rate.le (l.pool .standard .static).rate = true) := by
  refine ⟨?_, ?_, ?_⟩
  · intro us a
    have htame : a.Tame (.ofNat 16) (.ofNat 2) 2 (observations us) :=
      rate_keeps_to_band.1 3 2 0 (.ofNat 16) (.ofNat 2) us (by decide) (by decide +kernel)
        (by decide +kernel)
    have hrate : a.pool.rate = .ofNat 8 := by decide +kernel
    have hraised : (a.recordSuccess 2000000000).1.pool.rate = .round false 96 10 := by
      decide +kernel
    have hne : (a.recordSuccess 2000000000).1.pool.rate ≠ a.pool.rate := by
      rw [hrate, hraised]
      decide +kernel
    exact ⟨by decide, by decide +kernel, by decide +kernel, hrate, hraised, htame,
      htame.full_run 2000000000 hne⟩
  · intro us a
    have htame := rate_keeps_to_band.1 3 0 0 (.neg .infinity) (.ofNat 2) us (by decide) (by decide)
      (by decide +kernel)
    exact ⟨by decide, by decide, by decide +kernel, by decide +kernel, htame⟩
  · intro cfg l
    have hl : l.Configured cfg := .feed (.new 0) .standard .throttled 0
    have hfloor : ∀ s ∈ cfg.sliding, s.floorPerSecond.isNaN = false := by
      rintro s ⟨⟩
      decide +kernel
    have hceiling : (cfg.pool .standard).refillPerSecond.isNaN = false := by decide +kernel
    exact ⟨hl, hfloor, hceiling, by decide +kernel, by decide +kernel,
      rate_keeps_to_band.2 cfg l hl hfloor .standard hceiling⟩

/-! ## Recovery -/

section Recovery

variable {a : Adaptive Rat} {ceiling : Rat} {recovery now : Nat} {fs : List Feedback}
  {f : Feedback}

/-- How far the rate is up again: each full run since the last throttled exchange is worth a tenth
of the ceiling. -/
structure Climbs (ceiling : Rat) (recovery : Nat) (fs : List Feedback) (a : Adaptive Rat) :
    Prop where
  paced : a.Paced ceiling
  counts : a.Counts recovery fs
  least_le : 1 / 100 ≤ a.pool.rate
  le_rate : min ceiling ((streak fs / recovery : Nat) * (ceiling / 10)) ≤ a.pool.rate

theorem faster_rat (a : Adaptive Rat) :
    a.faster = min (a.pool.rate + a.ceiling / 10) a.ceiling := by
  have hstep : (recoveryStep : Rat) = 1 / 10 := by
    show mkRat 1 10 = 1 / 10
    rw [Rat.mkRat_eq_div]
    rfl
  rw [faster, Pool.smaller_rat, hstep, mul_one_div]

/-- The rate that is set is the one that is asked for, or the lowest one. -/
theorem rate_setRate_rat (p : Pool Rat) (rate : Rat) (now : Nat) :
    (p.setRate rate now).rate = max rate (1 / 100) := by
  show larger rate Pool.leastRate = _
  rw [Pool.larger_rat, Pool.leastRate_rat]

namespace Climbs

theorem new (capacity : Nat) (ceiling floor : Rat) (recovery now : Nat) :
    (Adaptive.new capacity ceiling floor recovery now).Climbs ceiling (max recovery 1) [] := by
  have hrate : (Adaptive.new capacity ceiling floor recovery now).pool.rate =
      max ceiling (1 / 100) := by
    show larger ceiling Pool.leastRate = _
    rw [Pool.larger_rat, Pool.leastRate_rat]
  refine ⟨.new capacity ceiling floor recovery now, .new capacity ceiling floor recovery now,
    ?_, ?_⟩
  · rw [hrate]
    exact le_max_right _ _
  · rw [hrate]
    exact (min_le_left _ _).trans (le_max_left _ _)

/-- A full run leaves the rate a tenth of the ceiling higher than it was, or at the ceiling. -/
theorem le_of_faster_le (h : a.Climbs ceiling recovery fs) (hceiling : 1 / 100 ≤ ceiling)
    (hpos : 0 < recovery) (hrun : a.recovery ≤ min (a.successes + 1) maxCount) {rate : Rat}
    (hrate : a.faster ≤ rate) :
    min ceiling (((streak fs + 1) / recovery : Nat) * (ceiling / 10)) ≤ rate := by
  have hruns : (streak fs + 1) / recovery = streak fs / recovery + 1 :=
    Nat.succ_div_of_dvd (h.counts.dvd_of_full_run hpos hrun)
  rw [faster_rat, h.paced.ceiling_eq] at hrate
  refine le_trans (le_min ?_ (min_le_left _ _)) hrate
  have hle := h.le_rate
  rw [hruns, Nat.cast_add_one, add_one_mul]
  rcases le_total ceiling ((streak fs / recovery : Nat) * (ceiling / 10)) with hc | hc
  · rw [min_eq_left hc] at hle
    exact (min_le_left _ _).trans (by linarith)
  · rw [min_eq_right hc] at hle
    exact (min_le_right _ _).trans (by linarith)

theorem observe (h : a.Climbs ceiling recovery fs) (hceiling : 1 / 100 ≤ ceiling)
    (hpos : 0 < recovery) (hle : recovery ≤ maxCount) (f : Feedback) (now : Nat) :
    (a.observe f now).Climbs ceiling recovery (fs ++ [f]) := by
  have hobserved := a.observe_observed f now
  have hcounts := h.counts.observed hpos hle hobserved
  have hpaced := h.paced.observe f now
  generalize a.observe f now = b at hobserved hcounts hpaced
  suffices hrate : 1 / 100 ≤ b.pool.rate ∧
      min ceiling ((streak (fs ++ [f]) / recovery : Nat) * (ceiling / 10)) ≤ b.pool.rate from
    ⟨hpaced, hcounts, hrate.1, hrate.2⟩
  cases hobserved with
  | counted hrun =>
    have hshort : (streak fs + 1) / recovery = streak fs / recovery := by
      refine Nat.succ_div_of_not_dvd fun hdvd => ?_
      have hmod := h.counts.mod_of_short_run hpos hle hrun
      rw [Nat.mod_eq_zero_of_dvd hdvd] at hmod
      exact Nat.succ_ne_zero _ hmod.symm
    rw [streak_concat_success, hshort]
    exact ⟨h.least_le, h.le_rate⟩
  | raised hrun hlt =>
    rw [streak_concat_success]
    refine ⟨?_, h.le_of_faster_le hceiling hpos hrun ?_⟩
    · rw [rate_setRate_rat]
      exact le_max_right _ _
    · rw [rate_setRate_rat]
      exact le_max_left _ _
  | full hrun hlt =>
    rw [streak_concat_success]
    exact ⟨h.least_le, h.le_of_faster_le hceiling hpos hrun (not_lt.1 (of_decide_eq_false hlt))⟩
  | lowered =>
    rw [streak_concat_throttled, Nat.zero_div, Nat.cast_zero, zero_mul, rate_setRate_rat]
    exact ⟨le_max_right _ _, (min_le_right _ _).trans (le_max_of_le_right (by norm_num))⟩
  | floored =>
    rw [streak_concat_throttled, Nat.zero_div, Nat.cast_zero, zero_mul]
    exact ⟨h.least_le, (min_le_right _ _).trans (le_trans (by norm_num) h.least_le)⟩
  | ignored =>
    rw [streak_concat_neutral]
    exact ⟨h.least_le, h.le_rate⟩

/-- Ten full runs are worth the ceiling. -/
theorem rate_eq (h : a.Climbs ceiling recovery fs) (hceiling : 1 / 100 ≤ ceiling)
    (hpos : 0 < recovery) (hruns : 10 * recovery ≤ streak fs) : a.pool.rate = ceiling := by
  have hten : (10 : Rat) ≤ (streak fs / recovery : Nat) := by
    exact_mod_cast (Nat.le_div_iff_mul_le hpos).2 hruns
  have hfull : ceiling ≤ (streak fs / recovery : Nat) * (ceiling / 10) := by
    calc ceiling = 10 * (ceiling / 10) := by ring
      _ ≤ _ := mul_le_mul_of_nonneg_right hten (by linarith)
  refine le_antisymm ?_ ?_
  · exact h.paced.rate_le.trans (max_le le_rfl hceiling)
  · exact (min_eq_left hfull) ▸ h.le_rate

end Climbs

/-- **An adaptive pool recovers.**  Whatever has been taken and observed before, at whatever times,
ten full runs of successes restore the ceiling, and nothing but a throttled exchange takes it away
again.  Tokens may be taken in between. -/
theorem rate_recovers (capacity start recovery : Nat) (ceiling floor : Rat)
    (hceiling : 1 / 100 ≤ ceiling) (hrecovery : recovery ≤ maxCount) (us us' : List (Use Feedback))
    (hthrottled : .throttled ∉ observations us')
    (hruns : 10 * max recovery 1 ≤ (observations us').count .success) :
    (keeper.after (.new (Adaptive.new capacity ceiling floor recovery start))
      (us ++ us')).kept.pool.rate = ceiling := by
  have hpos : 0 < max recovery 1 := by omega
  have hle : max recovery 1 ≤ maxCount := Nat.max_le.2 ⟨hrecovery, by decide⟩
  have hclimbs : (keeper.after (.new (Adaptive.new capacity ceiling floor recovery start))
      (us ++ us')).kept.Climbs ceiling (max recovery 1) (observations (us ++ us')) := by
    refine after_induction (I := Climbs ceiling (max recovery 1)) ?_ ?_ ?_ _
    · intro fs a p h hp
      exact ⟨⟨h.paced.ceiling_eq, hp ▸ h.paced.rate_le⟩, ⟨h.counts.recovery_eq,
        h.counts.successes_eq⟩, hp ▸ h.least_le, hp ▸ h.le_rate⟩
    · intro fs a f now h
      exact h.observe hceiling hpos hle f now
    · exact .new capacity ceiling floor recovery start
  refine hclimbs.rate_eq hceiling hpos (hruns.trans ?_)
  rw [observations_append]
  exact count_le_streak_append _ hthrottled

/-- Five throttled exchanges bring a rate of sixteen down to its floor, and a success after them is
left over; twenty more make ten full runs and bring it back, and a look changes nothing. -/
theorem rate_recovers_of_floor :
    let before : List (Use Feedback) :=
      List.replicate 5 ⟨0, .inr .throttled⟩ ++ [⟨0, .inl (.take 3)⟩, ⟨1000000000, .inr .success⟩]
    let later : List (Use Feedback) :=
      List.replicate 20 ⟨2000000000, .inr .success⟩ ++ [⟨3000000000, .inl .look⟩]
    let a := Adaptive.new 3 (16 : Rat) 2 2 0
    (1 : Rat) / 100 ≤ 16 ∧ 2 ≤ maxCount ∧ Feedback.throttled ∉ observations later ∧
      10 * max 2 1 ≤ (observations later).count .success ∧
      (keeper.after (.new a) before).kept.pool.rate = 2 ∧
      (keeper.after (.new a) before).kept.successes = 1 ∧
      (keeper.after (.new a) (before ++ later)).kept.pool.rate = 16 := by
  intro before later a
  have hthrottled : Feedback.throttled ∉ observations later := by decide
  have hruns : 10 * max 2 1 ≤ (observations later).count .success := by decide
  exact ⟨by norm_num, by decide, hthrottled, hruns, by decide +kernel, by decide +kernel,
    rate_recovers 3 0 2 16 2 (by norm_num) (by decide) before later hthrottled hruns⟩

end Recovery

end Adaptive

end DriveDelta
