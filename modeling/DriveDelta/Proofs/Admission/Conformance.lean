import DriveDelta.Proofs.Admission.Looks
import Mathlib.Algebra.BigOperators.Intervals
import Mathlib.Algebra.Order.BigOperators.Group.Finset
import Mathlib.Algebra.Order.Field.Rat
import Mathlib.Tactic.Linarith
import Mathlib.Tactic.Positivity
import Mathlib.Tactic.Ring

/-!
# What a pool grants in a window of time

A pool may be used by any number of callers, which try, look, wait and get their turns in any
order, and its rate may be changed between any two of these uses.  Whatever they do, what is granted
between two points in time is at most one full pool and what accrues between them.

The potential behind the bound is what the pool would hold if it were credited.  A use does not
raise it, and an admission lowers it by what it is charged; between two uses it grows at most at the
rate in force.  A change of the rate keeps it only because the time before is credited first.

## What is here

* `Deed`, what callers do with a pool, and `Keeper`, what a pool is kept in: alone, where its rate
  can be set (`Pool.keeper`), or in an adaptive pool (`Adaptive.keeper`);
* `Keeper.history`, the uses of a pool as they are seen from outside, with `spent`, what is charged
  in a window, and `rateAt`, the rate in force at a time;
* `Pool.Used`, what one use does, and `History`, what follows for all of them;
* `Desk.spent_le`: the bound, for pools whose rate is set and for adaptive pools.
-/

set_option autoImplicit false

namespace DriveDelta

open Number

/-! ## Pools and their callers -/

/-- What a caller does with a pool. -/
inductive Deed where
  /-- Try to take tokens, and give up if they are not there. -/
  | take (cost : Nat)
  /-- Look at the tokens available. -/
  | look
  /-- Begin to wait for tokens, with a first look. -/
  | acquire (caller cost : Nat) (status : Option CancelReason)
  /-- Look again after having slept. -/
  | resume (caller : Nat) (status : Option CancelReason)

/-- What a caller that is asleep waits for. -/
structure Sleeper where
  cost : Nat
  until_ : Nat

/-- The callers that are asleep, by their numbers. -/
def Sleepers : Type := Nat → Option Sleeper

section Callers

variable {α : Type} [Number α]

/-- What the look of a caller leaves, with the cost that it was granted. -/
def Sleepers.after (s : Sleepers) (caller cost : Nat) :
    Pool α × Turn → Pool α × Sleepers × Option Nat
  | (p, .granted) => (p, Function.update s caller none, some cost)
  | (p, .asleep until_) => (p, Function.update s caller (some ⟨cost, until_⟩), none)
  | (p, .cancelled _) => (p, Function.update s caller none, none)

/-- What a deed leaves, with the cost that it was granted. -/
def Pool.serve (p : Pool α) (s : Sleepers) (now : Nat) : Deed → Pool α × Sleepers × Option Nat
  | .take cost =>
    match p.take cost now with
    | (q, .granted) => (q, s, some cost)
    | (q, .wait _) => (q, s, none)
  | .look => (p.filled now, s, none)
  | .acquire caller cost status => s.after caller cost (p.turn cost now status)
  | .resume caller status =>
    match s caller with
    | none => (p, s, none)
    | some w =>
      ((p.resume w.cost now status w.until_).map (s.after caller w.cost)).getD (p, s, none)

end Callers

/-- What a pool is kept in.  It can be adjusted, and that takes no tokens out of the pool. -/
structure Keeper (α : Type) [Number α] (π γ : Type) where
  pool : π → Pool α
  put : π → Pool α → π
  adjust : π → γ → Nat → π
  pool_put : ∀ x p, pool (put x p) = p
  adjust_accrued : ∀ x c now, (pool x).Accrued now (pool (adjust x c now))

/-- A pool and the callers that wait for its tokens. -/
structure Desk (π : Type) where
  kept : π
  asleep : Sleepers

/-- A use of a pool at a time: a caller does something with it, or it is adjusted. -/
structure Use (γ : Type) where
  time : Nat
  deed : Deed ⊕ γ

/-- A use of a pool as it is seen from outside: the cost that it granted, if it did, and the pool
that it left. -/
structure Entry (α : Type) where
  time : Nat
  granted : Option Nat
  pool : Pool α

/-- What an entry is charged; an admission never costs more than the pool can hold. -/
def Entry.charge {α : Type} (capacity : Nat) (e : Entry α) : Nat :=
  (e.granted.map (min · capacity)).getD 0

/-- What is charged in a window of time, its ends included. -/
def spent {α : Type} (capacity : Nat) (es : List (Entry α)) (t₁ t₂ : Nat) : Nat :=
  ((es.filter fun e => t₁ ≤ e.time ∧ e.time ≤ t₂).map (·.charge capacity)).sum

/-- The rate in force at a time: the one that the last use up to then left, or the first one. -/
def rateAt {α : Type} (rate : α) : List (Entry α) → Nat → α
  | [], _ => rate
  | e :: es, t => if e.time ≤ t then rateAt e.pool.rate es t else rate

section Histories

variable {α : Type} [Number α] {π γ : Type}

/-- What a use leaves, with the cost that it granted. -/
def Keeper.use (k : Keeper α π γ) (d : Desk π) (u : Use γ) : Desk π × Option Nat :=
  match u.deed with
  | .inl deed =>
    let r := (k.pool d.kept).serve d.asleep u.time deed
    (⟨k.put d.kept r.1, r.2.1⟩, r.2.2)
  | .inr c => (⟨k.adjust d.kept c u.time, d.asleep⟩, none)

/-- The uses of a pool as they are seen from outside. -/
def Keeper.history (k : Keeper α π γ) (d : Desk π) : List (Use γ) → List (Entry α)
  | [] => []
  | u :: us => ⟨u.time, (k.use d u).2, k.pool (k.use d u).1.kept⟩ :: k.history (k.use d u).1 us

end Histories

/-- A pool that is kept alone, and whose rate can be set. -/
def Pool.keeper {α : Type} [Number α] : Keeper α (Pool α) α where
  pool p := p
  put _ p := p
  adjust p rate now := p.setRate rate now
  pool_put _ _ := rfl
  adjust_accrued _ rate _ := .paced rate

namespace Adaptive

variable {α : Type} [Number α]

/-- Tell an adaptive pool what an admission observed. -/
def observe (a : Adaptive α) (f : Feedback) (now : Nat) : Adaptive α :=
  match f with
  | .success => (a.recordSuccess now).1
  | .throttled => (a.recordThrottled now).1
  | .neutral => a

theorem observe_accrued (a : Adaptive α) (f : Feedback) (now : Nat) :
    a.pool.Accrued now (a.observe f now).pool := by
  cases f with
  | success => exact a.recordSuccess_accrued now
  | throttled => exact a.recordThrottled_accrued now
  | neutral => exact .credited .refl

/-- A pool that is part of an adaptive one, whose rate follows what is observed. -/
def keeper : Keeper α (Adaptive α) Feedback where
  pool := pool
  put a p := { a with pool := p }
  adjust := observe
  pool_put _ _ := rfl
  adjust_accrued := observe_accrued

end Adaptive

/-- A pool that nobody waits for. -/
def Desk.new {π : Type} (kept : π) : Desk π := ⟨kept, fun _ => none⟩

/-! ## What one use does -/

namespace Pool

section Uses

variable {α : Type} [Number α] {p q : Pool α} {now cost : Nat} {g : Option Nat}

/-- What a caller does to a pool, with the cost that it is granted. -/
inductive Served (now : Nat) (p : Pool α) : Option Nat → Pool α → Prop where
  | looked {q : Pool α} (h : p.Credited now q) : Served now p none q
  | paid (cost : Nat) (h : le ((p.filled now).charge cost) (p.filled now).tokens = true) :
    Served now p (some cost)
      { p.filled now with tokens := (p.filled now).tokens - (p.filled now).charge cost }

/-- What a use does to a pool, with the cost that it grants. -/
inductive Used (now : Nat) (p : Pool α) : Option Nat → Pool α → Prop where
  | served {g : Option Nat} {q : Pool α} (h : p.Served now g q) : Used now p g q
  | adjusted {q : Pool α} (h : p.Accrued now q) : Used now p none q

theorem take_served (p : Pool α) (cost now : Nat) :
    (∃ q, p.take cost now = (q, .granted) ∧ p.Served now (some cost) q) ∨
      ∃ q span, p.take cost now = (q, .wait span) ∧ p.Served now none q := by
  rw [take]
  split
  · rename_i h
    exact .inl ⟨_, rfl, .paid cost h⟩
  · exact .inr ⟨_, _, rfl, .looked (.filled .refl)⟩

theorem turn_served (p : Pool α) (s : Sleepers) (caller cost now : Nat)
    (status : Option CancelReason) :
    p.Served now (s.after caller cost (p.turn cost now status)).2.2
      (s.after caller cost (p.turn cost now status)).1 := by
  cases status with
  | some reason => exact .looked .refl
  | none =>
    rw [turn]
    rcases p.take_served cost now with ⟨q, heq, hq⟩ | ⟨q, span, heq, hq⟩
    · rw [heq]
      exact hq
    · rw [heq]
      exact hq

/-- Whatever a caller does, the pool is looked at or it grants what it holds. -/
theorem serve_served (p : Pool α) (s : Sleepers) (now : Nat) (deed : Deed) :
    p.Served now (p.serve s now deed).2.2 (p.serve s now deed).1 := by
  cases deed with
  | take cost =>
    rw [serve]
    rcases p.take_served cost now with ⟨q, heq, hq⟩ | ⟨q, span, heq, hq⟩
    · rw [heq]
      exact hq
    · rw [heq]
      exact hq
  | look => exact .looked (.filled .refl)
  | acquire caller cost status => exact p.turn_served s caller cost now status
  | resume caller status =>
    rw [serve]
    split
    · exact .looked .refl
    · rename_i w _
      rw [Pool.resume]
      split
      · exact p.turn_served s caller w.cost now status
      · exact .looked .refl

theorem Credited.rate_eq (h : p.Credited now q) : q.rate = p.rate := by
  induction h with
  | refl => rfl
  | filled _ ih => exact ih

/-- Callers do not change the rate. -/
theorem Served.rate_eq (h : p.Served now g q) : q.rate = p.rate := by
  cases h with
  | looked h => exact h.rate_eq
  | paid cost h => rfl

end Uses

/-! ## Exact amounts -/

theorem smaller_rat (x y : Rat) : smaller x y = min x y := by
  show (if y < x then y else x) = min x y
  grind

theorem larger_rat (x y : Rat) : larger x y = max x y := by
  show (if x < y then y else x) = max x y
  grind

theorem le_rat {x y : Rat} : le x y = true ↔ x ≤ y := decide_eq_true_iff

theorem ofNat_rat (n : Nat) : (ofNat n : Rat) = (n : Rat) := rfl

theorem seconds_rat (d : Nat) : (seconds d : Rat) = (d : Rat) * (1 / 1000000000) := by
  show mkRat d Nanos.second = _
  rw [Rat.mkRat_eq_div, mul_one_div]
  rfl

theorem leastRate_rat : (leastRate : Rat) = 1 / 100 := by
  show mkRat 1 100 = 1 / 100
  rw [Rat.mkRat_eq_div]
  rfl

/-- What a pool would hold if it were credited at this time. -/
def held (p : Pool Rat) (now : Nat) : Rat := (p.filled now).tokens

/-- A pool that owes nothing and does not leak. -/
structure Solvent (p : Pool Rat) : Prop where
  tokens_nonneg : 0 ≤ p.tokens
  rate_nonneg : 0 ≤ p.rate

variable {p q : Pool Rat} {now cost : Nat} {g : Option Nat}

theorem held_eq (p : Pool Rat) (now : Nat) :
    p.held now = min (p.tokens + seconds (now - p.filledAt) * p.rate) p.capacity :=
  smaller_rat _ _

theorem held_le (p : Pool Rat) (now : Nat) : p.held now ≤ p.capacity := by
  rw [held_eq]
  exact min_le_right _ _

/-- A pool that has just been credited holds what it holds. -/
theorem held_of_filledAt (h : p.filledAt = now) : p.held now = min p.tokens p.capacity := by
  rw [held_eq, h, Nat.sub_self, seconds_rat, Nat.cast_zero, zero_mul, zero_mul, add_zero]

theorem Solvent.accrual_nonneg (h : p.Solvent) (d : Nat) : 0 ≤ (seconds d : Rat) * p.rate := by
  rw [seconds_rat]
  exact mul_nonneg (by positivity) h.rate_nonneg

theorem Solvent.held_nonneg (h : p.Solvent) (now : Nat) : 0 ≤ p.held now := by
  rw [held_eq]
  exact le_min (add_nonneg h.tokens_nonneg (h.accrual_nonneg _)) (Nat.cast_nonneg _)

theorem Solvent.filled (h : p.Solvent) (now : Nat) : (p.filled now).Solvent :=
  ⟨h.held_nonneg now, h.rate_nonneg⟩

theorem nonneg_larger_leastRate (rate : Rat) : 0 ≤ larger rate leastRate := by
  rw [larger_rat, leastRate_rat]
  exact le_max_of_le_right (by norm_num)

theorem Solvent.new (capacity : Nat) (rate : Rat) (now : Nat) :
    (Pool.new capacity rate now).Solvent :=
  ⟨Nat.cast_nonneg (max capacity 1), nonneg_larger_leastRate rate⟩

/-- Between two uses a pool gains at most what accrues. -/
theorem Solvent.held_le_add (h : p.Solvent) {t₁ t₂ : Nat} (ht : t₁ ≤ t₂) :
    p.held t₂ ≤ p.held t₁ + seconds (t₂ - t₁) * p.rate := by
  have hsplit : (seconds (t₂ - p.filledAt) : Rat) * p.rate ≤
      seconds (t₁ - p.filledAt) * p.rate + seconds (t₂ - t₁) * p.rate := by
    rw [← add_mul]
    refine mul_le_mul_of_nonneg_right ?_ h.rate_nonneg
    rw [seconds_rat, seconds_rat, seconds_rat, ← add_mul]
    refine mul_le_mul_of_nonneg_right ?_ (by norm_num)
    exact_mod_cast (by omega : t₂ - p.filledAt ≤ t₁ - p.filledAt + (t₂ - t₁))
  have hgain := h.accrual_nonneg (t₂ - t₁)
  rw [held_eq, held_eq, min_add]
  exact min_le_min (by linarith) (by linarith)

theorem charge_rat (p : Pool Rat) (cost : Nat) :
    p.charge cost = ((min cost p.capacity : Nat) : Rat) := by
  rw [charge, smaller_rat, ofNat_rat, ofNat_rat, Nat.cast_min]

/-- What a use leaves is solvent, and holds as much less as the use is charged. -/
structure Settled (now : Nat) (g : Option Nat) (p q : Pool Rat) : Prop where
  capacity_eq : q.capacity = p.capacity
  solvent : q.Solvent
  held_add : q.held now + ((g.map (min · p.capacity)).getD 0 : Nat) = p.held now

theorem held_filled (p : Pool Rat) (now : Nat) : (p.filled now).held now = p.held now := by
  have heq : (p.filled now).held now = min (p.held now) p.capacity := held_of_filledAt rfl
  exact heq.trans (min_eq_left (p.held_le now))

theorem Solvent.credited (hp : p.Solvent) (h : p.Credited now q) : Settled now none p q := by
  induction h with
  | refl => exact ⟨rfl, hp, add_zero _⟩
  | filled _ ih =>
    refine ⟨ih.capacity_eq, ih.solvent.filled now, ?_⟩
    rw [held_filled]
    exact ih.held_add

/-- A new rate counts from now on, so it changes nothing that is held now. -/
theorem Solvent.accrued (hp : p.Solvent) (h : p.Accrued now q) : Settled now none p q := by
  cases h with
  | credited h => exact hp.credited h
  | paced rate =>
    refine ⟨rfl, ⟨hp.held_nonneg now, nonneg_larger_leastRate rate⟩, ?_⟩
    have heq : (p.setRate rate now).held now = min (p.held now) p.capacity := held_of_filledAt rfl
    rw [heq, min_eq_left (p.held_le now)]
    exact add_zero _

theorem Solvent.served (hp : p.Solvent) (h : p.Served now g q) : Settled now g p q := by
  cases h with
  | looked h => exact hp.credited h
  | paid cost h =>
    have hcharge : (p.filled now).charge cost = ((min cost p.capacity : Nat) : Rat) :=
      charge_rat _ cost
    have hle : ((min cost p.capacity : Nat) : Rat) ≤ p.held now := hcharge ▸ le_rat.1 h
    have hrest : p.held now - ((min cost p.capacity : Nat) : Rat) ≤ p.capacity :=
      (sub_le_self _ (Nat.cast_nonneg _)).trans (p.held_le now)
    rw [hcharge]
    refine ⟨rfl, ⟨sub_nonneg.2 hle, hp.rate_nonneg⟩, ?_⟩
    have heq := (held_of_filledAt (p := { p.filled now with
      tokens := p.held now - ((min cost p.capacity : Nat) : Rat) }) rfl).trans (min_eq_left hrest)
    exact (congrArg (· + _) heq).trans (sub_add_cancel _ _)

theorem Solvent.used (hp : p.Solvent) (h : p.Used now g q) : Settled now g p q := by
  cases h with
  | served h => exact hp.served h
  | adjusted h => exact hp.accrued h

end Pool

/-! ## What all uses do -/

/-- Uses of a pool in the order of their times, none of them before a given time. -/
inductive History {α : Type} [Number α] : Nat → Pool α → List (Entry α) → Prop where
  | nil {since : Nat} {p : Pool α} : History since p []
  | cons {since : Nat} {p : Pool α} {e : Entry α} {es : List (Entry α)} (hle : since ≤ e.time)
    (h : p.Used e.time e.granted e.pool) (hes : History e.time e.pool es) :
    History since p (e :: es)

section Runs

variable {α : Type} [Number α] {π γ : Type} {since : Nat} {p : Pool α}

theorem History.le_time {es : List (Entry α)} (h : History since p es) :
    ∀ e ∈ es, since ≤ e.time := by
  induction h with
  | nil => simp
  | cons hle _ _ ih =>
    rintro x (_ | ⟨_, hx⟩)
    · exact hle
    · exact hle.trans (ih x hx)

/-- Each use of a kept pool is one that a history may have. -/
theorem Keeper.use_used (k : Keeper α π γ) (d : Desk π) (u : Use γ) :
    (k.pool d.kept).Used u.time (k.use d u).2 (k.pool (k.use d u).1.kept) := by
  rw [use]
  split
  · rw [k.pool_put]
    exact .served (Pool.serve_served _ _ _ _)
  · exact .adjusted (k.adjust_accrued _ _ _)

theorem Keeper.isHistory (k : Keeper α π γ) {us : List (Use γ)} (d : Desk π)
    (hus : us.Pairwise (·.time ≤ ·.time)) (hsince : ∀ u ∈ us, since ≤ u.time) :
    History since (k.pool d.kept) (k.history d us) := by
  induction us generalizing d since with
  | nil => exact .nil
  | cons u us ih =>
    rw [List.pairwise_cons] at hus
    exact .cons (hsince u (by simp)) (k.use_used d u) (ih _ hus.2 hus.1)

/-- What holds of what a pool is kept in, and is kept by every use, holds after every use. -/
theorem Keeper.forall_history (k : Keeper α π γ) {I : π → Prop} {P : Pool α → Prop}
    (hP : ∀ x, I x → P (k.pool x))
    (hput : ∀ x now g q, I x → (k.pool x).Served now g q → I (k.put x q))
    (hadjust : ∀ x c now, I x → I (k.adjust x c now)) {d : Desk π} (hd : I d.kept)
    (us : List (Use γ)) : ∀ e ∈ k.history d us, P e.pool := by
  induction us generalizing d with
  | nil => simp [history]
  | cons u us ih =>
    have hnext : I (k.use d u).1.kept := by
      rw [use]
      split
      · exact hput _ _ _ _ hd (Pool.serve_served _ _ _ _)
      · exact hadjust _ _ _ hd
    rintro e (_ | ⟨_, he⟩)
    · exact hP _ hnext
    · exact ih hnext e he

end Runs

/-! ## The bound -/

section Bound

variable {es : List (Entry Rat)} {e : Entry Rat} {p : Pool Rat} {since t₁ t₂ cap : Nat}

theorem spent_cons_of_mem (h : t₁ ≤ e.time ∧ e.time ≤ t₂) :
    spent cap (e :: es) t₁ t₂ = e.charge cap + spent cap es t₁ t₂ := by
  rw [spent, List.filter_cons_of_pos (by simpa using h)]
  rfl

theorem spent_cons_of_lt (h : e.time < t₁) : spent cap (e :: es) t₁ t₂ = spent cap es t₁ t₂ := by
  rw [spent, List.filter_cons_of_neg (by simp only [decide_eq_true_eq]; omega)]
  rfl

/-- What is charged after the window does not count. -/
theorem spent_of_lt (h : ∀ e ∈ es, t₂ < e.time) : spent cap es t₁ t₂ = 0 := by
  rw [spent, List.filter_eq_nil_iff.2]
  · rfl
  · intro e he
    have hlt := h e he
    simp only [decide_eq_true_eq]
    omega

theorem spent_congr {t : Nat} (h : ∀ e ∈ es, t ≤ e.time) (ht : t₁ ≤ t) :
    spent cap es t₁ t₂ = spent cap es t t₂ := by
  rw [spent, spent, List.filter_congr]
  intro e he
  have hle := h e he
  simp only [decide_eq_decide]
  omega

/-- What accrues in a window of time: a nanosecond's worth of the rate in force, for each one. -/
def accrued (rate : Rat) (es : List (Entry Rat)) (t₁ t₂ : Nat) : Rat :=
  ∑ t ∈ Finset.Ico t₁ t₂, rateAt rate es t * seconds 1

theorem accrued_congr {rate rate' : Rat} {es' : List (Entry Rat)}
    (h : ∀ t, t₁ ≤ t → t < t₂ → rateAt rate es t = rateAt rate' es' t) :
    accrued rate es t₁ t₂ = accrued rate' es' t₁ t₂ := by
  refine Finset.sum_congr rfl fun t ht => ?_
  rw [Finset.mem_Ico] at ht
  rw [h t ht.1 ht.2]

/-- A constant rate accrues in proportion to the time. -/
theorem sum_seconds (t₁ t₂ : Nat) (rate : Rat) :
    ∑ _t ∈ Finset.Ico t₁ t₂, rate * seconds 1 = seconds (t₂ - t₁) * rate := by
  rw [Finset.sum_const, Nat.card_Ico, nsmul_eq_mul, Pool.seconds_rat, Pool.seconds_rat]
  push_cast
  ring

theorem accrued_le {rate bound : Rat} (h : ∀ t, rateAt rate es t ≤ bound) :
    accrued rate es t₁ t₂ ≤ seconds (t₂ - t₁) * bound := by
  rw [← sum_seconds]
  refine Finset.sum_le_sum fun t _ => mul_le_mul_of_nonneg_right (h t) ?_
  rw [Pool.seconds_rat]
  positivity

theorem accrued_of_const {rate c : Rat} (h : ∀ t, t₁ ≤ t → t < t₂ → rateAt rate es t = c) :
    accrued rate es t₁ t₂ = seconds (t₂ - t₁) * c := by
  rw [← sum_seconds]
  refine Finset.sum_congr rfl fun t ht => ?_
  rw [Finset.mem_Ico] at ht
  rw [h t ht.1 ht.2]

theorem accrued_add {rate : Rat} {t : Nat} (h₁ : t₁ ≤ t) (h₂ : t ≤ t₂) :
    accrued rate es t₁ t + accrued rate es t t₂ = accrued rate es t₁ t₂ :=
  Finset.sum_Ico_consecutive _ h₁ h₂

theorem rateAt_cons_of_le {rate : Rat} {t : Nat} (h : e.time ≤ t) :
    rateAt rate (e :: es) t = rateAt e.pool.rate es t := if_pos h

theorem rateAt_cons_of_lt {rate : Rat} {t : Nat} (h : t < e.time) :
    rateAt rate (e :: es) t = rate := if_neg (by omega)

/-- **Where a window begins with what a pool holds, no more is charged in it than that and what
accrues.** -/
theorem History.spent_le_held (h : History t₁ p es) (hp : p.Solvent) (ht : t₁ ≤ t₂) :
    (spent p.capacity es t₁ t₂ : Rat) ≤ p.held t₁ + accrued p.rate es t₁ t₂ := by
  induction h with
  | @nil since p =>
    rw [spent_of_lt (by simp), accrued_of_const fun _ _ _ => rfl, Nat.cast_zero]
    exact add_nonneg (hp.held_nonneg _) (hp.accrual_nonneg _)
  | @cons since p e es hle hused hes ih =>
    by_cases hlate : t₂ < e.time
    · -- nothing happens in the window
      have hall : ∀ x ∈ e :: es, t₂ < x.time := by
        rintro x (_ | ⟨_, hx⟩)
        · exact hlate
        · exact hlate.trans_le (hes.le_time x hx)
      rw [spent_of_lt hall, Nat.cast_zero,
        accrued_of_const fun t _ htlt => rateAt_cons_of_lt (htlt.trans hlate)]
      exact add_nonneg (hp.held_nonneg _) (hp.accrual_nonneg _)
    · have htime : e.time ≤ t₂ := Nat.le_of_not_lt hlate
      have hset := hp.used hused
      have hrest := ih hset.solvent htime
      rw [hset.capacity_eq] at hrest
      have hbefore : accrued p.rate (e :: es) since e.time = seconds (e.time - since) * p.rate :=
        accrued_of_const fun t _ htlt => rateAt_cons_of_lt htlt
      have hafter : accrued p.rate (e :: es) e.time t₂ = accrued e.pool.rate es e.time t₂ :=
        accrued_congr fun t hlet _ => rateAt_cons_of_le hlet
      have hgain := hp.held_le_add hle
      have hheld := hset.held_add
      rw [spent_cons_of_mem ⟨hle, htime⟩, spent_congr hes.le_time hle,
        ← accrued_add hle htime, hbefore, hafter, Nat.cast_add, Entry.charge]
      linarith

/-- In any window no more is charged than a full pool and what accrues. -/
theorem History.spent_le (h : History since p es) (hp : p.Solvent) (ht : t₁ ≤ t₂) :
    (spent p.capacity es t₁ t₂ : Rat) ≤ p.capacity + accrued p.rate es t₁ t₂ := by
  induction h with
  | nil =>
    exact (History.spent_le_held .nil hp ht).trans (add_le_add_left (Pool.held_le _ _) _)
  | @cons since p e es hle hused hes ih =>
    by_cases hearly : e.time < t₁
    · -- the window begins later
      have hset := hp.used hused
      have hrest := ih hset.solvent
      rw [hset.capacity_eq] at hrest
      rw [spent_cons_of_lt hearly,
        accrued_congr fun t hlet _ => rateAt_cons_of_le (hearly.le.trans hlet)]
      exact hrest
    · have hwindow : History t₁ p (e :: es) := .cons (Nat.le_of_not_lt hearly) hused hes
      exact (hwindow.spent_le_held hp ht).trans (add_le_add_left (Pool.held_le _ _) _)

theorem rateAt_le {rate bound : Rat} (hrate : rate ≤ bound) (h : ∀ e ∈ es, e.pool.rate ≤ bound)
    (t : Nat) : rateAt rate es t ≤ bound := by
  induction es generalizing rate with
  | nil => exact hrate
  | cons e es ih =>
    rw [rateAt]
    split
    · exact ih (h e (by simp)) fun x hx => h x (by simp [hx])
    · exact hrate

end Bound

/-! ## Adaptive pools -/

namespace Adaptive

/-- The rate of an adaptive pool is at most its ceiling, or the lowest rate of any pool. -/
structure Paced (ceiling : Rat) (a : Adaptive Rat) : Prop where
  ceiling_eq : a.ceiling = ceiling
  rate_le : a.pool.rate ≤ max ceiling (1 / 100)

variable {a : Adaptive Rat} {ceiling : Rat}

theorem Paced.new (capacity : Nat) (ceiling floor : Rat) (recovery now : Nat) :
    (Adaptive.new capacity ceiling floor recovery now).Paced ceiling := by
  refine ⟨rfl, le_of_eq ?_⟩
  show larger ceiling Pool.leastRate = max ceiling (1 / 100)
  rw [Pool.larger_rat, Pool.leastRate_rat]

/-- A rate that is set keeps to the ceiling if the one that is asked for does. -/
theorem rate_setRate_le (p : Pool Rat) {rate bound : Rat} (now : Nat) (h : rate ≤ bound)
    (hleast : 1 / 100 ≤ bound) : (p.setRate rate now).rate ≤ bound := by
  show larger rate Pool.leastRate ≤ bound
  rw [Pool.larger_rat, Pool.leastRate_rat]
  exact max_le h hleast

theorem Paced.recordThrottled (h : a.Paced ceiling) (now : Nat) :
    (a.recordThrottled now).1.Paced ceiling := by
  rw [Adaptive.recordThrottled]
  split
  · -- the rate only changes when the new one is lower
    rename_i hlt
    have hslower : a.slower ≤ a.pool.rate := (decide_eq_true_iff.1 hlt).le
    exact ⟨h.ceiling_eq,
      rate_setRate_le a.pool now (hslower.trans h.rate_le) (le_max_right _ _)⟩
  · exact ⟨h.ceiling_eq, h.rate_le⟩

theorem Paced.recordSuccess (h : a.Paced ceiling) (now : Nat) :
    (a.recordSuccess now).1.Paced ceiling := by
  simp only [Adaptive.recordSuccess]
  split
  · exact ⟨h.ceiling_eq, h.rate_le⟩
  · split
    · have hfaster : a.faster ≤ ceiling := by
        rw [faster, Pool.smaller_rat, h.ceiling_eq]
        exact min_le_right _ _
      exact ⟨h.ceiling_eq,
        rate_setRate_le a.pool now (hfaster.trans (le_max_left _ _)) (le_max_right _ _)⟩
    · exact ⟨h.ceiling_eq, h.rate_le⟩

theorem Paced.observe (h : a.Paced ceiling) (f : Feedback) (now : Nat) :
    (a.observe f now).Paced ceiling := by
  cases f with
  | success => exact h.recordSuccess now
  | throttled => exact h.recordThrottled now
  | neutral => exact h

/-- However an adaptive pool is used, its rate keeps to the ceiling. -/
theorem Paced.forall_history {d : Desk (Adaptive Rat)} (hd : d.kept.Paced ceiling)
    (us : List (Use Feedback)) :
    ∀ e ∈ keeper.history d us, e.pool.rate ≤ max ceiling (1 / 100) := by
  refine keeper.forall_history (I := Paced ceiling) (P := (·.rate ≤ max ceiling (1 / 100)))
    (fun _ h => h.rate_le) ?_ (fun _ f now h => h.observe f now) hd us
  intro a now g q h hq
  refine ⟨h.ceiling_eq, ?_⟩
  show q.rate ≤ _
  rw [hq.rate_eq]
  exact h.rate_le

end Adaptive

/-! ## Conformance -/

namespace Desk

/-- **What a pool grants conforms to its capacity and its rate.**  Whatever is done with a pool in
the order of time, the admissions between two points in time are charged at most a full pool and
what accrues at the rates in force between them.  Of an adaptive pool this leaves, whatever is
observed, a full pool and what accrues at its ceiling, or at the lowest rate of any pool. -/
theorem grants_conform (capacity start : Nat) :
    (∀ (rate : Rat) (us : List (Use Rat)), us.Pairwise (·.time ≤ ·.time) →
      ∀ t₁ t₂, t₁ ≤ t₂ →
        let p := Pool.new capacity rate start
        let es := Pool.keeper.history (.new p) us
        (spent p.capacity es t₁ t₂ : Rat) ≤ p.capacity + accrued p.rate es t₁ t₂) ∧
    ∀ (ceiling floor : Rat) (recovery : Nat) (us : List (Use Feedback)),
      us.Pairwise (·.time ≤ ·.time) → ∀ t₁ t₂, t₁ ≤ t₂ →
        let a := Adaptive.new capacity ceiling floor recovery start
        let es := Adaptive.keeper.history (.new a) us
        (spent a.pool.capacity es t₁ t₂ : Rat) ≤
          a.pool.capacity + max ceiling (1 / 100) * seconds (t₂ - t₁) := by
  constructor
  · intro rate us hus t₁ t₂ ht p es
    have hes : History 0 p es := Pool.keeper.isHistory (.new p) hus fun _ _ => Nat.zero_le _
    exact hes.spent_le (.new capacity rate start) ht
  · intro ceiling floor recovery us hus t₁ t₂ ht a es
    have hes : History 0 a.pool es :=
      Adaptive.keeper.isHistory (.new a) hus fun _ _ => Nat.zero_le _
    have hpaced : a.Paced ceiling := .new capacity ceiling floor recovery start
    have hrate : ∀ t, rateAt a.pool.rate es t ≤ max ceiling (1 / 100) :=
      rateAt_le hpaced.rate_le (Adaptive.Paced.forall_history hpaced us)
    refine (hes.spent_le (.new capacity ceiling start) ht).trans (add_le_add_right ?_ _)
    rw [mul_comm]
    exact accrued_le hrate

/-- A pool of two tokens serves one caller at once and one that has waited for a second; so does an
adaptive one that has slowed down in between, after two seconds. -/
theorem grants_conform_waited :
    (let us : List (Use Rat) := [⟨0, .inl (.take 5)⟩, ⟨0, .inl (.acquire 7 1 none)⟩,
        ⟨500000000, .inr 3⟩, ⟨1000000000, .inl (.resume 7 none)⟩]
      let p := Pool.new 2 (1 : Rat) 0
      let es := Pool.keeper.history (.new p) us
      spent p.capacity es 0 1000000000 = 3 ∧
        (spent p.capacity es 0 1000000000 : Rat) ≤ p.capacity + accrued p.rate es 0 1000000000) ∧
    (let us : List (Use Feedback) := [⟨0, .inl (.take 5)⟩, ⟨0, .inl (.acquire 7 1 none)⟩,
        ⟨500000000, .inr .throttled⟩, ⟨2000000000, .inl (.resume 7 none)⟩]
      let a := Adaptive.new 2 (1 : Rat) (1 / 2) 10 0
      let es := Adaptive.keeper.history (.new a) us
      spent a.pool.capacity es 0 2000000000 = 3 ∧
        (spent a.pool.capacity es 0 2000000000 : Rat) ≤
          a.pool.capacity + max 1 (1 / 100) * seconds (2000000000 - 0)) :=
  ⟨⟨by decide +kernel, (grants_conform 2 0).1 1 _ (by decide) 0 1000000000 (by decide)⟩,
    ⟨by decide +kernel,
      (grants_conform 2 0).2 1 (1 / 2) 10 _ (by decide) 0 2000000000 (by decide)⟩⟩

end Desk

end DriveDelta
