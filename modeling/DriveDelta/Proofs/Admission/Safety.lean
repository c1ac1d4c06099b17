import DriveDelta.Proofs.Admission.Conformance

/-!
# A pool is safe whatever it is configured with

The figures of a pool may be any doubles: negative ones, infinities, and what is no number at all.
The least of the two bounds that a new rate passes lets none of these through but infinity, and an
infinite rate does no harm.  What accrues in no time at that rate has no value, and the smaller one
of a sum without a value and the capacity is the capacity.  So the pool holds an amount between
nothing and its capacity, and a caller that has to wait is told a span that can be written down: at
the lowest rate, with the largest capacity, it is still far below the longest one.

## What is here

* `Pool.Safe`, what its users rely on, and `Pool.Sound.safe`, that the invariant of all uses has it;
* `Pool.Sound.shortfall`, the bound of the waits;
* `Adaptive.steered`, adaptive pools whose rate can also be set from outside;
* `Desk.uses_safe`: every use of a pool leaves it safe.
-/

set_option autoImplicit false

namespace DriveDelta

open Number

namespace Pool

/-- What the users of a pool of this capacity rely on. -/
structure Safe (capacity : Nat) (p : Pool Double) : Prop where
  capacity_eq : p.capacity = max capacity 1
  tokens_isFinite : p.tokens.isFinite = true
  tokens_nonneg : 0 ≤ p.tokens.value
  tokens_le : p.tokens.value ≤ max capacity 1
  rate_isNaN : p.rate.isNaN = false
  leastRate_le : p.rate.lt leastRate = false
  /-- Who does not get tokens is told to wait for a finite number of seconds that is a span. -/
  wait : ∀ cost now span, (p.take cost now).2 = .wait span →
    ((p.filled now).shortfall cost).isFinite = true ∧ 0 ≤ ((p.filled now).shortfall cost).value ∧
      ((p.filled now).shortfall cost).nanos? = some span
  /-- A full pool refuses nobody. -/
  granted : ∀ cost now, (p.filled now).tokens = Double.ofNat p.capacity →
    (p.take cost now).2 = .granted
  /-- A full pool stays full until tokens are taken. -/
  filled : ∀ now, p.tokens = Double.ofNat p.capacity →
    (p.filled now).tokens = Double.ofNat p.capacity

variable {p q : Pool Double} {now cost capacity : Nat}

/-! ## Waits -/

/-- The longest wait of all is a span. -/
theorem isSome_nanos?_longest :
    ((Double.ofNat maxCount).div leastRate).nanos?.isSome = true := by decide +kernel

theorem leastRate_finite : (leastRate : Double).magnitude < Double.infiniteMagnitude := by
  decide +kernel

theorem leastRate_pos : 0 < (leastRate : Double).magnitude := by decide +kernel

/-- What a pool lacks is an amount, and no more than the largest capacity. -/
theorem Sound.lacking (h : p.Sound) (hshort : le (p.charge cost) p.tokens = false) :
    (p.charge cost - p.tokens).IsAmount ∧
      (p.charge cost - p.tokens).magnitude ≤ (Double.ofNat maxCount).magnitude := by
  have hcharge : (Min.min cost p.capacity) ≤ maxCount :=
    Nat.le_trans (Nat.min_le_right _ _) h.capacity_le
  have hsub := (Double.isAmount_ofNat _).sub h.tokens
    (Double.ofNat_finite (lt_of_le_maxCount hcharge)) (Nat.le_of_lt (h.tokens_lt hshort))
  rw [charge_eq, number_sub]
  exact ⟨hsub.1, Nat.le_trans hsub.2 (Double.ofNat_mono hcharge)⟩

theorem number_div (x y : Double) : x / y = x.div y := rfl

theorem number_nanos (x : Double) : nanos x = x.nanos?.getD 0 := rfl

/-- A wait is no longer than that for the largest capacity at the lowest rate, so it is a span. -/
theorem Sound.shortfall (h : p.Sound) (hshort : le (p.charge cost) p.tokens = false) :
    (p.shortfall cost).IsAmount ∧ (p.shortfall cost).nanos?.isSome = true := by
  obtain ⟨hlacking, hle⟩ := h.lacking hshort
  have hfinite := Double.ofNat_finite (lt_of_le_maxCount (Nat.le_refl maxCount))
  rw [Pool.shortfall, number_div]
  exact hlacking.isSome_nanos?_div h.rate (Double.isAmount_ofNat maxCount) isAmount_leastRate
    hfinite leastRate_finite hle leastRate_pos h.leastRate_le isSome_nanos?_longest

/-- Who waits is told a finite number of seconds that is a span. -/
theorem Sound.wait (h : p.Sound) {span : Nat} (hwait : (p.take cost now).2 = .wait span) :
    ((p.filled now).shortfall cost).isFinite = true ∧ 0 ≤ ((p.filled now).shortfall cost).value ∧
      ((p.filled now).shortfall cost).nanos? = some span := by
  rw [take] at hwait
  split at hwait
  · cases hwait
  · rename_i hshort
    obtain ⟨hamount, hspan⟩ := (h.filled now).shortfall (by simpa using hshort)
    obtain ⟨n, hn⟩ := Option.isSome_iff_exists.1 hspan
    rw [Take.wait.injEq, number_nanos, hn, Option.getD_some] at hwait
    exact ⟨Double.isFinite_of_isSome_nanos? hspan, hamount.value_nonneg, hwait ▸ hn⟩

/-! ## Full pools -/

/-- A full pool grants any cost: nobody is charged more than it holds. -/
theorem granted_of_full (hfull : (p.filled now).tokens = Double.ofNat p.capacity) :
    (p.take cost now).2 = .granted := by
  have hle : le ((p.filled now).charge cost) (p.filled now).tokens = true := by
    rw [charge_eq, number_le, hfull]
    exact ((Double.isAmount_ofNat _).le_iff (Double.isAmount_ofNat _)).2
      (Double.ofNat_mono (Nat.min_le_right _ _))
  rw [take, if_pos hle]

/-! ## All pools -/

theorem Sound.safe (h : p.Sound) (hcapacity : p.capacity = max capacity 1) :
    p.Safe capacity where
  capacity_eq := hcapacity
  tokens_isFinite := by simpa [Double.isFinite] using h.tokens_finite
  tokens_nonneg := h.tokens.value_nonneg
  tokens_le := by
    have hle := h.tokens.value_mono (Double.isAmount_ofNat _) h.tokens_le
    rw [Double.value_ofNat (lt_of_le_maxCount h.capacity_le), hcapacity] at hle
    exact_mod_cast hle
  rate_isNaN := h.rate.isNaN
  leastRate_le := by
    rw [← Bool.not_eq_true, h.rate.lt_iff isAmount_leastRate]
    exact Nat.not_lt.2 h.leastRate_le
  wait _ _ _ hwait := h.wait hwait
  granted _ _ hfull := granted_of_full hfull
  filled now hfull := h.filled_of_full now hfull

end Pool

/-! ## Adaptive pools whose rate is set from outside -/

namespace Adaptive

section Steering

variable {α : Type}

theorem pool_put (a : Adaptive α) (p : Pool α) : ({ a with pool := p } : Adaptive α).pool = p := rfl

variable [Number α]

/-- Tell an adaptive pool what an admission observed, or set its rate. -/
def steer (a : Adaptive α) (c : Feedback ⊕ α) (now : Nat) : Adaptive α :=
  c.elim (a.observe · now) fun rate => { a with pool := a.pool.setRate rate now }

theorem steer_accrued (a : Adaptive α) (c : Feedback ⊕ α) (now : Nat) :
    a.pool.Accrued now (a.steer c now).pool := by
  cases c with
  | inl f => exact a.observe_accrued f now
  | inr rate => exact .paced rate

/-- A pool that is part of an adaptive one.  Its rate follows what is observed, and can be set. -/
def steered : Keeper α (Adaptive α) (Feedback ⊕ α) where
  pool := pool
  put a p := { a with pool := p }
  adjust := steer
  pool_put := pool_put
  adjust_accrued := steer_accrued

end Steering

end Adaptive

/-! ## Every use -/

section Uses

variable {π γ : Type} {k : Keeper Double π γ} {capacity : Nat}

/-- A pool of this capacity that has only been used as pools are. -/
structure Keeper.Kept (k : Keeper Double π γ) (capacity : Nat) (x : π) : Prop where
  sound : (k.pool x).Sound
  capacity_eq : (k.pool x).capacity = max capacity 1

theorem Keeper.Kept.safe {x : π} (h : k.Kept capacity x) : (k.pool x).Safe capacity :=
  h.sound.safe h.capacity_eq

theorem Pool.Served.capacity_eq {α : Type} [Number α] {p q : Pool α} {now : Nat} {g : Option Nat}
    (h : p.Served now g q) : q.capacity = p.capacity := by
  cases h with
  | looked h => exact h.capacity_eq
  | paid cost h => rfl

theorem Pool.Sound.served {p q : Pool Double} {now : Nat} {g : Option Nat} (h : p.Sound)
    (hq : p.Served now g q) : q.Sound := by
  cases hq with
  | looked hq => exact (h.credited hq).1
  | paid cost hle => exact h.paid ⟨_, .filled .refl, hle, rfl⟩

/-- Whatever a pool is kept in, every use of it leaves it safe. -/
theorem Keeper.Kept.forall_history {d : Desk π} (h : k.Kept capacity d.kept)
    (us : List (Use γ)) : ∀ e ∈ k.history d us, e.pool.Safe capacity := by
  refine k.forall_history (I := k.Kept capacity) (fun _ h => h.safe) ?_ ?_ h us
  · intro x now g q hx hq
    refine ⟨?_, ?_⟩ <;> rw [k.pool_put]
    · exact hx.sound.served hq
    · exact hq.capacity_eq.trans hx.capacity_eq
  · intro x c now hx
    have hadjust := k.adjust_accrued x c now
    exact ⟨(hx.sound.accrued hadjust).1, hadjust.capacity_eq.trans hx.capacity_eq⟩

end Uses

/-- **Every use of a pool leaves it safe.**  Whatever doubles a pool is configured with, and
whatever is done with it at whatever times, what it holds is a number between nothing and its
capacity, its rate is a number and not below the lowest one, every wait is a span, and a full pool
grants any cost.  So does a pool that is part of an adaptive one, whatever is observed and whatever
rate is set from outside. -/
theorem Desk.uses_safe (capacity start : Nat) (h : capacity ≤ maxCount) :
    (∀ (rate : Double) (us : List (Use Double)),
      let p := Pool.new capacity rate start
      p.Safe capacity ∧ ∀ e ∈ Pool.keeper.history (.new p) us, e.pool.Safe capacity) ∧
    ∀ (ceiling floor : Double) (recovery : Nat) (us : List (Use (Feedback ⊕ Double))),
      let a := Adaptive.new capacity ceiling floor recovery start
      a.pool.Safe capacity ∧
        ∀ e ∈ Adaptive.steered.history (.new a) us, e.pool.Safe capacity := by
  constructor
  · intro rate us p
    have hkept : Pool.keeper.Kept capacity p := ⟨.new h rate start, rfl⟩
    exact ⟨hkept.safe, hkept.forall_history us⟩
  · intro ceiling floor recovery us a
    have hkept : Adaptive.steered.Kept capacity a := ⟨.new h ceiling start, rfl⟩
    exact ⟨hkept.safe, hkept.forall_history us⟩

/-- A rate that is no number gives the lowest one.  An infinite rate fills the pool at once, and so
the second caller is granted the tokens that the first one has just taken. -/
theorem Desk.uses_safe_wild :
    3 ≤ maxCount ∧
    (let us : List (Use Double) :=
        [⟨0, .inl (.take 5)⟩, ⟨0, .inr .infinity⟩, ⟨0, .inl (.acquire 7 1 none)⟩]
      let es := Pool.keeper.history (.new (Pool.new 3 .nan 0)) us
      es.map (·.granted) = [some 5, none, some 1] ∧ ∀ e ∈ es, e.pool.Safe 3) ∧
    (let us : List (Use (Feedback ⊕ Double)) :=
        [⟨0, .inl (.take 5)⟩, ⟨0, .inr (.inl .throttled)⟩, ⟨0, .inr (.inr (.neg .infinity))⟩,
          ⟨0, .inl (.acquire 7 1 none)⟩]
      let es := Adaptive.steered.history (.new (Adaptive.new 3 (.ofNat 16) .nan 1 0)) us
      es.map (·.granted) = [some 5, none, none, none] ∧ ∀ e ∈ es, e.pool.Safe 3) :=
  ⟨by decide,
    ⟨by decide +kernel, ((uses_safe 3 0 (by decide)).1 .nan _).2⟩,
    ⟨by decide +kernel, ((uses_safe 3 0 (by decide)).2 (.ofNat 16) .nan 1 _).2⟩⟩

end DriveDelta
