import DriveDelta.Admission.Acquire
import DriveDelta.Proofs.Double.Amount

/-!
# What a pool holds

Whatever is done to a pool begins by crediting what has accrued, and only an admission takes tokens
out.  Over doubles each of these steps rounds, and a configuration may ask for a rate that is not
even a finite number.  This file shows that no use of a pool ever finds less in it than the last one
left, and that an admission takes exactly what it is charged.

## What is here

* `Pool.Credited` and `Pool.Accrued`, what a pool becomes by uses that take nothing, and
  `Pool.Paid`, what it becomes by an admission;
* `Pool.Sound`, what holds of every pool over doubles with a 32-bit capacity, and that all of these
  keep it; a second look at the same time changes nothing (`Pool.Sound.filled_filled`);
* `Pool.Accrued.value_le` and `Pool.Paid.value_eq`, the exact accounts;
* `Pool.Sound.lt_of_later` and `Pool.Sound.lt_of_lacks`: a pool that lacks tokens gains some in
  every millisecond.
-/

set_option autoImplicit false

namespace DriveDelta

open Number

namespace Pool

section Uses

variable {α : Type} [Number α]

/-- What a pool becomes by being looked at, any number of times, at one point in time. -/
inductive Credited (now : Nat) (p : Pool α) : Pool α → Prop where
  | refl : Credited now p p
  | filled {q : Pool α} (h : Credited now p q) : Credited now p (q.filled now)

/-- What a pool becomes by uses that take nothing out of it: it has been looked at, or its rate has
been changed. -/
inductive Accrued (now : Nat) (p : Pool α) : Pool α → Prop where
  | credited {q : Pool α} (h : Credited now p q) : Accrued now p q
  | paced (rate : α) : Accrued now p (p.setRate rate now)

/-- What a pool becomes by an admission: it has been credited, it held what the admission is
charged, and that has been taken out. -/
structure Paid (cost now : Nat) (p q : Pool α) : Prop where
  credited : ∃ p', Credited now p p' ∧ le (p'.charge cost) p'.tokens = true ∧
    q = { p' with tokens := p'.tokens - p'.charge cost }

/-- A pool that was looked at and does not hold what an admission is charged. -/
structure Lacks (cost now : Nat) (p : Pool α) : Prop where
  short : le (p.charge cost) p.tokens = false
  filledAt_eq : p.filledAt = now

variable {p q : Pool α} {now cost : Nat}

theorem Credited.capacity_eq (h : Credited now p q) : q.capacity = p.capacity := by
  induction h with
  | refl => rfl
  | filled _ ih => exact ih

theorem Accrued.capacity_eq (h : Accrued now p q) : q.capacity = p.capacity := by
  cases h with
  | credited h => exact h.capacity_eq
  | paced rate => rfl

/-- A try to take tokens is an admission, or a look at a pool that lacks them. -/
theorem take_cases (p : Pool α) (cost now : Nat) :
    (∃ q, p.take cost now = (q, .granted) ∧ Paid cost now p q) ∨
      ∃ span, p.take cost now = (p.filled now, .wait span) ∧ (p.filled now).Lacks cost now := by
  rw [take]
  split
  · rename_i h
    exact .inl ⟨_, rfl, ⟨_, .filled .refl, h, rfl⟩⟩
  · rename_i h
    exact .inr ⟨_, rfl, by simpa using h, rfl⟩

theorem Paid.of_credited {p' : Pool α} (h : Credited now p p') (hq : Paid cost now p' q) :
    Paid cost now p q := by
  obtain ⟨q', hq', hle⟩ := hq.credited
  refine ⟨q', ?_, hle⟩
  clear hle hq
  induction hq' with
  | refl => exact h
  | filled _ ih => exact .filled ih

end Uses

/-! ## Pools over doubles -/

theorem number_ofNat (n : Nat) : (ofNat n : Double) = Double.ofNat n := rfl

theorem number_smaller (x y : Double) : smaller x y = x.min y := rfl

theorem number_larger (x y : Double) : larger x y = x.max y := rfl

theorem number_le (x y : Double) : le x y = x.le y := rfl

theorem number_sub (x y : Double) : x - y = x.sub y := rfl

/-- What a pool over doubles holds once it has been credited. -/
theorem tokens_filled (p : Pool Double) (now : Nat) :
    (p.filled now).tokens =
      (p.tokens.add ((Double.seconds (now - p.filledAt)).mul p.rate)).min
        (Double.ofNat p.capacity) := rfl

theorem isAmount_leastRate : (leastRate : Double).IsAmount := ⟨rfl, Double.roundMagnitude_le _ _⟩

/-- What holds of every pool whose capacity is a 32-bit number, however it is used. -/
structure Sound (p : Pool Double) : Prop where
  capacity_le : p.capacity ≤ maxCount
  tokens : p.tokens.IsAmount
  tokens_le : p.tokens.magnitude ≤ (Double.ofNat p.capacity).magnitude
  rate : p.rate.IsAmount
  leastRate_le : (leastRate : Double).magnitude ≤ p.rate.magnitude

variable {p q : Pool Double} {now cost : Nat}

theorem lt_of_le_maxCount {n : Nat} (h : n ≤ maxCount) : n < 2 * Double.binade :=
  Nat.lt_of_le_of_lt h (by decide)

theorem Sound.tokens_finite (h : p.Sound) : p.tokens.magnitude < Double.infiniteMagnitude :=
  Nat.lt_of_le_of_lt h.tokens_le (Double.ofNat_finite (lt_of_le_maxCount h.capacity_le))

/-- Whatever rate is asked for, the one that is set is an amount and not too low. -/
theorem isAmount_larger_leastRate (rate : Double) :
    (larger rate leastRate).IsAmount ∧
      (leastRate : Double).magnitude ≤ (larger rate leastRate).magnitude := by
  have hleast : (leastRate : Double).IsAmount := isAmount_leastRate
  have hpos : 0 < (leastRate : Double).magnitude := by decide +kernel
  rw [number_larger]
  generalize (leastRate : Double) = least at hleast hpos
  rw [Double.max]
  split
  · exact ⟨hleast, Nat.le_refl _⟩
  · rename_i hnan
    rw [if_neg (by simp [hleast.isNaN])]
    split
    · exact ⟨hleast, Nat.le_refl _⟩
    · -- a negative rate would be lower
      rename_i hlt
      simp only [Double.lt, hleast.isNaN, Double.rank, hleast.nonneg, Bool.not_false] at hlt
      simp only [Double.isNaN, decide_eq_true_eq, not_lt] at hnan
      cases hneg : rate.negative with
      | true => simp [hneg, Double.isNaN] at hlt; omega
      | false =>
        simp [hneg, Double.isNaN] at hlt
        exact ⟨⟨hneg, hnan⟩, by omega⟩

theorem Sound.new {capacity : Nat} (h : capacity ≤ maxCount) (rate : Double) (now : Nat) :
    (Pool.new capacity rate now).Sound where
  capacity_le := Nat.max_le.2 ⟨h, by decide⟩
  tokens := Double.isAmount_ofNat _
  tokens_le := Nat.le_refl _
  rate := (isAmount_larger_leastRate rate).1
  leastRate_le := (isAmount_larger_leastRate rate).2

/-- What accrues in a span is without value or an amount. -/
theorem Sound.accrual (h : p.Sound) (d : Nat) :
    ((Double.seconds d).mul p.rate).isNaN = true ∨
      ((Double.seconds d).mul p.rate).IsAmount := by
  rcases (Double.isAmount_seconds d).mul_cases h.rate with hnan | hinf | ⟨hfx, hfy⟩
  · exact .inl hnan
  · exact .inr (hinf ▸ Double.isAmount_infinity)
  · rw [Double.mul_eq (Double.isAmount_seconds d) h.rate hfx hfy]
    exact .inr (Double.isAmount_nonneg (Double.roundMagnitude_le _ _))

theorem add_of_isNaN {x y : Double} (h : y.isNaN = true) : (x.add y).isNaN = true := by
  rw [Double.add, if_pos (by simp [h])]
  rfl

/-- Crediting makes a pool full, or gives it the sum cut off at the capacity. -/
theorem Sound.filled_cases (h : p.Sound) (now : Nat) :
    (p.filled now).tokens = Double.ofNat p.capacity ∨
      ∃ gain : Double, gain = (Double.seconds (now - p.filledAt)).mul p.rate ∧
        gain.IsAmount ∧ (p.filled now).tokens =
          ⟨false, Min.min (p.tokens.add gain).magnitude (Double.ofNat p.capacity).magnitude⟩ := by
  rw [tokens_filled]
  rcases h.accrual (now - p.filledAt) with hnan | hgain
  · exact .inl (Double.min_of_isNaN (add_of_isNaN hnan))
  · exact .inr ⟨_, rfl, hgain, (h.tokens.add hgain).min_eq (Double.isAmount_ofNat _)⟩

theorem Sound.filled (h : p.Sound) (now : Nat) : (p.filled now).Sound := by
  have htokens : (p.filled now).tokens.IsAmount ∧
      (p.filled now).tokens.magnitude ≤ (Double.ofNat p.capacity).magnitude := by
    rcases h.filled_cases now with heq | ⟨gain, -, hgain, heq⟩ <;> rw [heq]
    · exact ⟨Double.isAmount_ofNat _, Nat.le_refl _⟩
    · exact ⟨Double.isAmount_nonneg
        (Nat.le_trans (Nat.min_le_right _ _) (Double.isAmount_ofNat _).le_infinite),
        Nat.min_le_right _ _⟩
  exact ⟨h.capacity_le, htokens.1, htokens.2, h.rate, h.leastRate_le⟩

/-- Crediting takes nothing out. -/
theorem Sound.le_filled (h : p.Sound) (now : Nat) :
    p.tokens.magnitude ≤ (p.filled now).tokens.magnitude := by
  rcases h.filled_cases now with heq | ⟨gain, -, hgain, heq⟩ <;> rw [heq]
  · exact h.tokens_le
  · exact Nat.le_min.2 ⟨h.tokens.le_add_left hgain, h.tokens_le⟩

/-- Nothing more fits into a full pool, and crediting takes nothing out. -/
theorem Sound.filled_of_full (h : p.Sound) (now : Nat)
    (hfull : p.tokens = Double.ofNat p.capacity) :
    (p.filled now).tokens = Double.ofNat p.capacity := by
  have hle := hfull ▸ h.le_filled now
  have hge := (h.filled now).tokens_le
  rw [(h.filled now).tokens.eq_mk, (Double.isAmount_ofNat p.capacity).eq_mk]
  exact congrArg (Double.mk false) (Nat.le_antisymm hge hle)

/-- At an infinite rate a look fills the pool, even in no time. -/
theorem Sound.filled_of_infinite (h : p.Sound) (hrate : p.rate.magnitude = Double.infiniteMagnitude)
    (now : Nat) : (p.filled now).tokens = Double.ofNat p.capacity := by
  rcases h.filled_cases now with hfull | ⟨gain, hgain, hamount, heq⟩
  · exact hfull
  · have hinf : gain = Double.infinity := by
      rcases (Double.isAmount_seconds (now - p.filledAt)).mul_cases h.rate with hnan | hinf | hfin
      · rw [← hgain, hamount.isNaN] at hnan
        cases hnan
      · exact hgain.trans hinf
      · exact absurd hfin.2 (by simp [hrate])
    have hsum : p.tokens.add gain = Double.infinity :=
      Double.add_of_infinite h.tokens hamount (.inr (by rw [hinf]; rfl))
    have hle : (Double.ofNat p.capacity).magnitude ≤ Double.infinity.magnitude :=
      (Double.isAmount_ofNat p.capacity).le_infinite
    rw [heq, hsum, Nat.min_eq_right hle, ← (Double.isAmount_ofNat p.capacity).eq_mk]

/-- A second look at the same time finds what the first one left. -/
theorem Sound.filled_filled (h : p.Sound) (now : Nat) :
    (p.filled now).filled now = p.filled now := by
  have hs := h.filled now
  have htokens : ((p.filled now).filled now).tokens = (p.filled now).tokens := by
    rcases Nat.eq_or_lt_of_le h.rate.le_infinite with hinf | hfin
    · exact (hs.filled_of_infinite hinf now).trans (h.filled_of_infinite hinf now).symm
    · have hnone : Double.seconds (now - (p.filled now).filledAt) = Double.zero := by
        rw [show (p.filled now).filledAt = now from rfl, Nat.sub_self]
        decide +kernel
      rw [tokens_filled, hnone, Double.zero_mul_eq hs.rate hfin, hs.tokens.add_zero_eq,
        hs.tokens.min_eq (Double.isAmount_ofNat _), Nat.min_eq_left hs.tokens_le, ← hs.tokens.eq_mk]
  rw [Pool.filled] at htokens ⊢
  exact congrArg (fun tokens => ({ p.filled now with tokens } : Pool Double)) htokens

theorem Sound.setRate (h : p.Sound) (rate : Double) (now : Nat) : (p.setRate rate now).Sound :=
  { h.filled now with
    rate := (isAmount_larger_leastRate rate).1
    leastRate_le := (isAmount_larger_leastRate rate).2 }

theorem Sound.credited (h : p.Sound) (hq : Credited now p q) :
    q.Sound ∧ p.tokens.magnitude ≤ q.tokens.magnitude := by
  induction hq with
  | refl => exact ⟨h, Nat.le_refl _⟩
  | filled _ ih => exact ⟨ih.1.filled now, Nat.le_trans ih.2 (ih.1.le_filled now)⟩

theorem Sound.accrued (h : p.Sound) (hq : Accrued now p q) :
    q.Sound ∧ p.tokens.magnitude ≤ q.tokens.magnitude := by
  cases hq with
  | credited hq => exact h.credited hq
  | paced rate => exact ⟨h.setRate rate now, h.le_filled now⟩

/-! ## Accounts -/

theorem charge_eq (p : Pool Double) (cost : Nat) :
    p.charge cost = Double.ofNat (Min.min cost p.capacity) := by
  rw [charge, number_ofNat, number_ofNat, number_smaller, Double.min_ofNat]

theorem tokens_sub_charge (p : Pool Double) (cost : Nat) :
    p.tokens - p.charge cost = p.tokens.sub (Double.ofNat (Min.min cost p.capacity)) := by
  rw [charge_eq, number_sub]

/-- The tokens of an admission are there when they have been charged. -/
theorem Sound.le_tokens (h : p.Sound) (hle : le (p.charge cost) p.tokens = true) :
    (Double.ofNat (Min.min cost p.capacity)).magnitude ≤ p.tokens.magnitude := by
  rw [charge_eq, number_le] at hle
  exact ((Double.isAmount_ofNat _).le_iff h.tokens).1 hle

theorem Sound.tokens_lt (h : p.Sound) (hshort : le (p.charge cost) p.tokens = false) :
    p.tokens.magnitude < (Double.ofNat (Min.min cost p.capacity)).magnitude := by
  rw [charge_eq, number_le] at hshort
  exact Nat.lt_of_not_le fun hle =>
    absurd (((Double.isAmount_ofNat _).le_iff h.tokens).2 hle) (by simp [hshort])

/-- **Uses that take nothing out leave at least what was there.** -/
theorem Accrued.value_le (h : p.Sound) (hq : Accrued now p q) : p.tokens.value ≤ q.tokens.value :=
  h.tokens.value_mono (h.accrued hq).1.tokens (h.accrued hq).2

theorem Sound.paid (h : p.Sound) (hq : Paid cost now p q) : q.Sound := by
  obtain ⟨p', hp', hle, rfl⟩ := hq.credited
  have hs := (h.credited hp').1
  have hsub := hs.tokens.sub (Double.isAmount_ofNat _) hs.tokens_finite (hs.le_tokens hle)
  rw [← tokens_sub_charge] at hsub
  exact ⟨hs.capacity_le, hsub.1, Nat.le_trans hsub.2 hs.tokens_le, hs.rate, hs.leastRate_le⟩

/-- **An admission takes out exactly its cost, or the capacity if that is less.** -/
theorem Paid.value_eq (h : p.Sound) (hq : Paid cost now p q) :
    ∃ p', Credited now p p' ∧ p.tokens.value ≤ p'.tokens.value ∧
      q.tokens.value = p'.tokens.value - (Min.min cost p.capacity : Nat) := by
  obtain ⟨p', hp', hle, rfl⟩ := hq.credited
  have hs := (h.credited hp').1
  have hcap := lt_of_le_maxCount hs.capacity_le
  have hvalue := Double.value_sub_ofNat hs.tokens hcap hs.tokens_le
    (Nat.lt_of_le_of_lt (Nat.min_le_right cost _) hcap) (hs.le_tokens hle)
  rw [← tokens_sub_charge, hp'.capacity_eq] at hvalue
  exact ⟨p', hp', Accrued.value_le h (.credited hp'), hvalue⟩

/-! ## Waiting ends -/

/-- What accrues in a millisecond at the lowest rate is more than the spacing of the doubles below
the largest capacity. -/
theorem spacing_le {m : Nat} (h : m ≤ (Double.ofNat maxCount).magnitude) :
    Nat.pow 2 (m / Double.binade - 1) ≤
      ((Double.seconds Nanos.milli).mul leastRate).units := by
  have hexp : m / Double.binade - 1 ≤ (Double.ofNat maxCount).magnitude / Double.binade - 1 :=
    Nat.sub_le_sub_right (Nat.div_le_div_right h) 1
  have hpow (a b : Nat) (hab : a ≤ b) : Nat.pow 2 a ≤ Nat.pow 2 b :=
    Nat.pow_le_pow_right (by decide) hab
  exact Nat.le_trans (hpow _ _ hexp) (by decide +kernel)

/-- A pool that is not full gains tokens in every millisecond. -/
theorem Sound.lt_filled (h : p.Sound) (hnow : p.filledAt + Nanos.milli ≤ now)
    (hlt : p.tokens.magnitude < (Double.ofNat p.capacity).magnitude) :
    p.tokens.magnitude < (p.filled now).tokens.magnitude := by
  rcases h.filled_cases now with heq | ⟨gain, hgain, hamount, heq⟩ <;> rw [heq]
  · exact hlt
  · refine Nat.lt_min.2 ⟨?_, hlt⟩
    have hmono := (Double.isAmount_seconds Nanos.milli).mul_mono isAmount_leastRate
      (Double.isAmount_seconds (now - p.filledAt)) h.rate (by decide +kernel) (by decide +kernel)
      (Double.seconds_milli_le (by omega)) h.leastRate_le
    rw [← hgain] at hmono
    have hle := (hmono.resolve_left (by simp [hamount.isNaN])).2
    refine h.tokens.lt_add hamount h.tokens_finite (Nat.le_trans (spacing_le ?_)
      (Double.unitsOf_le_unitsOf hle hamount.le_infinite))
    exact Nat.le_trans h.tokens_le (Double.ofNat_mono h.capacity_le)

/-- A pool that has been used holds what has accrued. -/
theorem Sound.filled_le (h : p.Sound) (hq : Accrued now p q) :
    q = p ∨ (p.filled now).tokens.magnitude ≤ q.tokens.magnitude := by
  cases hq with
  | paced rate => exact .inr (Nat.le_refl _)
  | credited hq =>
    induction hq with
    | refl => exact .inl rfl
    | @filled q hq ih =>
      rcases ih with rfl | ih
      · exact .inr (Nat.le_refl _)
      · exact .inr (Nat.le_trans ih ((h.credited hq).1.le_filled now))

/-- A pool that lacks tokens is not full. -/
theorem Sound.lt_capacity (h : p.Sound) (hlacks : p.Lacks cost now) :
    p.tokens.magnitude < (Double.ofNat p.capacity).magnitude :=
  Nat.lt_of_lt_of_le (h.tokens_lt hlacks.short) (Double.ofNat_mono (Nat.min_le_right _ _))

/-- A pool that lacks tokens holds more than when it was last used, a millisecond ago or more. -/
theorem Sound.lt_of_later {later : Nat} (h : p.Sound) (hlater : p.filledAt + Nanos.milli ≤ later)
    (hq : Accrued later p q) (hlacks : q.Lacks cost later) :
    p.tokens.magnitude < q.tokens.magnitude := by
  rcases h.filled_le hq with rfl | hle
  · -- it has been looked at since
    have hsame : later + Nanos.milli ≤ later := hlacks.filledAt_eq ▸ hlater
    exact absurd hsame (by simp [Nanos.milli])
  · have hlt := Nat.lt_of_le_of_lt (h.accrued hq).2 ((h.accrued hq).1.lt_capacity hlacks)
    rw [hq.capacity_eq] at hlt
    exact Nat.lt_of_lt_of_le (h.lt_filled hlater hlt) hle

/-- **A pool that lacks tokens, and still lacks some a millisecond later, has gained some.** -/
theorem Sound.lt_of_lacks {later : Nat} (h : p.Sound) (hlacks : p.Lacks cost now)
    (hlater : now + Nanos.milli ≤ later) (hq : Accrued later p q) (hlacks' : q.Lacks cost later) :
    p.tokens.magnitude < q.tokens.magnitude :=
  h.lt_of_later (hlacks.filledAt_eq ▸ hlater) hq hlacks'

end Pool

end DriveDelta
