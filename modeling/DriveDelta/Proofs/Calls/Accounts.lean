import DriveDelta.Proofs.Calls.Traffic

/-!
# Tokens and requests

Every request of a call is paid for, and nothing else is.  A move of a call either sends one request
and takes its exact price from the one pool that the context of the call names, or it sends nothing
and leaves every pool with at least what it held.

## What is here

* `Traffic.charges` and `Traffic.requests`, how often a call has paid and sent;
* `Traffic.Kept`, what all traffic over a limiter with 32-bit capacities keeps;
* `Traffic.Pays`, the exact account of one admission, and `Traffic.token_accounts`.
-/

set_option autoImplicit false

namespace DriveDelta

/-! ## Payments and requests of a step -/

namespace Call

theorem counts_of_free {α : Type} {effects : List (Effect α)} (h : Free effects) :
    effects.countP (·.isCharge) = 0 ∧ effects.countP (·.isRequest) = 0 :=
  ⟨List.countP_eq_zero.2 fun e he => by simp [(h e he).1],
    List.countP_eq_zero.2 fun e he => by simp [(h e he).2]⟩

/-- However tokens are spent in a step, there are as many payments as requests. -/
theorem Spending.balanced {α : Type} [Number α] {call : Call} {now : Nat} {l l' : Limiter α}
    {effects : List (Effect α)} (h : Spending call now l l' effects) :
    effects.countP (·.isCharge) = effects.countP (·.isRequest) := by
  cases h with
  | nothing _ hfree => rw [(counts_of_free hfree).1, (counts_of_free hfree).2]
  | request request events _ heffects =>
    obtain ⟨hcharges, hrequests⟩ := counts_of_free (quiet_admissionEvents events).free
    rw [heffects, List.countP_append, List.countP_append, hcharges, hrequests]
    rfl

theorem Spending.sound {call : Call} {now : Nat} {l l' : Limiter Double}
    {effects : List (Effect Double)} (h : Spending call now l l' effects) (hl : l.Sound) :
    l'.Sound := by
  cases h with
  | nothing h => exact hl.idles h
  | request _ _ h => exact hl.admits h

end Call

namespace Traffic

section Counts

variable {α : Type}

/-- How often a call has taken tokens. -/
def charges (s : Traffic α) (i : Nat) : Nat := (s.effects i).countP (·.isCharge)

/-- How often a call has sent a request. -/
def requests (s : Traffic α) (i : Nat) : Nat := (s.effects i).countP (·.isRequest)

end Counts

variable {calls : Nat → Call} {s s' : Traffic Double} {m : Move} {i : Nat} {l₀ : Limiter Double}

/-! ## What all traffic keeps -/

/-- The pools are sound and the same as at first, each call keeps to the pool that its context
names, and it has paid as often as it has sent. -/
structure Kept (calls : Nat → Call) (l₀ : Limiter Double) (s : Traffic Double) : Prop where
  sound : s.limiter.Sound
  alike : l₀.Alike s.limiter
  fits : ∀ i, (s.phase i).Fits (calls i) s.limiter
  balanced : ∀ i, s.charges i = s.requests i

theorem Kept.opening {cfg : LimiterConfig Double} (h : ∀ c, (cfg.pool c).capacity ≤ maxCount)
    (start : Nat) (forest : Forest) :
    Kept calls (.new cfg start) { limiter := .new cfg start, now := start, forest } where
  sound := .new h start
  alike := .refl _
  fits _ := trivial
  balanced _ := rfl

/-- A limiter that is used by somebody else. -/
theorem Kept.of_limiter {l : Limiter Double} (h : Kept calls l₀ s) (hsound : l.Sound)
    (halike : s.limiter.Alike l) : Kept calls l₀ { s with limiter := l } where
  sound := hsound
  alike := h.alike.trans halike
  fits i := (h.fits i).of_alike halike
  balanced := h.balanced

/-- The account of one step of a call. -/
theorem Kept.after {forest : Forest} {r : Call.Step Double} (h : Kept calls l₀ s)
    (hs : Call.Spending (calls i) s.now s.limiter r.limiter r.effects)
    (hfits : r.phase.Fits (calls i) r.limiter) : Kept calls l₀ (s.after i forest r) where
  sound := hs.sound h.sound
  alike := h.alike.trans hs.alike
  fits j := by
    by_cases hj : j = i
    · subst hj
      rw [phase_after_self]
      exact hfits
    · rw [phase_after_of_ne hj]
      exact (h.fits j).of_alike hs.alike
  balanced j := by
    by_cases hj : j = i
    · subst hj
      rw [charges, requests, effects_after_self, List.countP_append, List.countP_append,
        hs.balanced]
      exact congrArg (· + _) (h.balanced j)
    · rw [charges, requests, effects_after_of_ne hj]
      exact h.balanced j

theorem Kept.step (h : Kept calls l₀ s) (hstep : s.step calls m = some s') : Kept calls l₀ s' := by
  rcases step_cases hstep with ⟨i, forest, incoming, r, -, rfl, -, hr⟩ | ⟨hm, -, -⟩
  · obtain ⟨hs, hfits⟩ := Call.step_spending (h.fits i) hr
    exact h.after hs hfits
  · cases m with
    | turn | credential | response => exact absurd hm (by simp [Move.call?])
    | pass | cancel | derive =>
      obtain rfl := Option.some_inj.1 hstep
      exact ⟨h.sound, h.alike, h.fits, h.balanced⟩
    | draw c k cost =>
      obtain rfl := Option.some_inj.1 hstep
      rcases s.limiter.take_cases c k cost s.now with ⟨k', hadmits⟩ | hidles
      · exact h.of_limiter (h.sound.admits hadmits) hadmits.alike
      · exact h.of_limiter (h.sound.idles hidles) hidles.alike
    | feed c f =>
      obtain rfl := Option.some_inj.1 hstep
      have hidles := s.limiter.feed_idles c f s.now
      exact h.of_limiter (h.sound.idles hidles) hidles.alike

/-! ## Accounts -/

/-- One admission of `cost` tokens: the pool of this class and kind is credited, then loses exactly
the cost, or its capacity if that is less, and no other pool changes. -/
structure Pays (c : ServiceClass) (k : PoolKind) (cost now : Nat) (l l' : Limiter Double) :
    Prop where
  exact_price : ∃ p, (l.pool c k).Credited now p ∧ (l.pool c k).tokens.value ≤ p.tokens.value ∧
    (l'.pool c k).tokens.value = p.tokens.value - (min cost (l.pool c k).capacity : Nat)
  others : ∀ c' k', c' ≠ c ∨ k' ≠ k → l.Has c' k' → l'.pool c' k' = l.pool c' k'

theorem Pays.of_admits {c : ServiceClass} {k : PoolKind} {cost now : Nat} {l l' : Limiter Double}
    (hl : l.Sound) (h : l.Admits c k cost now l') : Pays c k cost now l l' :=
  ⟨h.paid.value_eq (hl c k), h.others⟩

/-- **Tokens are taken for requests, and for nothing else.**  Take any limiter with 32-bit
capacities and any traffic over it.  Every call has taken tokens as often as it has sent a request.
A move of a call either sends nothing, takes nothing and leaves every pool with at least what it
held, or it takes the exact price of one admission, from the pool that the context of the call names
and from no other, and sends one request with it. -/
theorem token_accounts {cfg : LimiterConfig Double} {start : Nat} {forest : Forest}
    {ms : List Move} (hcfg : ∀ c, (cfg.pool c).capacity ≤ maxCount)
    (hrun : run calls { limiter := .new cfg start, now := start, forest } ms = some s) :
    (∀ i, s.charges i = s.requests i) ∧
    ∀ m s' i, s.step calls m = some s' → m.call? = some i →
      (s'.charges i = s.charges i ∧ s'.requests i = s.requests i ∧
        ∀ c k, (s.limiter.pool c k).tokens.value ≤ (s'.limiter.pool c k).tokens.value) ∨
      ∃ events request, Call.Free events ∧
        s'.effects i = s.effects i ++ (events ++
          [.charged (calls i).context.serviceClass
            ((Limiter.new cfg start).kind (calls i).context.serviceClass
              (calls i).context.options.sliding) (calls i).context.cost, .sent request]) ∧
        Pays (calls i).context.serviceClass
          ((Limiter.new cfg start).kind (calls i).context.serviceClass
            (calls i).context.options.sliding) (calls i).context.cost s.now s.limiter
            s'.limiter := by
  have hkept : Kept calls (.new cfg start) s :=
    run_induction (P := Kept calls (.new cfg start)) hrun (.opening hcfg start forest)
      fun _ _ _ h hstep => h.step hstep
  refine ⟨hkept.balanced, fun m s' i hstep hm => ?_⟩
  rcases step_cases hstep with ⟨j, forest', incoming, r, hj, rfl, -, hr⟩ | ⟨hnone, -, -⟩
  · obtain rfl : j = i := Option.some_inj.1 (hj.symm.trans hm)
    obtain ⟨hs, -⟩ := Call.step_spending (hkept.fits j) hr
    cases hs with
    | nothing hidles hfree =>
      obtain ⟨hcharges, hrequests⟩ := Call.counts_of_free hfree
      refine .inl ⟨?_, ?_, fun c k => (hidles.accrued c k).value_le (hkept.sound c k)⟩
      · rw [charges, effects_after_self, List.countP_append, hcharges]
        rfl
      · rw [requests, effects_after_self, List.countP_append, hrequests]
        rfl
    | request request events hadmits heffects =>
      rw [hkept.alike.kind_eq] at hadmits heffects
      refine .inr ⟨_, request, (Call.quiet_admissionEvents events).free, ?_,
        .of_admits hkept.sound hadmits⟩
      rw [effects_after_self, heffects]
  · exact absurd hm (by simp [hnone])

/-- Calls that cost three tokens. -/
def costlyCall : Call where
  context := { token := 0, options := { cost := some 3 } }
  budget := .standard
  build _ := .ok { method := .get, url := "https://host/items" }
  authenticated := false

/-- The built-in pools before any call. -/
def unused : Traffic Double := { limiter := .new .builtin 0, now := 0, forest := {} }

/-- The first call has built its request. -/
def built : Traffic Double :=
  unused.after 0 {}
    ⟨.new .builtin 0, .arriving 1 0 { method := .get, url := "https://host/items" }, [.built]⟩

/-- The second turn of a call over the built-in pools sends its request, for three tokens. -/
theorem token_accounts_builtin :
    ∃ s', unused.run (fun _ => costlyCall) [.turn 0] = some built ∧
      built.step (fun _ => costlyCall) (.turn 0) = some s' ∧
      built.charges 0 = built.requests 0 ∧ s'.requests 0 = 1 ∧
      Pays .standard .static 3 0 built.limiter s'.limiter := by
  have hcapacity (c : ServiceClass) :
      ((LimiterConfig.builtin : LimiterConfig Double).pool c).capacity ≤ maxCount := by
    cases c <;> decide
  have hcount : (built.step (fun _ => costlyCall) (.turn 0)).map (·.requests 0) = some 1 := by
    decide +kernel
  obtain ⟨s', hstep, hs'⟩ := Option.map_eq_some_iff.1 hcount
  obtain ⟨hbalanced, hmoves⟩ := @token_accounts (fun _ => costlyCall) built .builtin 0 {} [.turn 0]
    hcapacity rfl
  refine ⟨s', rfl, hstep, hbalanced 0, hs', ?_⟩
  rcases hmoves (.turn 0) s' 0 hstep rfl with ⟨-, hnone, -⟩ | ⟨events, request, -, -, hpays⟩
  · rw [hs'] at hnone
    exact absurd hnone (by decide)
  · exact hpays

end Traffic

end DriveDelta
