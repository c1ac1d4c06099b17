import DriveDelta.Proofs.Calls.Traffic
import DriveDelta.Proofs.Retry.Configured

/-!
# Times and counts keep to their ranges

Spans have a longest one, the clock has a last point in time, and attempts are counted in words of
32 bits.  A configuration may ask for anything that its fields can hold, a server for any number of
seconds, and a caller for any span.  Whatever they ask for, a budget has fields that can be written
down, a pause is never longer than the longest of its budget, and an attempt is counted on only
while the budget has attempts left, so the count never passes the largest word.  Sleeps and timeouts
begin when they are asked for and may end beyond the clock.

Two things are cut off.  A context whose deadline would lie beyond the clock cannot be made, however
early the deadline is that it has already.  And the log keeps the milliseconds of a pause as a
64-bit counter does.

## What is here

* `RetryConfig.Sized` and `RetryBudget.Sized`, fields that can be written down, and
  `RetryConfig.sized_toBudget`;
* `RetryBudget.doublings` and `RetryBudget.factor`, the pause computed with words, and
  `RetryBudget.backoff_eq_factor` and `RetryBudget.add_one_of_again`;
* `Context.withTimeout?_eq_none_iff` and `Context.status_withTimeout?`, what a deadline does;
* `RetryBudget.Counted`, `Call.Phase.InRange` and `CallEvent.InRange`, the counts and times of a
  call, with `Call.Phase.InRange.step`, and `Traffic.run_inRange`;
* `Traffic.times_and_counts_fit`.
-/

set_option autoImplicit false

namespace DriveDelta

/-! ## Configurations and budgets -/

/-- The fields of a configuration are within their types; the shortest pause may be any double. -/
structure RetryConfig.Sized (c : RetryConfig) : Prop where
  maxAttempts_le : c.maxAttempts ≤ maxCount
  maxBackoffSeconds_lt : c.maxBackoffSeconds < 2 ^ 64
  perCallTimeoutSeconds_lt : c.perCallTimeoutSeconds < 2 ^ 64

/-- The fields of a budget are within their types. -/
structure RetryBudget.Sized (b : RetryBudget) : Prop where
  maxAttempts_le : b.maxAttempts ≤ maxCount
  minBackoff_le : b.minBackoff ≤ Nanos.longest
  maxBackoff_le : b.maxBackoff ≤ Nanos.longest
  perCallTimeout_le : b.perCallTimeout ≤ Nanos.longest

theorem RetryConfig.sized_toBudget {c : RetryConfig} (h : c.Sized) : c.toBudget.Sized where
  maxAttempts_le := Nat.max_le.2 ⟨h.maxAttempts_le, by decide⟩
  minBackoff_le := c.ordered_toBudget.pauses.trans (maxBackoff_toBudget_le h.maxBackoffSeconds_lt)
  maxBackoff_le := maxBackoff_toBudget_le h.maxBackoffSeconds_lt
  perCallTimeout_le :=
    Nanos.ofSeconds_le_longest (Nat.max_lt.2 ⟨h.perCallTimeoutSeconds_lt, by decide⟩)

/-- A double that stands for a span stands for one that can be written down. -/
theorem Double.nanos?_le {x : Double} {n : Nat} (h : x.nanos? = some n) : n ≤ Nanos.longest := by
  rw [nanos?] at h
  split at h
  · exact absurd h (by simp)
  · split at h
    · exact absurd h (by simp)
    · obtain ⟨hle, heq⟩ := Option.ite_none_right_eq_some.1 h
      exact Option.some_inj.1 heq ▸ hle

/-- A hint is one that can be written down. -/
theorem Response.retryAfter?_le {r : Response} {hint : Nat} (h : r.retryAfter? = some hint) :
    hint ≤ Nanos.longest := by
  simp only [retryAfter?, Option.bind_eq_bind, Option.bind_eq_some_iff] at h
  obtain ⟨value, -, n, -, hn⟩ := h
  split at hn
  · cases hn
    exact Nanos.ofSeconds_le_longest (Nat.lt_succ_of_le ‹_›)
  · cases hn

/-! ## Pauses and counts in words -/

namespace RetryBudget

variable {b : RetryBudget} {n : UInt32}

/-- How often the shortest pause is doubled after an attempt. -/
def doublings (n : UInt32) : UInt32 := min (if n = 0 then 0 else n - 1) 16

/-- What the shortest pause is multiplied with after an attempt. -/
def factor (n : UInt32) : UInt32 := 1 <<< doublings n

theorem toNat_doublings (n : UInt32) : (doublings n).toNat = min (n.toNat - 1) lastDoubling := by
  have hmin (x : UInt32) : (min x 16).toNat = min x.toNat lastDoubling := by
    change (if x ≤ 16 then x else 16).toNat = if x.toNat ≤ 16 then x.toNat else 16
    split
    next h => exact (if_pos (UInt32.le_iff_toNat_le.1 h)).symm
    next h => exact (if_neg fun hle => h (UInt32.le_iff_toNat_le.2 hle)).symm
  rw [doublings, hmin]
  split
  next hzero => rw [hzero]; rfl
  next hne =>
    have hpos : n.toNat ≠ 0 := fun h => hne (UInt32.toNat_inj.1 h)
    have hle : 1 ≤ n := UInt32.le_iff_toNat_le.2 (Nat.pos_of_ne_zero hpos)
    rw [UInt32.toNat_sub_of_le _ _ hle]
    rfl

/-- The shift is narrower than the word. -/
theorem doublings_lt (n : UInt32) : (doublings n).toNat < 32 := by
  rw [toNat_doublings]
  exact Nat.lt_of_le_of_lt (Nat.min_le_right _ _) (by decide)

/-- No bit is shifted out of the word. -/
theorem toNat_factor (n : UInt32) : (factor n).toNat = 2 ^ min (n.toNat - 1) lastDoubling := by
  have hfits : 2 ^ (doublings n).toNat < 2 ^ 32 := Nat.pow_lt_pow_right (by decide) (doublings_lt n)
  have hone : (1 : UInt32).toNat = 1 := rfl
  rw [factor, UInt32.toNat_shiftLeft, Nat.mod_eq_of_lt (doublings_lt n), hone, Nat.one_shiftLeft,
    Nat.mod_eq_of_lt hfits, toNat_doublings]

theorem backoff_eq_factor (b : RetryBudget) (n : UInt32) :
    b.backoff n.toNat = min (Nanos.times b.minBackoff (factor n).toNat) b.maxBackoff := by
  rw [toNat_factor]
  rfl

/-- An attempt is counted on only while the count has room. -/
theorem add_one_of_again {d : Decision} {pause : Nat} (hb : b.Sized)
    (h : b.decide n.toNat d = .again pause) :
    (n + 1).toNat = n.toNat + 1 ∧ (n + 1).toNat ≤ b.maxAttempts := by
  have hlt := (lt_and_le_of_again h).1
  have hfits : n.toNat + 1 < 2 ^ 32 := by
    have hmax : maxCount < 2 ^ 32 := by decide
    have := hb.maxAttempts_le
    omega
  have heq : (n + 1).toNat = n.toNat + 1 := by
    rw [UInt32.toNat_add]
    exact Nat.mod_eq_of_lt hfits
  exact ⟨heq, heq ▸ hlt⟩

end RetryBudget

/-- The log keeps the milliseconds of a span as long as a 64-bit counter can. -/
theorem Nanos.milliCount_eq_iff (d : Nat) :
    milliCount d = d / milli ↔ d / milli < 2 ^ 64 := by
  rw [milliCount]
  exact ⟨fun h => h ▸ Nat.mod_lt _ (by decide), Nat.mod_eq_of_lt⟩

/-! ## Deadlines -/

namespace Context

variable {c d : Context} {now span : Nat}

/-- A context with a deadline can be made unless the deadline lies beyond the clock. -/
theorem withTimeout?_eq_none_iff :
    c.withTimeout? now span = none ↔ Nanos.lastInstant < now + span := by
  rw [withTimeout?, Option.map_eq_none_iff, Nanos.after?]
  split <;> simp <;> omega

/-- The deadline counts besides the one that there is already. -/
theorem status_withDeadline (c : Context) (deadline : Nat) (f : Forest) (t : Nat) :
    (c.withDeadline deadline).status f t =
      (c.status f t).or (if deadline ≤ t then some .deadlineExceeded else none) := by
  have htoken : (c.withDeadline deadline).token = c.token := rfl
  rw [status, status, htoken]
  split
  · rfl
  · rw [withDeadline]
    cases c.deadline with
    | none => simp
    | some earlier =>
      by_cases hearlier : earlier ≤ t <;> by_cases hlate : deadline ≤ t <;>
        simp [hearlier, hlate]

theorem status_withTimeout? (h : c.withTimeout? now span = some d) (f : Forest) (t : Nat) :
    d.status f t = (c.status f t).or (if now + span ≤ t then some .deadlineExceeded else none) := by
  rw [withTimeout?, Option.map_eq_some_iff] at h
  obtain ⟨deadline, hafter, rfl⟩ := h
  obtain ⟨-, heq⟩ := Option.ite_none_right_eq_some.1 hafter
  obtain rfl := Option.some_inj.1 heq
  exact c.status_withDeadline _ f t

end Context

/-! ## Calls -/

/-- The number of an attempt that a budget allows, as a 32-bit word holds it.  The first attempt is
always made. -/
structure RetryBudget.Counted (b : RetryBudget) (n : Nat) : Prop where
  pos : 1 ≤ n
  le_max : n ≤ max 1 b.maxAttempts
  le_maxCount : n ≤ maxCount

namespace RetryBudget.Counted

variable {b : RetryBudget} {n : Nat}

theorem one (b : RetryBudget) : b.Counted 1 :=
  ⟨Nat.le_refl _, Nat.le_max_left _ _, by decide⟩

/-- While the budget has attempts left, the next one is one that it allows. -/
theorem add_one (hb : b.Sized) (h : n < b.maxAttempts) : b.Counted (n + 1) :=
  ⟨Nat.le_add_left _ _, Nat.le_trans h (Nat.le_max_right _ _), Nat.le_trans h hb.maxAttempts_le⟩

end RetryBudget.Counted

/-- What is logged of attempts and pauses is within the budget. -/
def CallEvent.InRange (b : RetryBudget) : CallEvent → Prop
  | .retrying _ n maxAttempts _ pause =>
    b.Counted n ∧ maxAttempts = b.maxAttempts ∧ n < maxAttempts ∧ pause ≤ b.maxBackoff
  | .exhausted n _ => b.Counted n

namespace Call

variable {α : Type}

/-- The attempt of a call is one that its budget allows.  A timeout and a pause began by now; they
last as long as the budget says, and while a call pauses its budget has another attempt left. -/
def Phase.InRange (b : RetryBudget) (now : Nat) : Phase → Prop
  | .building n _ | .authorizing n _ _ | .arriving n _ _ | .admitting n _ _ _ _ => b.Counted n
  | .exchanging n _ _ _ expires =>
    b.Counted n ∧ ∃ t ≤ now, expires = Nanos.wake t b.perCallTimeout
  | .backingOff n _ until_ =>
    b.Counted n ∧ n < b.maxAttempts ∧ ∃ t ≤ now, ∃ pause ≤ b.maxBackoff, until_ = Nanos.wake t pause
  | .finished _ => True

theorem Phase.InRange.mono {b : RetryBudget} {now now' : Nat} {phase : Phase}
    (h : phase.InRange b now) (hle : now ≤ now') : phase.InRange b now' := by
  cases phase with
  | exchanging =>
    obtain ⟨hn, t, ht, heq⟩ := h
    exact ⟨hn, t, ht.trans hle, heq⟩
  | backingOff =>
    obtain ⟨hn, hlt, t, ht, hpause⟩ := h
    exact ⟨hn, hlt, t, ht.trans hle, hpause⟩
  | _ => exact h

/-- A step that leaves the call and its log within the budget. -/
structure Step.InRange (b : RetryBudget) (now : Nat) (r : Step α) : Prop where
  phase : r.phase.InRange b now
  events : ∀ e, .callEvent e ∈ r.effects → e.InRange b

variable {call : Call} {l : Limiter α} {now attempt : Nat}

theorem inRange_finish {b : RetryBudget} (h : b.Counted attempt) (outcome : Outcome)
    (d : Decision) : ∀ e ∈ (finish outcome d attempt).2, e.InRange b := by
  have hexhausted (x : Except TransportError Nat) :
      ∀ e ∈ [CallEvent.exhausted attempt x], e.InRange b := by
    intro e he
    rw [List.mem_singleton.1 he]
    exact h
  rw [finish.eq_def]
  split
  · split <;> simp
  · simp
  · simp
  · simp
  · exact hexhausted _
  · split
    · exact hexhausted _
    · simp

/-- Another attempt follows only while the budget has one left. -/
theorem inRange_conclude (hb : call.budget.Sized) (h : call.budget.Counted attempt)
    (length : Nat) (url : String) (outcome : Outcome) (now : Nat) (status : Option CancelReason) :
    (call.conclude attempt length url outcome now status).1.InRange call.budget now ∧
      ∀ e ∈ (call.conclude attempt length url outcome now status).2, e.InRange call.budget := by
  rw [conclude.eq_def]
  split
  · exact ⟨trivial, by simp⟩
  · dsimp only
    split
    · exact ⟨trivial, inRange_finish h _ _⟩
    · rename_i pause hagain
      obtain ⟨hlt, hle⟩ := RetryBudget.lt_and_le_of_again hagain
      refine ⟨?_, ?_⟩
      · split
        · exact .add_one hb hlt
        · exact ⟨h, hlt, now, Nat.le_refl _, pause, hle, rfl⟩
      · intro e he
        rw [List.mem_singleton.1 he]
        exact ⟨h, rfl, hlt, hle⟩

theorem inRange_admitted (h : call.budget.Counted attempt) (l : Limiter α) (length : Nat)
    (request : Request) (kind : PoolKind) (turn : Turn) (events : List (AdmissionEvent α)) :
    (call.admitted l now attempt length request kind turn
      (events.map .admissionEvent)).InRange call.budget now := by
  cases turn with
  | granted => exact ⟨⟨h, now, Nat.le_refl _, rfl⟩, by simp [admitted]⟩
  | asleep until_ => exact ⟨h, by simp [admitted]⟩
  | cancelled reason => exact ⟨trivial, by simp [admitted]⟩

variable [Number α] {status : Option CancelReason} {incoming : Incoming} {phase : Phase}
  {r : Step α}

theorem inRange_concluded (hb : call.budget.Sized) (h : call.budget.Counted attempt)
    (l : Limiter α) (length : Nat) (url : String) (kind : PoolKind) (outcome : Outcome)
    (after : Option CancelReason) :
    (call.concluded l now attempt length url kind outcome after).InRange call.budget now := by
  have hconclude := inRange_conclude hb h length url outcome now after
  refine ⟨hconclude.1, fun e he => hconclude.2 e ?_⟩
  simpa [concluded] using he

/-- **Each step keeps to the ranges**, whatever comes in. -/
theorem Phase.InRange.step (hb : call.budget.Sized) (h : phase.InRange call.budget now)
    (ha : Advance call l now status incoming phase r) : r.InRange call.budget now := by
  cases ha with
  | stopped | unbuilt | mismatched => exact ⟨trivial, by simp⟩
  | asked | ready => exact ⟨h, by simp⟩
  | @answered _ length request answer after =>
    cases answer with
    | ok value => exact ⟨h, by simp [authorized]⟩
    | error e =>
      have hconclude := inRange_conclude hb h length request.url (.error e) now after
      exact ⟨hconclude.1, fun e he => hconclude.2 e (by simpa [authorized] using he)⟩
  | arrived => exact inRange_admitted h ..
  | resumed => exact inRange_admitted h _ _ _ _ _ []
  | responded | expired => exact inRange_concluded hb h.1 ..
  | rested => exact ⟨.add_one hb h.2.1, by simp⟩

end Call

namespace Traffic

open Call

variable {α : Type} [Number α] {calls : Nat → Call} {s s' : Traffic α} {ms : List Move}

/-- Every call and its log are within its budget. -/
structure InRange (calls : Nat → Call) (s : Traffic α) : Prop where
  phase : ∀ i, (s.phase i).InRange (calls i).budget s.now
  events : ∀ i e, (i, .callEvent e) ∈ s.trace → e.InRange (calls i).budget

/-- Time does not go back. -/
theorem now_le {m : Move} (hstep : s.step calls m = some s') : s.now ≤ s'.now := by
  rcases step_cases hstep with ⟨i, forest, incoming, r, -, rfl, -, -⟩ | ⟨hm, -, -⟩
  · exact Nat.le_refl _
  · cases m with
    | turn | credential | response => exact absurd hm (by simp [Move.call?])
    | pass span =>
      obtain rfl := Option.some_inj.1 hstep
      exact Nat.le_add_right _ _
    | cancel | derive | draw | feed =>
      obtain rfl := Option.some_inj.1 hstep
      exact Nat.le_refl _

/-- A move of a call keeps to the ranges, and no other move leaves them. -/
theorem InRange.step {m : Move} (hb : ∀ i, (calls i).budget.Sized) (h : s.InRange calls)
    (hstep : s.step calls m = some s') : s'.InRange calls := by
  rcases step_cases hstep with ⟨i, forest, incoming, r, -, rfl, -, hr⟩ | ⟨-, hphase, htrace⟩
  · have hstepped := (h.phase i).step (hb i) (advance_of_step hr)
    refine ⟨fun j => ?_, fun j e he => ?_⟩
    · by_cases hj : j = i
      · subst hj
        rw [phase_after_self]
        exact hstepped.phase
      · rw [phase_after_of_ne hj]
        exact h.phase j
    · rcases List.mem_append.1 he with he | he
      · exact h.events j e he
      · obtain ⟨e', he', heq⟩ := List.mem_map.1 he
        obtain ⟨rfl, rfl⟩ := Prod.mk.inj heq
        exact hstepped.events e he'
  · refine ⟨fun i => ?_, fun i e he => h.events i e (htrace ▸ he)⟩
    rw [hphase]
    exact (h.phase i).mono (now_le hstep)

/-- Calls that have not begun are within their budgets, and nothing that happens takes them out. -/
theorem run_inRange (hb : ∀ i, (calls i).budget.Sized) (hphase : ∀ i, s.phase i = Call.start)
    (htrace : s.trace = []) (hrun : s.run calls ms = some s') : s'.InRange calls := by
  refine run_induction hrun ⟨fun i => ?_, fun i e he => ?_⟩ fun _ _ _ h hstep => h.step hb hstep
  · rw [hphase]
    exact .one _
  · rw [htrace] at he
    exact absurd he (by simp)

/-- **Times and counts fit.**  A configuration within its types gives a budget within its types.
For a budget within its types, the pause after an attempt can be computed in words without losing a
bit; whatever pause the budget asks for can be written down, and then the count has room for the
next attempt.  Whatever pause a server asks for can be written down too.  Only the log cuts a pause
off, if its milliseconds exceed a 64-bit counter.  Sleeps and timeouts always end, and on time if
the clock can say when.  A context with a timeout cannot be made if its deadline lies beyond the
clock, whatever deadline there is already; any other is done when one of the two has passed.  In
every run of calls, from any state of the limiter and at any time, attempts are counted within the
budgets, and timeouts and pauses are sleeps of the spans that the budgets allow. -/
theorem times_and_counts_fit :
    (∀ c : RetryConfig, c.Sized → c.toBudget.Sized ∧
      ∀ n ∈ (c.minBackoffSeconds.max .zero).nanos?, n ≤ Nanos.longest) ∧
    (∀ b : RetryBudget, b.Sized → ∀ n : UInt32,
      (RetryBudget.doublings n).toNat < 32 ∧
      b.backoff n.toNat =
        min (Nanos.times b.minBackoff (RetryBudget.factor n).toNat) b.maxBackoff ∧
      b.backoff n.toNat ≤ Nanos.longest ∧
      ∀ (d : Decision) (pause : Nat), b.decide n.toNat d = .again pause →
        pause ≤ b.maxBackoff ∧ pause ≤ Nanos.longest ∧
        (n + 1).toNat = n.toNat + 1 ∧ (n + 1).toNat ≤ b.maxAttempts) ∧
    (∀ (r : Response) (hint : Nat), r.retryAfter? = some hint → hint ≤ Nanos.longest) ∧
    (∀ pause, Nanos.milliCount pause = pause / Nanos.milli ↔ pause / Nanos.milli < 2 ^ 64) ∧
    (∀ now span, now ≤ Nanos.wake now span ∧
      (now + span ≤ Nanos.lastInstant → Nanos.wake now span = now + span)) ∧
    (∀ (c : Context) (now span : Nat),
      (c.withTimeout? now span = none ↔ Nanos.lastInstant < now + span) ∧
      ∀ d, c.withTimeout? now span = some d → ∀ (f : Forest) (t : Nat),
        d.status f t =
          (c.status f t).or (if now + span ≤ t then some .deadlineExceeded else none)) ∧
    ∀ (calls : Nat → Call) (s s' : Traffic α) (ms : List Move), (∀ i, (calls i).budget.Sized) →
      (∀ i, s.phase i = Call.start) → s.trace = [] → s.run calls ms = some s' →
        s'.InRange calls := by
  refine ⟨fun c hc => ⟨c.sized_toBudget hc, fun n hn => Double.nanos?_le hn⟩, ?_,
    fun r hint hr => Response.retryAfter?_le hr, Nanos.milliCount_eq_iff,
    fun now span => ⟨Nanos.le_wake now span, Nanos.wake_of_le⟩,
    fun c now span => ⟨Context.withTimeout?_eq_none_iff, fun d => Context.status_withTimeout?⟩,
    fun calls s s' ms hb hphase htrace hrun => run_inRange hb hphase htrace hrun⟩
  intro b hb n
  refine ⟨RetryBudget.doublings_lt n, b.backoff_eq_factor n,
    (b.backoff_le _).trans hb.maxBackoff_le, fun d pause hagain => ?_⟩
  have hle := (RetryBudget.lt_and_le_of_again hagain).2
  exact ⟨hle, hle.trans hb.maxBackoff_le, RetryBudget.add_one_of_again hb hagain⟩

/-- Calls whose budget has the longest pause that a configuration can ask for. -/
def patientCall (_ : Nat) : Call where
  context := { token := 0 }
  budget := RetryConfig.unreasonable.toBudget
  build _ := .ok { method := .get, url := "https://host/items" }
  authenticated := false

/-- The connection of a call is reset, and it pauses for the longest span of its budget, which ends
beyond the clock; a server that asks for as long is understood; and a context with a second is done
after it. -/
theorem times_and_counts_fit_longest :
    let b := RetryConfig.unreasonable.toBudget
    let limiter : Limiter Double := .new .builtin 0
    let ms : List Move := [.turn 0, .turn 0, .response 0 (.error .connectionReset) []]
    RetryConfig.unreasonable.Sized ∧ b.Sized ∧
      b.decide (1 : UInt32).toNat (.retryAfter none) = .again b.maxBackoff ∧
      b.maxBackoff ≤ Nanos.longest ∧ ((1 : UInt32) + 1).toNat ≤ b.maxAttempts ∧
      (Response.throttledFor "18446744073709551615").retryAfter? = some b.maxBackoff ∧
      (∃ d, ({ token := 0 } : Context).withTimeout? 0 Nanos.second = some d ∧
        d.status {} Nanos.second = some .deadlineExceeded) ∧
      ∃ s : Traffic Double, run patientCall { limiter } ms = some s ∧ s.InRange patientCall ∧
        Nanos.lastInstant < b.maxBackoff ∧ s.phase 0 = .backingOff 1 0 Nanos.patience := by
  intro b limiter ms
  obtain ⟨hconfig, hbudget, -, -, -, hcontext, hrun⟩ := times_and_counts_fit (α := Double)
  have hsized : RetryConfig.unreasonable.Sized := ⟨by decide, by decide, by decide⟩
  have hb : b.Sized := (hconfig _ hsized).1
  have hagain : b.decide (1 : UInt32).toNat (.retryAfter none) = .again b.maxBackoff := by
    decide +kernel
  obtain ⟨-, -, -, hpause⟩ := hbudget b hb 1
  obtain ⟨-, hle, -, hcount⟩ := hpause _ _ hagain
  have hpaused : (run patientCall { limiter } ms).map (fun s =>
      match s.phase 0 with
      | .backingOff n length until_ => some (n, length, until_)
      | _ => none) = some (some (1, 0, Nanos.patience)) := by decide +kernel
  obtain ⟨s, hs, hphase⟩ := Option.map_eq_some_iff.1 hpaused
  split at hphase
  next heq =>
    cases hphase
    have hdone := (hcontext { token := 0 } 0 Nanos.second).2 _ rfl {} Nanos.second
    exact ⟨hsized, hb, hagain, hle, hcount, by decide +kernel, ⟨_, rfl, hdone⟩, s, hs,
      hrun patientCall _ s ms (fun _ => hb) (fun _ => rfl) rfl hs, by decide, heq⟩
  next => cases hphase

end Traffic

namespace Context

/-- **The longest timeout has no context**, not even below a deadline that is a second away.  So
there are spans that no context can be given. -/
theorem longest_timeout_out_of_range :
    ({ token := 0, deadline := some Nanos.second } : Context).withTimeout? 0 Nanos.longest = none ∧
    ¬ ∀ (c : Context) (now span : Nat), now ≤ Nanos.lastInstant → span ≤ Nanos.longest →
      (c.withTimeout? now span).isSome = true := by
  refine ⟨by decide, fun h => ?_⟩
  exact absurd (h { token := 0 } 0 Nanos.longest (Nat.zero_le _) (Nat.le_refl _)) (by decide)

end Context

end DriveDelta
