import Mathlib.Data.List.Basic
import DriveDelta.Proofs.Cache.Trace

/-!
# One refresh for all who wait

Visits that find the cache stale at the same time do not each fetch it.  One of them refreshes;
those that wait meanwhile take over how that refresh ended.  The exception is a refresh that was
cancelled, which is its own visit's concern only.  The next in line then refreshes in its stead.

## What is here

* `Visit.Advance.admitted_split`, what a visit does on being let in by the line;
* `Session.Awaits` and `Session.Told`, what the trace says about visits that have not been let in;
* `Session.Sharing`, what becomes of those that waited while a refresh ended;
* `Session.Vacant`, the state that a cancelled refresh leaves behind;
* `Visit.Answer.error?`, `Session.Received` and `Session.Move.cancels`, which say who was told of a
  cancellation and whose it was;
* `Session.Books` and `Session.single_flight`, all of it for every session.
-/

set_option autoImplicit false

namespace DriveDelta

/-! ## One step of a visit -/

namespace Visit

variable {p : Purpose} {c : Cache} {v now : Nat} {status : Option CancelReason}
  {inc : Option Refresh.Incoming} {phase : Phase} {r : Step}

/-- After its first step a visit never arrives again, and gets in line to refresh in no other. -/
theorem Advance.phase_cases (h : Advance p c v now status inc phase r) :
    (phase = .arriving ∧ r.phase = .queued c.attempts ∧ r.effects = [.arrived]) ∨
      r.phase.Settled ∨ ∃ since stage, r.phase = .refreshing since stage := by
  cases h with
  | lined => exact .inl ⟨rfl, rfl, rfl⟩
  | approached => exact .inr (.inl (.inl rfl))
  | answered => exact .inr (.inl (.inr ⟨_, rfl⟩))
  | withdrew => exact .inr (.inl (afterRefresh_settled _ _ _ _ _))
  | shared => exact .inr (.inl (afterRefresh_settled _ _ _ _ _))
  | spared => exact .inr (.inl (afterRefresh_settled _ _ _ _ _))
  | began => exact .inr (.inr ⟨_, _, rfl⟩)
  | proceeded => exact .inr (.inr ⟨_, _, rfl⟩)
  | ended => exact .inr (.inl (afterRefresh_settled _ _ _ _ _))
  | dropped => exact .inr (.inl (.inr ⟨_, rfl⟩))
  | read => exact .inr (.inl (.inr ⟨_, rfl⟩))

/-- Once done with refreshing, a visit does nothing more that anybody else would notice. -/
theorem Advance.settled (h : Advance p c v now status inc phase r) (hp : phase.Settled) :
    r.phase.Settled ∧ r.effects = [] := by
  rcases hp with rfl | ⟨answer, rfl⟩
  · cases h with
    | dropped => exact ⟨.inr ⟨_, rfl⟩, rfl⟩
    | read => exact ⟨.inr ⟨_, rfl⟩, rfl⟩
  · cases h

/-- As long as nobody refreshes, the counter stays. -/
theorem Advance.attempts_eq (h : Advance p c v now status inc phase r)
    (hp : ∀ since stage, phase ≠ .refreshing since stage) : r.cache.attempts = c.attempts := by
  rcases h.frame with ⟨since, stage, c', outcome, effects, hph, -⟩ | ⟨-, hat, -⟩
  · exact absurd hph (hp since stage)
  · exact hat

/-- A refresh that ends by cancellation changes neither the counter nor the stored outcome. -/
theorem Advance.ended_cancelled (h : Advance p c v now status inc phase r) {reason : CancelReason}
    (hm : .ended (.error (.cancelled reason)) ∈ r.effects) :
    r.cache.attempts = c.attempts ∧ r.cache.outcome = c.outcome ∧ r.phase.Settled ∧
      ∃ since stage, phase = .refreshing since stage := by
  obtain ⟨since, stage, c', effects, hph, hr, rfl⟩ := h.ended_of_mem hm
  have hc : c'.attempts = c.attempts ∧ c'.outcome = c.outcome := by
    rcases hr.ended_cases with ⟨e, -, rfl, -⟩ | ⟨l, before, -, rfl, -⟩ <;> exact ⟨rfl, rfl⟩
  obtain ⟨line, ph, told, hset, he⟩ := endRefresh_frame p c' v (.error (.cancelled reason)) effects
  rw [he]
  exact ⟨hc.1, hc.2, hset, since, stage, hph⟩

/-- A visit is let in at the beginning of a step.  If an outcome has been shared while it waited,
that outcome is what it returns at once. -/
theorem Advance.admitted_split (h : Advance p c v now status inc phase r)
    {before rest : List Effect} (he : r.effects = before ++ .admitted :: rest) :
    before = [] ∧ ∃ seen, phase = .queued seen ∧
      (c.attempts = seen ∨
        r.phase.Settled ∧ ∃ told : List Event, rest = .returned c.outcome :: told.map .event) := by
  have hm : Effect.admitted ∈ r.effects := by simp [he]
  -- whoever is let in is so by the first effect of the step, and only there
  have hfirst : ∀ {tail : List Effect}, r.effects = .admitted :: tail → .admitted ∉ tail →
      before = [] ∧ rest = tail := by
    intro tail heff htail
    rw [heff] at he
    obtain ⟨hb, -, hr⟩ := (List.append_cons_inj_of_notMem List.not_mem_nil htail).1
      ((List.nil_append _).trans he)
    exact ⟨hb.symm, hr.symm⟩
  cases h with
  | lined | approached | answered | dropped | read => simp [toQueue, toReading] at hm
  | withdrew reason =>
    obtain ⟨line, ph, told, -, hf⟩ := afterRefresh_frame p (leave c v) v
      (.error (.cancelled reason)) []
    simp [hf] at hm
  | shared =>
    obtain ⟨line, ph, told, hph, hf⟩ := afterRefresh_frame p (leave c v) v c.outcome [.admitted]
    rw [hf] at hfirst ⊢
    obtain ⟨hb, hr⟩ := hfirst rfl (by simp)
    exact ⟨hb, _, rfl, .inr ⟨hph, told, hr⟩⟩
  | spared hl heq =>
    obtain ⟨line, ph, told, hph, hf⟩ := afterRefresh_frame p (leave c v) v (.ok ()) [.admitted]
    rw [hf] at hfirst ⊢
    exact ⟨(hfirst rfl (by simp)).1, _, rfl, .inl heq⟩
  | began hl heq => exact ⟨(hfirst rfl (by simp)).1, _, rfl, .inl heq⟩
  | proceeded hr => exact absurd rfl (hr.ne_of_mem_effects hm).2.1
  | @ended _ _ since stage c' outcome effects hr =>
    obtain ⟨line, ph, told, -, hf⟩ := endRefresh_frame p c' v outcome effects
    rw [hf] at hm
    simp only [List.mem_append, List.mem_cons, List.mem_map, or_false, reduceCtorEq, and_false,
      exists_false, or_self] at hm
    exact absurd rfl (hr.ne_of_mem_effects hm).2.1

end Visit

/-! ## Who has waited -/

namespace Session

open Trace

variable {purpose : Nat → Visit.Purpose}

/-- The trace says of a visit only that it has arrived, and that as many outcomes had been shared by
then as it has seen. -/
structure Awaits (tr : List Stamp) (v seen : Nat) : Prop where
  only : ∀ x ∈ tr, x.visit = v → x.effect = .arrived
  arrived : ∃ x ∈ tr, isArrival v x = true
  counted : (outcomes tr).length = seen + (outcomes (since v tr)).length

/-- What others do makes no difference to that. -/
theorem Awaits.append {tr new : List Stamp} {v seen : Nat} (h : Awaits tr v seen)
    (hnew : ∀ x ∈ new, x.visit ≠ v) : Awaits (tr ++ new) v seen := by
  refine ⟨fun x hx hv => ?_, ?_, ?_⟩
  · rcases List.mem_append.1 hx with hx | hx
    · exact h.only x hx hv
    · exact absurd hv (hnew x hx)
  · obtain ⟨x, hx, hv⟩ := h.arrived
    exact ⟨x, List.mem_append_left _ hx, hv⟩
  · rw [since_append h.arrived, outcomes_append, outcomes_append, List.length_append,
      List.length_append, h.counted, Nat.add_assoc]

theorem awaits_arrival {tr : List Stamp} {v : Nat} (h : ∀ x ∈ tr, x.visit ≠ v) (t : Nat) :
    Awaits (tr ++ [⟨v, t, .arrived⟩]) v (outcomes tr).length := by
  refine ⟨fun x hx hv => ?_, ⟨⟨v, t, .arrived⟩, by simp, by simp [isArrival]⟩, ?_⟩
  · rcases List.mem_append.1 hx with hx | hx
    · exact absurd hv (h x hx)
    · rw [List.mem_singleton.1 hx]
  · rw [since_arrival fun x hx => by simp [isArrival, h x hx], outcomes_append,
      List.length_append]
    rfl

/-- What the trace says about visits that have not been let in. -/
structure Told (s : Session) : Prop where
  arriving : ∀ v, s.phase v = .arriving → ∀ x ∈ s.trace, x.visit ≠ v
  queued : ∀ v seen, s.phase v = .queued seen → Awaits s.trace v seen

theorem told_opening (c : Cache) : Told (opening c) :=
  ⟨by simp [opening], by simp [opening]⟩

theorem Told.step {s s' : Session} {m : Move} (h : Told s) (hk : Kept s)
    (hs : s.step purpose m = some s') : Told s' := by
  rcases step_cases hs with ⟨v, status, inc, r, -, ha, rfl⟩ | ⟨span, -, rfl⟩
  · have hnew : ∀ w, w ≠ v → ∀ x ∈ r.effects.map (Stamp.mk v s.now), x.visit ≠ w := by
      rintro w hne x hx rfl
      obtain ⟨e, -, rfl⟩ := List.mem_map.1 hx
      exact hne rfl
    refine ⟨fun w hw x hx => ?_, fun w seen hw => ?_⟩
    · rcases eq_or_ne w v with rfl | hne
      · simp only [after, Function.update_self] at hw
        rcases ha.phase_cases with ⟨-, hph, -⟩ | hset | ⟨t, stage, hph⟩
        · exact absurd (hw.symm.trans hph) (by simp)
        · exact absurd hw hset.ne_arriving
        · exact absurd (hw.symm.trans hph) (by simp)
      · simp only [after, Function.update_of_ne hne] at hw
        rcases List.mem_append.1 hx with hx | hx
        · exact h.arriving w hw x hx
        · exact hnew w hne x hx
    · rcases eq_or_ne w v with rfl | hne
      · -- it is in line after the step only if it has just arrived
        simp only [after, Function.update_self] at hw ⊢
        rcases ha.phase_cases with ⟨hp, hph, heff⟩ | hset | ⟨t, stage, hph⟩
        · rw [hw, Visit.Phase.queued.injEq] at hph
          rw [hph, heff, hk.attempts_eq]
          exact awaits_arrival (h.arriving w hp) s.now
        · exact absurd hw (hset.ne_queued seen)
        · exact absurd (hw.symm.trans hph) (by simp)
      · simp only [after, Function.update_of_ne hne] at hw ⊢
        exact (h.queued w seen hw).append (hnew w hne)
  · exact ⟨h.arriving, h.queued⟩

/-- While a visit waits at most one outcome is shared.  If one was, the visit returns it at once
when it is let in, is done with refreshing, and never asks for a page. -/
def Sharing (s : Session) : Prop :=
  ∀ v t before rest, s.trace = before ++ ⟨v, t, .admitted⟩ :: rest →
    (outcomes (since v before)).length ≤ 1 ∧
    ∀ outcome, (outcomes (since v before)).getLast? = some outcome →
      rest.head? = some ⟨v, t, .returned outcome⟩ ∧ (s.phase v).Settled ∧
        ∀ x ∈ s.trace, x.visit = v → ∀ cursor, x.effect ≠ .asked cursor

theorem Kept.outcome_of_since {s : Session} (h : Kept s) {v : Nat} {outcome : Except Error Unit}
    (ho : (outcomes (since v s.trace)).getLast? = some outcome) : s.cache.outcome = outcome := by
  obtain ⟨l, hl⟩ := outcomes_since_suffix v s.trace
  rw [h.outcome_eq, ← hl, List.getLast?_append, ho]
  rfl

theorem Sharing.step {s s' : Session} {m : Move} (h : Sharing s) (hk : Kept s) (ht : Told s)
    (hs : s.step purpose m = some s') : Sharing s' := by
  rcases step_cases hs with ⟨v, status, inc, r, -, ha, rfl⟩ | ⟨span, -, rfl⟩
  · intro w t before rest hsplit
    rcases after_trace_split hsplit with ⟨rest', hold, rfl⟩ | ⟨pre, post, heff, rfl, rfl, rfl, rfl⟩
    · -- it was let in before, and is done with refreshing since
      obtain ⟨hle, hret⟩ := h w t before rest' hold
      refine ⟨hle, fun outcome ho => ?_⟩
      obtain ⟨hhead, hset, hno⟩ := hret outcome ho
      refine ⟨by rw [List.head?_append, hhead]; rfl, ?_, fun x hx hxw cursor => ?_⟩
      · rcases eq_or_ne w v with rfl | hne
        · simpa only [after, Function.update_self] using (ha.settled hset).1
        · simpa only [after, Function.update_of_ne hne] using hset
      · rcases mem_after_trace.1 hx with hx | ⟨hxv, -, hxe⟩
        · exact hno x hx hxw cursor
        · obtain rfl := hxw.symm.trans hxv
          rw [(ha.settled hset).2] at hxe
          exact absurd hxe List.not_mem_nil
    · -- it is let in now
      obtain ⟨rfl, seen, hq, hcase⟩ := ha.admitted_split heff
      rw [List.map_nil, List.append_nil]
      have haw := ht.queued w seen hq
      have hcount := haw.counted
      rw [← hk.attempts_eq] at hcount
      have hrecent := hk.orderly.recent w seen hq
      refine ⟨by omega, fun outcome ho => ?_⟩
      have hpos : 0 < (outcomes (since w s.trace)).length := by
        rw [List.length_pos_iff]
        rintro hnil
        rw [hnil] at ho
        exact absurd ho (by simp)
      rcases hcase with heq | ⟨hset, told, rfl⟩
      · omega
      · rw [← hk.outcome_of_since ho]
        refine ⟨rfl, by simpa only [after, Function.update_self] using hset,
          fun x hx hxw cursor hxe => ?_⟩
        rcases mem_after_trace.1 hx with hx | ⟨-, -, hmem⟩
        · exact absurd ((haw.only x hx hxw).symm.trans hxe) (by simp)
        · rw [heff, hxe] at hmem
          exact absurd hmem (by simp)
  · exact h

/-! ## What a cancelled refresh leaves behind -/

/-- Nobody refreshes, and those in line have seen all outcomes. -/
structure Vacant (s : Session) : Prop where
  nobody : ∀ w since stage, s.phase w ≠ .refreshing since stage
  current : ∀ w seen, s.phase w = .queued seen → seen = s.cache.attempts

/-- Until somebody is let in, this stays so. -/
theorem Vacant.after {s : Session} (h : Vacant s) {v : Nat} {status : Option CancelReason}
    {inc : Option Refresh.Incoming} {r : Visit.Step}
    (ha : Visit.Advance (purpose v) s.cache v s.now status inc (s.phase v) r)
    (hno : .admitted ∉ r.effects) : Vacant (s.after v r) := by
  have hat : r.cache.attempts = s.cache.attempts := ha.attempts_eq (h.nobody v)
  refine ⟨fun w since stage hw => ?_, fun w seen hw => ?_⟩
  · rcases eq_or_ne w v with rfl | hne
    · simp only [Session.after, Function.update_self] at hw
      rcases ha.refreshing_cases hw with ⟨_, -, hadm, -⟩ | ⟨stage₀, _, _, hph, -⟩
      · exact hno hadm
      · exact h.nobody w since stage₀ hph
    · simp only [Session.after, Function.update_of_ne hne] at hw
      exact h.nobody w since stage hw
  · rcases eq_or_ne w v with rfl | hne
    · simp only [Session.after, Function.update_self] at hw ⊢
      rcases ha.phase_cases with ⟨-, hph, -⟩ | hset | ⟨t, stage, hph⟩
      · rw [hat]
        exact Visit.Phase.queued.inj (hw.symm.trans hph)
      · exact absurd hw (hset.ne_queued seen)
      · exact absurd (hw.symm.trans hph) (by simp)
    · simp only [Session.after, Function.update_of_ne hne] at hw ⊢
      rw [hat]
      exact h.current w seen hw

/-- A refresh that ends by cancellation leaves it so. -/
theorem Kept.vacant_after {s : Session} (h : Kept s) {v : Nat} {status : Option CancelReason}
    {inc : Option Refresh.Incoming} {r : Visit.Step} {reason : CancelReason}
    (ha : Visit.Advance (purpose v) s.cache v s.now status inc (s.phase v) r)
    (hm : .ended (.error (.cancelled reason)) ∈ r.effects) : Vacant (s.after v r) := by
  obtain ⟨hat, -, hset, since, stage, hv⟩ := ha.ended_cancelled hm
  refine ⟨fun w since' stage' hw => ?_, fun w seen hw => ?_⟩
  · rcases eq_or_ne w v with rfl | hne
    · simp only [after, Function.update_self] at hw
      exact absurd hw (hset.ne_refreshing since' stage')
    · simp only [after, Function.update_of_ne hne] at hw
      exact hne (h.orderly.refreshing_unique hw hv)
  · rcases eq_or_ne w v with rfl | hne
    · simp only [after, Function.update_self] at hw
      exact absurd hw (hset.ne_queued seen)
    · simp only [after, Function.update_of_ne hne] at hw ⊢
      rw [hat]
      exact h.orderly.current v since stage hv w seen hw

/-- Since a refresh was cancelled, until the next visit is let in, nobody refreshes and those in
line have seen all outcomes. -/
def Vacated (s : Session) : Prop :=
  ∀ v t reason before rest,
    s.trace = before ++ ⟨v, t, .ended (.error (.cancelled reason))⟩ :: rest →
    (∀ x ∈ rest, x.effect ≠ .admitted) → Vacant s

theorem Vacated.step {s s' : Session} {m : Move} (h : Vacated s) (hk : Kept s)
    (hs : s.step purpose m = some s') : Vacated s' := by
  rcases step_cases hs with ⟨v, status, inc, r, -, ha, rfl⟩ | ⟨span, -, rfl⟩
  · intro w t reason before rest hsplit hno
    rcases after_trace_split hsplit with ⟨rest', hold, rfl⟩ | ⟨pre, post, heff, rfl, -, -, -⟩
    · have hvacant := h w t reason before rest' hold fun x hx => hno x (List.mem_append_left _ hx)
      refine hvacant.after ha fun hm => ?_
      exact hno ⟨v, s.now, .admitted⟩ (List.mem_append_right _ (List.mem_map_of_mem hm)) rfl
    · have hm : .ended (.error (.cancelled reason)) ∈ r.effects := by simp [heff]
      exact hk.vacant_after ha hm
  · intro w t reason before rest hsplit hno
    obtain ⟨hn, hc⟩ := h w t reason before rest hsplit hno
    exact ⟨hn, hc⟩

/-- Where nobody refreshes and those in line have seen all outcomes, the first of them refreshes
the stale cache itself. -/
theorem Vacant.begins {s : Session} (h : Vacant s) (hk : Kept s) {w : Nat}
    (hh : s.cache.refreshers.head? = some (w, .write)) (hf : s.cache.needsRefresh s.now = true)
    (inc : Option Refresh.Incoming) :
    ∃ s' stage, s.step purpose (.turn w none inc) = some s' ∧
      s'.phase w = .refreshing s.now stage := by
  have hacc := (hk.orderly.serves.mem_iff w .write).1 (List.mem_of_mem_head? hh)
  have hl : s.cache.refreshers.holds w = true := Queue.holds_iff.2 (.inl hh)
  cases hw : s.phase w with
  | queued seen =>
    obtain rfl := h.current w seen hw
    have hstep : s.step purpose (.turn w none inc) = some (s.after w
        (Visit.begin (purpose w) s.cache w s.cache.attempts s.now)) := by
      rw [Session.step, hw, Visit.step, if_pos hl]
      rfl
    refine ⟨_, (Refresh.begin s.cache w).2, hstep, ?_⟩
    simp [Session.after, Visit.begin, hf]
  | refreshing since stage => exact absurd hw (h.nobody w since stage)
  | _ => rw [hw] at hacc; exact absurd hacc (by simp [Visit.Phase.refreshAccess])

end Session

/-! ## Whose cancellation it was -/

/-- The error that an answer consists of. -/
def Visit.Answer.error? : Answer → Option Error
  | .record (.error e) | .refreshed (.error e) => some e
  | _ => none

/-- A step tells its visit of a cancellation, as the outcome of refreshing or as its answer. -/
def Visit.Step.Tells (r : Step) (reason : CancelReason) : Prop :=
  .returned (.error (.cancelled reason)) ∈ r.effects ∨
    ∃ answer, r.phase = .finished answer ∧ answer.error? = some (.cancelled reason)

/-- The context of a visit was cancelled when the visit got its turn, or once the answer to its
request had come in; or that answer itself says so. -/
def Refresh.Cancelled (status : Option CancelReason) (inc : Option Refresh.Incoming)
    (reason : CancelReason) : Prop :=
  status = some reason ∨
    ∃ i, inc = some i ∧ (i.status = some reason ∨ i.answer = .error (.cancelled reason))

/-- A refresh ends by a cancellation only when that is its own. -/
theorem Refresh.Advance.cancelled {c c' : Cache} {v since now : Nat}
    {status : Option CancelReason} {inc : Option Incoming} {stage : Stage} {reason : CancelReason}
    {effects : List Visit.Effect}
    (h : Advance c v since now status inc stage (.ended c' (.error (.cancelled reason)) effects)) :
    Cancelled status inc reason := by
  generalize ho : (Except.error (Error.cancelled reason) : Except Error Unit) = outcome at h
  cases h with
  | abandoned reason' =>
    cases ho
    exact .inl rfl
  | stopped reason' hn hs =>
    cases ho
    exact .inr ⟨_, rfl, .inl hs⟩
  | failed hn =>
    cases ho
    rcases Round.next_failed hn with ha | he | he
    · exact .inr ⟨_, rfl, .inr ha⟩
    · exact absurd he (by simp [Round.expiredInFullListing])
    · exact absurd he (by simp [Round.moreWithoutCursor])
  | @completed _ _ _ l | @installed _ l =>
    exact absurd (ho ▸ Visit.carriedThrough_commit c l now) (by simp [Visit.CarriedThrough])

namespace Visit

variable {p : Purpose} {c : Cache} {v now : Nat} {status : Option CancelReason}
  {inc : Option Refresh.Incoming} {phase : Phase} {r : Step} {reason : CancelReason}

/-- Who has done with refreshing is told of a cancellation only if it ended in one. -/
theorem afterRefresh_tells {outcome : Except Error Unit} {effects : List Effect}
    (h : (afterRefresh p c v outcome effects).Tells reason)
    (hno : .returned (.error (.cancelled reason)) ∉ effects) :
    outcome = .error (.cancelled reason) := by
  rcases afterRefresh_cases p c v outcome effects with
    ⟨id, told, rfl, -, he⟩ | ⟨id, e, rfl, rfl, -, he⟩ | ⟨-, he⟩
  all_goals rw [he] at h
  · rcases h with h | ⟨answer, h, -⟩
    · simp only [toReading, List.mem_append, hno, List.mem_cons, List.mem_map, reduceCtorEq,
        and_false, exists_false, or_false, false_or, Effect.returned.injEq] at h
      exact h.symm
    · exact absurd h (by simp [toReading])
  · rcases h with h | ⟨answer, h, ha⟩
    · simp only [List.mem_append, hno, List.mem_singleton, false_or, Effect.returned.injEq] at h
      exact h.symm
    · cases h
      rw [Option.some_inj.1 ha]
  · rcases h with h | ⟨answer, h, ha⟩
    · simp only [List.mem_append, hno, List.mem_singleton, false_or, Effect.returned.injEq] at h
      exact h.symm
    · cases h
      cases outcome with
      | ok => exact absurd ha (by simp [Answer.error?])
      | error e => rw [Option.some_inj.1 ha]

theorem lookup_ne_cancelled (c : Cache) (id : String) (reason : CancelReason) :
    c.lookup id ≠ .error (.cancelled reason) := by
  rw [Cache.lookup, Records.answer]
  split
  · split
    · simp
    · split <;> simp
  · simp

/-- A visit is told of a cancellation only when that is its own. -/
theorem Advance.tells (h : Advance p c v now status inc phase r)
    (hc : Cache.isShareable c.outcome = true) (ht : r.Tells reason) :
    Refresh.Cancelled status inc reason := by
  cases h with
  | lined | approached | began => simp [Step.Tells, toQueue, toReading] at ht
  | answered hp =>
    rcases ht with ht | ⟨answer, ht, ha⟩
    · exact absurd ht (by simp)
    · cases ht
      rcases hp with ⟨-, rfl⟩ | ⟨-, rfl⟩
      · exact absurd ha (by simp [Answer.error?, emptyId])
      · exact absurd ha (by simp [Answer.error?])
  | withdrew reason' =>
    cases afterRefresh_tells ht (by simp)
    exact .inl rfl
  | shared =>
    rw [afterRefresh_tells ht (by simp)] at hc
    exact absurd hc (by simp [Cache.isShareable])
  | spared => exact absurd (afterRefresh_tells ht (by simp)) (by simp)
  | proceeded hr =>
    rcases ht with ht | ⟨answer, ht, -⟩
    · exact absurd rfl ((hr.ne_of_mem_effects ht).2.2.2 _)
    · exact absurd ht (by simp)
  | @ended _ _ since stage c' outcome effects hr =>
    have hno : Effect.returned (.error (.cancelled reason)) ∉ effects := fun hm =>
      (hr.ne_of_mem_effects hm).2.2.2 _ rfl
    cases afterRefresh_tells ht (by simpa using hno)
    exact hr.cancelled
  | dropped reason' =>
    rcases ht with ht | ⟨answer, ht, ha⟩
    · exact absurd ht (by simp)
    · cases ht
      cases ha
      exact .inl rfl
  | read =>
    rcases ht with ht | ⟨answer, ht, ha⟩
    · exact absurd ht (by simp)
    · cases ht
      cases p with
      | lookup id =>
        cases hl : c.lookup id with
        | ok rec => exact absurd ha (by simp [Visit.read, hl, Answer.error?])
        | error e =>
          simp only [Visit.read, hl, Answer.error?, Option.some_inj] at ha
          exact absurd (ha ▸ hl) (lookup_ne_cancelled c id reason)
      | _ => exact absurd ha (by simp [Visit.read, Answer.error?])

end Visit

namespace Session

open Trace

variable {purpose : Nat → Visit.Purpose}

/-- A visit has been told of a cancellation, as the outcome of refreshing or as its answer. -/
def Received (s : Session) (v : Nat) (reason : CancelReason) : Prop :=
  (∃ t, ⟨v, t, .returned (.error (.cancelled reason))⟩ ∈ s.trace) ∨
    ∃ answer, s.phase v = .finished answer ∧ answer.error? = some (.cancelled reason)

/-- A move cancels the context of a visit. -/
def Move.cancels (v : Nat) (reason : CancelReason) : Move → Prop
  | .turn w status inc => w = v ∧ Refresh.Cancelled status inc reason
  | .pass _ => False

/-- What a visit is told of in a move is its own cancellation. -/
theorem Kept.received_step {s s' : Session} {m : Move} (hk : Kept s)
    (hs : s.step purpose m = some s') {v : Nat} {reason : CancelReason}
    (hr : Received s' v reason) : Received s v reason ∨ m.cancels v reason := by
  rcases step_cases hs with ⟨w, status, inc, r, rfl, ha, rfl⟩ | ⟨span, -, rfl⟩
  · rcases eq_or_ne v w with rfl | hne
    · have hself : r.Tells reason → Move.cancels v reason (.turn v status inc) := fun ht =>
        ⟨rfl, ha.tells hk.shareable ht⟩
      rcases hr with ⟨t, ht⟩ | ⟨answer, hph, ha'⟩
      · rcases mem_after_trace.1 ht with ht | ⟨-, -, he⟩
        · exact .inl (.inl ⟨t, ht⟩)
        · exact .inr (hself (.inl he))
      · simp only [after, Function.update_self] at hph
        exact .inr (hself (.inr ⟨answer, hph, ha'⟩))
    · rcases hr with ⟨t, ht⟩ | ⟨answer, hph, ha'⟩
      · rcases mem_after_trace.1 ht with ht | ⟨hv, -⟩
        · exact .inl (.inl ⟨t, ht⟩)
        · exact absurd hv hne
      · simp only [after, Function.update_of_ne hne] at hph
        exact .inl (.inr ⟨answer, hph, ha'⟩)
  · exact .inl hr

/-! ## Every session -/

/-- What a session keeps to about those who wait, after these moves. -/
structure Books (ms : List Move) (s : Session) : Prop where
  kept : Kept s
  told : Told s
  sharing : Sharing s
  vacated : Vacated s
  own : ∀ v reason, Received s v reason → ∃ m ∈ ms, m.cancels v reason

theorem books_of_run {container : String} {options : CacheOptions} {c : Cache} {s : Session}
    {ms : List Move} (hc : Cache.new? container options = .ok c)
    (h : (opening c).run purpose ms = some s) : Books ms s := by
  have h₀ : Books ms (opening c) := by
    refine ⟨kept_opening hc, told_opening c, ?_, ?_, ?_⟩
    · exact fun v t before rest hsplit => absurd hsplit (by simp [opening])
    · exact fun v t reason before rest hsplit => absurd hsplit (by simp [opening])
    · rintro v reason (⟨t, ht⟩ | ⟨answer, hph, -⟩)
      · exact absurd ht (by simp [opening])
      · exact absurd hph (by simp [opening])
  refine run_induction h h₀ fun m hm t t' hb hs => ?_
  refine ⟨hb.kept.step hs, hb.told.step hb.kept hs, hb.sharing.step hb.kept hb.told hs,
    hb.vacated.step hb.kept hs, fun v reason hr => ?_⟩
  rcases hb.kept.received_step hs hr with hr | hcan
  · exact hb.own v reason hr
  · exact ⟨m, hm, hcan⟩

/-- **One refresh serves all who wait.**  However the visits take their turns, whatever the answers
to their requests, whenever they are cancelled:

* at most one visit refreshes at a time;
* while a visit is in line at most one refresh ends other than by cancellation; if one does, the
  visit returns the outcome of that refresh at once when it is let in, and never asks for a page;
* counter and stored outcome are those of the refreshes that ended other than by cancellation, and
  after a cancelled one the next in line that is not cancelled refreshes a stale cache itself;
* who is told of a cancellation was itself cancelled. -/
theorem single_flight {container : String} {options : CacheOptions} {c : Cache} {s : Session}
    {ms : List Move} (hc : Cache.new? container options = .ok c)
    (h : (opening c).run purpose ms = some s) :
    (∀ v w since since' stage stage', s.phase v = .refreshing since stage →
      s.phase w = .refreshing since' stage' → v = w) ∧
    (∀ v t before rest, s.trace = before ++ ⟨v, t, .admitted⟩ :: rest →
      (outcomes (since v before)).length ≤ 1 ∧
      ∀ outcome, (outcomes (since v before)).getLast? = some outcome →
        rest.head? = some ⟨v, t, .returned outcome⟩ ∧
          ∀ x ∈ s.trace, x.visit = v → ∀ cursor, x.effect ≠ .asked cursor) ∧
    (s.cache.attempts = (outcomes s.trace).length ∧
      s.cache.outcome = (outcomes s.trace).getLast?.getD (.ok ()) ∧
      ∀ v t reason before rest,
        s.trace = before ++ ⟨v, t, .ended (.error (.cancelled reason))⟩ :: rest →
        (∀ x ∈ rest, x.effect ≠ .admitted) →
        ∀ w, s.cache.refreshers.head? = some (w, .write) → s.cache.needsRefresh s.now = true →
        ∀ inc, ∃ s' stage, s.step purpose (.turn w none inc) = some s' ∧
          s'.phase w = .refreshing s.now stage) ∧
    ∀ v reason, Received s v reason → ∃ m ∈ ms, m.cancels v reason := by
  obtain ⟨hk, -, hsh, hva, hre⟩ := books_of_run hc h
  refine ⟨fun v w since since' stage stage' hv hw => hk.orderly.refreshing_unique hv hw,
    fun v t before rest hsplit => ?_, ⟨hk.attempts_eq, hk.outcome_eq, ?_⟩, hre⟩
  · obtain ⟨hle, hret⟩ := hsh v t before rest hsplit
    refine ⟨hle, fun outcome ho => ?_⟩
    obtain ⟨hhead, -, hno⟩ := hret outcome ho
    exact ⟨hhead, hno⟩
  · intro v t reason before rest hsplit hno w hh hf inc
    exact (hva v t reason before rest hsplit hno).begins hk hh hf inc

/-- Two visits refresh at once; the first is told that the drive is gone, and so is the second,
which has asked for nothing. -/
theorem single_flight_two :
    ∃ c s before rest, Cache.new? "drive" { refreshInterval := Nanos.second } = .ok c ∧
      (opening c).run (fun _ => .refresh)
        [.turn 0 none none, .turn 1 none none, .turn 0 none none, .turn 0 none none,
          .turn 0 none (some ⟨.error (.gone "drive"), none⟩), .turn 1 none none] = some s ∧
      s.trace = before ++ ⟨1, 0, .admitted⟩ :: rest ∧
      rest.head? = some ⟨1, 0, .returned (.error (.gone "drive"))⟩ ∧
      ∀ x ∈ s.trace, x.visit = 1 → ∀ cursor, x.effect ≠ .asked cursor := by
  have hc : Cache.new? "drive" { refreshInterval := Nanos.second }
      = .ok { container := "drive", options := { refreshInterval := Nanos.second } } := rfl
  obtain ⟨s, hs, before, rest, ht, ho⟩ : ∃ s,
      (opening { container := "drive", options := { refreshInterval := Nanos.second } }).run
        (fun _ => .refresh)
        [.turn 0 none none, .turn 1 none none, .turn 0 none none, .turn 0 none none,
          .turn 0 none (some ⟨.error (.gone "drive"), none⟩), .turn 1 none none] = some s ∧
      ∃ before rest, s.trace = before ++ ⟨1, 0, .admitted⟩ :: rest ∧
        (outcomes (since 1 before)).getLast? = some (.error (.gone "drive")) :=
    ⟨_, rfl,
      [⟨0, 0, .arrived⟩, ⟨1, 0, .arrived⟩, ⟨0, 0, .admitted⟩,
        ⟨0, 0, .event (.refreshing .exclusive)⟩, ⟨0, 0, .asked none⟩,
        ⟨0, 0, .received (.error (.gone "drive"))⟩,
        ⟨0, 0, .event (.refreshFailed (.gone "drive"))⟩, ⟨0, 0, .ended (.error (.gone "drive"))⟩,
        ⟨0, 0, .returned (.error (.gone "drive"))⟩],
      [⟨1, 0, .returned (.error (.gone "drive"))⟩], rfl, rfl⟩
  obtain ⟨hhead, hno⟩ := ((single_flight hc hs).2.1 1 0 before rest ht).2 _ ho
  exact ⟨_, s, before, rest, hc, hs, ht, hhead, hno⟩

end Session

end DriveDelta
