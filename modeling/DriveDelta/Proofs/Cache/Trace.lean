import Mathlib.Data.List.TakeWhile
import DriveDelta.Proofs.Cache.Line

/-!
# What the trace of a session tells

The trace keeps everything that visits did.  This file says what can be read off it, and what one
step of a visit adds to it.  The counter and the stored outcome of the cache are functions of the
trace.

## What is here

* `Trace.outcomes`, the outcomes that are shared; `Trace.since`, the part of a trace behind the
  arrival of a visit;
* `Cache.Content`, what a cache knows of its container;
* `Refresh.Advance.mem_effects` and `Refresh.Advance.ended_cases`, what a refresh does and how it
  ends;
* `Visit.Advance.frame`, all that a step of a visit leaves alone, with what follows from it for the
  outcomes (`Visit.Advance.sharing`) and for what the cache knows (`Visit.Advance.content`);
* `Visit.Advance.orderly`, what one step does to the line of refreshers;
* `Session.after_trace_split`, where a place in the trace comes from;
* `Session.Kept`: the line is orderly, and counter and stored outcome are those of the trace;
  `Session.kept_of_run` says so of every session.
-/

set_option autoImplicit false

namespace DriveDelta

/-! ## Reading a trace -/

/-- The outcome that an effect shares with those in line. -/
def Visit.Effect.shared? : Visit.Effect → Option (Except Error Unit)
  | .ended outcome => if Cache.isShareable outcome then some outcome else none
  | _ => none

theorem Visit.Effect.shared?_eq_some {e : Visit.Effect} {outcome : Except Error Unit} :
    e.shared? = some outcome ↔ e = .ended outcome ∧ Cache.isShareable outcome = true := by
  rw [Visit.Effect.shared?.eq_def]
  split
  · rename_i o
    rw [Option.ite_none_right_eq_some, Visit.Effect.ended.injEq, Option.some_inj]
    constructor
    · rintro ⟨hs, rfl⟩
      exact ⟨rfl, hs⟩
    · rintro ⟨rfl, hs⟩
      exact ⟨hs, rfl⟩
  · rename_i hne
    simp only [reduceCtorEq, false_iff, not_and]
    rintro rfl
    exact absurd rfl (hne outcome)

namespace Trace

/-- The outcomes of refreshes that are shared, in order: all but the cancellations. -/
def outcomes (trace : List Stamp) : List (Except Error Unit) :=
  trace.filterMap (·.effect.shared?)

/-- Whether a visit begins here. -/
def isArrival (v : Nat) (x : Stamp) : Bool :=
  x.visit == v && match x.effect with
    | .arrived => true
    | _ => false

/-- What was done since a visit began. -/
def since (v : Nat) (trace : List Stamp) : List Stamp :=
  (trace.dropWhile (!isArrival v ·)).tail

theorem outcomes_append (tr tr' : List Stamp) :
    outcomes (tr ++ tr') = outcomes tr ++ outcomes tr' :=
  List.filterMap_append

theorem outcomes_stamps (v t : Nat) (effects : List Visit.Effect) :
    outcomes (effects.map (Stamp.mk v t)) = effects.filterMap (·.shared?) := by
  rw [outcomes, List.filterMap_map]
  rfl

theorem isShareable_of_mem_outcomes {tr : List Stamp} {o : Except Error Unit}
    (h : o ∈ outcomes tr) : Cache.isShareable o = true := by
  obtain ⟨x, -, hx⟩ := List.mem_filterMap.1 h
  exact (Visit.Effect.shared?_eq_some.1 hx).2

theorem since_append {v : Nat} {tr tr' : List Stamp} (h : ∃ x ∈ tr, isArrival v x = true) :
    since v (tr ++ tr') = since v tr ++ tr' := by
  have hne : tr.dropWhile (!isArrival v ·) ≠ [] := by
    obtain ⟨x, hx, hv⟩ := h
    rw [ne_eq, List.dropWhile_eq_nil_iff]
    intro hall
    simpa [hv] using hall x hx
  rw [since, List.dropWhile_append, if_neg (by simpa using hne), List.tail_append_of_ne_nil hne]
  rfl

theorem since_arrival {v t : Nat} {tr : List Stamp} (h : ∀ x ∈ tr, isArrival v x = false) :
    since v (tr ++ [⟨v, t, .arrived⟩]) = [] := by
  have hnil : tr.dropWhile (!isArrival v ·) = [] :=
    List.dropWhile_eq_nil_iff.2 fun x hx => by simp [h x hx]
  rw [since, List.dropWhile_append, hnil]
  simp [isArrival]

/-- The outcomes since a visit began are the last ones. -/
theorem outcomes_since_suffix (v : Nat) (tr : List Stamp) :
    outcomes (since v tr) <:+ outcomes tr :=
  ((List.tail_suffix _).trans (List.dropWhile_suffix _)).filterMap _

/-- A place in a longer trace is in its old part or in what was added. -/
theorem append_eq_split {tr new before rest : List Stamp} {x : Stamp}
    (h : tr ++ new = before ++ x :: rest) :
    (∃ rest', tr = before ++ x :: rest' ∧ rest = rest' ++ new) ∨
      ∃ before', before = tr ++ before' ∧ new = before' ++ x :: rest := by
  rcases List.append_eq_append_iff.1 h with ⟨before', rfl, hnew⟩ | ⟨l, rfl, hl⟩
  · exact .inr ⟨before', rfl, hnew⟩
  · cases l with
    | nil => exact .inr ⟨[], by simp, hl.symm⟩
    | cons y l =>
      obtain ⟨rfl, rfl⟩ := List.cons.inj hl
      exact .inl ⟨l, rfl, rfl⟩

end Trace

/-! ## What a cache knows -/

/-- What a cache knows of its container, apart from who is in line and how refreshes ended. -/
structure Cache.Content where
  options : CacheOptions
  records : Records
  cursor : Option String
  populated : Bool
  lastRefresh : Option Nat
  commits : Nat

def Cache.content (c : Cache) : Cache.Content :=
  { c with }

theorem Cache.content_record (c : Cache) (outcome : Except Error Unit) :
    (c.record outcome).content = c.content := by
  rw [Cache.record]
  split <;> rfl

/-! ## One step of a refresh -/

namespace Refresh

variable {c c' : Cache} {v since now : Nat} {status : Option CancelReason}
  {inc : Option Incoming} {stage stage' : Stage} {outcome : Except Error Unit}
  {effects : List Visit.Effect}

/-- A refresh asks, takes in, installs and tells; how it ends is noted by its visit. -/
theorem Advance.mem_effects {t : Turn} (h : Advance c v since now status inc stage t)
    {x : Visit.Effect} (hx : x ∈ t.effects) :
    (∃ cursor, x = .asked cursor) ∨ (∃ answer, x = .received answer) ∨
      (∃ l rs, x = .installed l rs) ∨ ∃ told, x = .event told := by
  have htaken : ∀ (a : Except Error DeltaPage) (told : List RoundEvent), x ∈ taken a told →
      (∃ answer, x = .received answer) ∨ ∃ told, x = .event told := by
    intro a told hx
    rcases List.mem_cons.1 hx with rfl | hx
    · exact .inl ⟨a, rfl⟩
    · obtain ⟨e, -, rfl⟩ := List.mem_map.1 hx
      exact .inr ⟨_, rfl⟩
  have hinst : ∀ l, x ∈ installation c since now l →
      (∃ l rs, x = .installed l rs) ∨ ∃ told, x = .event told := by
    intro l hx
    rcases List.mem_cons.1 hx with rfl | hx
    · exact .inl ⟨_, _, rfl⟩
    · simp only [List.mem_cons, List.not_mem_nil, or_false] at hx
      rcases hx with rfl | rfl <;> exact .inr ⟨_, rfl⟩
  cases h with
  | abandoned => exact absurd hx List.not_mem_nil
  | claimed => exact .inl ⟨_, List.mem_singleton.1 hx⟩
  | peeked => exact .inl ⟨_, List.mem_singleton.1 hx⟩
  | continued =>
    rcases List.mem_append.1 hx with hx | hx
    · exact .inr ((htaken _ _ hx).imp_right .inr)
    · exact .inl ⟨_, List.mem_singleton.1 hx⟩
  | stopped | failed =>
    rcases List.mem_append.1 hx with hx | hx
    · exact .inr ((htaken _ _ hx).imp_right .inr)
    · exact .inr (.inr (.inr ⟨_, List.mem_singleton.1 hx⟩))
  | completed =>
    rcases List.mem_append.1 hx with hx | hx
    · exact .inr ((htaken _ _ hx).imp_right .inr)
    · exact .inr (.inr (hinst _ hx))
  | staged => exact .inr ((htaken _ _ hx).imp_right .inr)
  | installed => exact .inr (.inr (hinst _ hx))

/-- Of its beginning and its end a refresh says nothing itself. -/
theorem Advance.ne_of_mem_effects {t : Turn} (h : Advance c v since now status inc stage t)
    {x : Visit.Effect} (hx : x ∈ t.effects) :
    x ≠ .arrived ∧ x ≠ .admitted ∧ (∀ o, x ≠ .ended o) ∧ ∀ o, x ≠ .returned o := by
  rcases h.mem_effects hx with ⟨_, rfl⟩ | ⟨_, rfl⟩ | ⟨_, _, rfl⟩ | ⟨_, rfl⟩ <;> simp

/-- Installing a listing is the end of a refresh. -/
theorem Advance.waiting_not_installed
    (h : Advance c v since now status inc stage (.waiting c' stage' effects)) (l : Listing)
    (rs : Records) : .installed l rs ∉ effects := by
  cases h <;> simp [taken]

/-- A refresh that goes on has touched nothing but the line of those who want the records. -/
theorem Advance.waiting_frame
    (h : Advance c v since now status inc stage (.waiting c' stage' effects)) :
    ∃ line, c' = { c with accessors := line } := by
  cases h with
  | claimed => exact ⟨c.accessors, rfl⟩
  | peeked => exact ⟨_, rfl⟩
  | continued => exact ⟨c.accessors, rfl⟩
  | staged => exact ⟨_, rfl⟩

/-- The listing that a refresh comes to from a stage, and what it takes in on the way. -/
inductive Yields : Stage → Option Incoming → Listing → List Visit.Effect → Prop
  | fetched {round : Round} {i : Incoming} {l : Listing} {told : List RoundEvent}
      (hn : round.next i.answer = (.complete l, told)) :
      Yields (.fetching round) (some i) l (taken i.answer told)
  | staged {inc : Option Incoming} {l : Listing} : Yields (.installing l) inc l []

theorem Yields.not_installed {l : Listing} (h : Yields stage inc l effects) :
    ∀ l' rs, .installed l' rs ∉ effects := by
  intro l' rs
  cases h <;> simp [taken]

/-- A refresh that ends has either left the cache alone and failed, or has installed a listing. -/
theorem Advance.ended_cases
    (h : Advance c v since now status inc stage (.ended c' outcome effects)) :
    (∃ e, outcome = .error e ∧ c' = c ∧ ∀ l rs, .installed l rs ∉ effects) ∨
    ∃ l before, Yields stage inc l before ∧ c' = (c.commit l now).1 ∧
      outcome = (c.commit l now).2.1 ∧ effects = before ++ installation c since now l := by
  cases h with
  | abandoned reason => exact .inl ⟨_, rfl, rfl, by simp⟩
  | stopped reason => exact .inl ⟨_, rfl, rfl, by simp [taken]⟩
  | failed => exact .inl ⟨_, rfl, rfl, by simp [taken]⟩
  | completed hn => exact .inr ⟨_, _, .fetched hn, rfl, rfl, rfl⟩
  | installed => exact .inr ⟨_, [], .staged, rfl, rfl, rfl⟩

end Refresh

/-! ## One step of a visit -/

namespace Visit

variable {p : Purpose} {c : Cache} {v now : Nat} {status : Option CancelReason}
  {inc : Option Refresh.Incoming} {phase : Phase} {r : Step}

/-- All that matters to other visits, apart from the two lines, happens when a refresh ends. -/
theorem Advance.frame (h : Advance p c v now status inc phase r) :
    (∃ since stage c' outcome effects, phase = .refreshing since stage ∧
      Refresh.Advance c v since now status inc stage (.ended c' outcome effects) ∧
      r = endRefresh p c' v outcome effects) ∨
    (∀ x ∈ r.effects, (∀ o, x ≠ .ended o) ∧ ∀ l rs, x ≠ .installed l rs) ∧
      r.cache.attempts = c.attempts ∧ r.cache.outcome = c.outcome ∧
      r.cache.content = c.content := by
  have hout : ∀ (outcome : Except Error Unit) (effects : List Effect),
      (∀ x ∈ effects, (∀ o, x ≠ .ended o) ∧ ∀ l rs, x ≠ .installed l rs) →
      (∀ x ∈ (afterRefresh p (leave c v) v outcome effects).effects,
        (∀ o, x ≠ .ended o) ∧ ∀ l rs, x ≠ .installed l rs) ∧
      (afterRefresh p (leave c v) v outcome effects).cache.attempts = c.attempts ∧
      (afterRefresh p (leave c v) v outcome effects).cache.outcome = c.outcome ∧
      (afterRefresh p (leave c v) v outcome effects).cache.content = c.content := by
    intro outcome effects hx
    obtain ⟨line, ph, told, -, he⟩ := afterRefresh_frame p (leave c v) v outcome effects
    rw [he]
    refine ⟨fun x hm => ?_, rfl, rfl, rfl⟩
    rcases List.mem_append.1 hm with hm | hm
    · exact hx x hm
    · rcases List.mem_cons.1 hm with rfl | hm
      · simp
      · obtain ⟨e, -, rfl⟩ := List.mem_map.1 hm
        simp
  cases h with
  | lined => exact .inr ⟨by simp [toQueue], rfl, rfl, rfl⟩
  | approached => exact .inr ⟨by simp [toReading], rfl, rfl, rfl⟩
  | answered => exact .inr ⟨by simp, rfl, rfl, rfl⟩
  | withdrew => exact .inr (hout _ _ (by simp))
  | shared => exact .inr (hout _ _ (by simp))
  | spared => exact .inr (hout _ _ (by simp))
  | began =>
    refine .inr ⟨by simp, ?_⟩
    cases hs : c.options.strategy <;> simp [Refresh.begin, hs, Cache.content]
  | proceeded hr =>
    refine .inr ⟨fun x hx => ⟨(hr.ne_of_mem_effects hx).2.2.1, ?_⟩, ?_⟩
    · rintro l rs rfl
      exact hr.waiting_not_installed l rs hx
    · obtain ⟨line, rfl⟩ := hr.waiting_frame
      exact ⟨rfl, rfl, rfl⟩
  | ended hr => exact .inl ⟨_, _, _, _, _, rfl, hr, rfl⟩
  | dropped => exact .inr ⟨by simp, rfl, rfl, rfl⟩
  | read => exact .inr ⟨by simp, rfl, rfl, rfl⟩

/-- The end of a refresh is noted by the visit that ran it. -/
theorem Advance.ended_of_mem (h : Advance p c v now status inc phase r)
    {outcome : Except Error Unit} (hm : .ended outcome ∈ r.effects) :
    ∃ since stage c' effects, phase = .refreshing since stage ∧
      Refresh.Advance c v since now status inc stage (.ended c' outcome effects) ∧
      r = endRefresh p c' v outcome effects := by
  rcases h.frame with ⟨since, stage, c', o, effects, hph, hr, rfl⟩ | ⟨hno, -⟩
  · obtain ⟨line, ph, told, -, he⟩ := endRefresh_frame p c' v o effects
    rw [he] at hm
    rcases List.mem_append.1 hm with hm | hm
    · exact absurd rfl ((hr.ne_of_mem_effects hm).2.2.1 outcome)
    · simp only [List.mem_cons, Effect.ended.injEq, reduceCtorEq, List.mem_map, and_false,
        exists_false, or_false] at hm
      exact ⟨since, stage, c', effects, hph, hm ▸ hr, hm ▸ rfl⟩
  · exact absurd rfl ((hno _ hm).1 outcome)

/-- The counter and the stored outcome change only when a refresh ends, and then by the outcome that
is shared. -/
theorem Advance.sharing (h : Advance p c v now status inc phase r) :
    (r.effects.filterMap (·.shared?) = [] ∧ r.cache.attempts = c.attempts ∧
      r.cache.outcome = c.outcome) ∨
    ∃ outcome, r.effects.filterMap (·.shared?) = [outcome] ∧
      r.cache.attempts = c.attempts + 1 ∧ r.cache.outcome = outcome := by
  rcases h.frame with ⟨since, stage, c', outcome, effects, -, hr, rfl⟩ | ⟨hno, hat, ho, -⟩
  · obtain ⟨line, ph, told, -, he⟩ := endRefresh_frame p c' v outcome effects
    have hc : c'.attempts = c.attempts ∧ c'.outcome = c.outcome := by
      rcases hr.ended_cases with ⟨e, -, rfl, -⟩ | ⟨l, before, -, rfl, -⟩ <;> exact ⟨rfl, rfl⟩
    have heff : (endRefresh p c' v outcome effects).effects.filterMap (·.shared?)
        = if Cache.isShareable outcome then [outcome] else [] := by
      have hrun : effects.filterMap (·.shared?) = [] := by
        rw [List.filterMap_eq_nil_iff]
        intro x hx
        rcases hr.mem_effects hx with ⟨_, rfl⟩ | ⟨_, rfl⟩ | ⟨_, _, rfl⟩ | ⟨_, rfl⟩ <;> rfl
      have htold : (told.map Effect.event).filterMap (·.shared?) = [] := by
        rw [List.filterMap_map, List.filterMap_eq_nil_iff]
        exact fun _ _ => rfl
      rw [he, List.filterMap_append, hrun, List.nil_append, List.filterMap_cons,
        List.filterMap_cons, htold]
      cases hs : Cache.isShareable outcome <;> simp [Effect.shared?, hs]
    rw [heff, he]
    cases hs : Cache.isShareable outcome with
    | true => exact .inr ⟨outcome, rfl, by simp [Cache.record, hs, leave, hc.1],
        by simp [Cache.record, hs, leave]⟩
    | false => exact .inl ⟨rfl, by simp [Cache.record, hs, leave, hc.1],
        by simp [Cache.record, hs, leave, hc.2]⟩
  · refine .inl ⟨?_, hat, ho⟩
    rw [List.filterMap_eq_nil_iff]
    intro x hx
    cases x with
    | ended o => exact absurd rfl ((hno _ hx).1 o)
    | _ => rfl

theorem content_endRefresh (p : Purpose) (c : Cache) (v : Nat) (outcome : Except Error Unit)
    (effects : List Effect) : (endRefresh p c v outcome effects).cache.content = c.content := by
  obtain ⟨line, ph, told, -, he⟩ := endRefresh_frame p c v outcome effects
  rw [he]
  exact Cache.content_record c outcome

/-- A visit comes to a stage of a refresh by beginning it, or by going on with it. -/
theorem Advance.refreshing_cases (h : Advance p c v now status inc phase r) {since : Nat}
    {stage : Refresh.Stage} (hr : r.phase = .refreshing since stage) :
    (∃ seen, phase = .queued seen ∧ .admitted ∈ r.effects ∧
      (stage = .claiming ∨ stage = .peeking)) ∨
    ∃ stage₀ c' effects, phase = .refreshing since stage₀ ∧
      Refresh.Advance c v since now status inc stage₀ (.waiting c' stage effects) := by
  cases h with
  | lined | approached | answered | dropped | read =>
    exact absurd hr (by simp [toQueue, toReading])
  | withdrew | shared | spared | ended =>
    exact absurd hr ((afterRefresh_settled _ _ _ _ _).ne_refreshing since stage)
  | began =>
    refine .inl ⟨_, rfl, List.mem_cons_self, ?_⟩
    rw [Phase.refreshing.injEq] at hr
    rw [← hr.2, Refresh.begin]
    cases c.options.strategy with
    | exclusive => exact .inl rfl
    | shadow => exact .inr rfl
  | proceeded hrun =>
    obtain ⟨rfl, rfl⟩ := Phase.refreshing.inj hr
    exact .inr ⟨_, _, _, rfl, hrun⟩

/-- What the cache knows changes only when a listing is installed. -/
theorem Advance.content (h : Advance p c v now status inc phase r) :
    ((∀ l rs, .installed l rs ∉ r.effects) ∧ r.cache.content = c.content) ∨
    ∃ since stage l before after, phase = .refreshing since stage ∧
      Refresh.Yields stage inc l before ∧ r.phase.Settled ∧
      r.cache.content = (c.commit l now).1.content ∧
      r.effects = before ++ .installed l (c.commit l now).1.records :: after ∧
      ∀ l' rs, .installed l' rs ∉ after := by
  rcases h.frame with ⟨since, stage, c', outcome, effects, hph, hr, rfl⟩ | ⟨hno, -, -, hc⟩
  · obtain ⟨line, ph, told, hset, he⟩ := endRefresh_frame p c' v outcome effects
    rw [content_endRefresh, he]
    rcases hr.ended_cases with ⟨e, rfl, rfl, hno⟩ | ⟨l, before, hy, rfl, rfl, rfl⟩
    · exact .inl ⟨by simpa using hno, rfl⟩
    · refine .inr ⟨since, stage, l, before, _, hph, hy, hset, rfl, List.append_assoc _ _ _, ?_⟩
      intro l' rs
      simp
  · exact .inl ⟨fun l rs hm => absurd rfl ((hno _ hm).2 l rs), hc⟩

/-- The line of refreshers stays orderly. -/
theorem Advance.orderly {phases : Nat → Phase} (ha : Advance p c v now status inc (phases v) r)
    (h : Orderly c.refreshers c.attempts phases) :
    Orderly r.cache.refreshers r.cache.attempts (Function.update phases v r.phase) := by
  -- having done with refreshing takes a visit out of the line
  have hout : ∀ (outcome : Except Error Unit) (effects : List Effect),
      Orderly (afterRefresh p (leave c v) v outcome effects).cache.refreshers
        (afterRefresh p (leave c v) v outcome effects).cache.attempts
        (Function.update phases v (afterRefresh p (leave c v) v outcome effects).phase) := by
    intro outcome effects
    obtain ⟨line, ph, told, hph, he⟩ := afterRefresh_frame p (leave c v) v outcome effects
    rw [he]
    exact h.leave hph.refreshAccess
  generalize hv : phases v = phase at ha
  cases ha with
  | lined => exact h.join hv
  | approached => exact h.away (by rw [hv, Phase.refreshAccess]) rfl
  | answered => exact h.away (by rw [hv, Phase.refreshAccess]) rfl
  | withdrew => exact hout _ _
  | shared => exact hout _ _
  | spared => exact hout _ _
  | began hl heq =>
    subst heq
    cases hs : c.options.strategy <;>
      simpa [Refresh.begin, hs] using h.begin hv hl now _
  | proceeded hr =>
    obtain ⟨line, rfl⟩ := hr.waiting_frame
    exact h.stay hv
  | @ended _ _ since stage c' outcome effects hr =>
    obtain ⟨line, ph, told, hph, he⟩ := endRefresh_frame p c' v outcome effects
    have hc : c'.refreshers = c.refreshers ∧ c'.attempts = c.attempts := by
      rcases hr.ended_cases with ⟨e, -, rfl, -⟩ | ⟨l, before, -, rfl, -⟩ <;> exact ⟨rfl, rfl⟩
    rw [he]
    cases hs : Cache.isShareable outcome with
    | true => simpa [Cache.record, hs, leave, hc] using h.share hv hph.refreshAccess
    | false => simpa [Cache.record, hs, leave, hc] using h.leave (v := v) hph.refreshAccess
  | dropped => exact h.leave rfl
  | read => exact h.leave rfl

end Visit

/-! ## Every session -/

namespace Session

/-- A place in the trace after a step was there before, or belongs to what the step did. -/
theorem after_trace_split {s : Session} {v w t : Nat} {r : Visit.Step} {e : Visit.Effect}
    {before rest : List Stamp} (h : (s.after v r).trace = before ++ ⟨w, t, e⟩ :: rest) :
    (∃ rest', s.trace = before ++ ⟨w, t, e⟩ :: rest' ∧
      rest = rest' ++ r.effects.map (Stamp.mk v s.now)) ∨
    ∃ pre post, r.effects = pre ++ e :: post ∧ w = v ∧ t = s.now ∧
      before = s.trace ++ pre.map (Stamp.mk v s.now) ∧ rest = post.map (Stamp.mk v s.now) := by
  rcases Trace.append_eq_split h with hold | ⟨before', rfl, hnew⟩
  · exact .inl hold
  · obtain ⟨pre, l, heff, rfl, hl⟩ := List.map_eq_append_iff.1 hnew
    obtain ⟨x, post, rfl, hx, rfl⟩ := List.map_eq_cons_iff.1 hl
    obtain ⟨rfl, rfl, rfl⟩ := Stamp.mk.inj hx
    exact .inr ⟨pre, post, heff, rfl, rfl, rfl, rfl⟩

theorem mem_after_trace {s : Session} {v : Nat} {r : Visit.Step} {x : Stamp} :
    x ∈ (s.after v r).trace ↔
      x ∈ s.trace ∨ x.visit = v ∧ x.time = s.now ∧ x.effect ∈ r.effects := by
  rw [after, List.mem_append, List.mem_map]
  refine or_congr Iff.rfl ⟨?_, ?_⟩
  · rintro ⟨e, he, rfl⟩
    exact ⟨rfl, rfl, he⟩
  · rintro ⟨rfl, ht, he⟩
    exact ⟨x.effect, he, by rw [← ht]⟩

end Session

theorem Cache.eq_of_new? {container : String} {options : CacheOptions} {c : Cache}
    (h : Cache.new? container options = .ok c) : c = { container, options } := by
  rw [Cache.new?] at h
  split at h
  · exact absurd h (by simp)
  · split at h
    · exact absurd h (by simp)
    · exact (Except.ok.inj h).symm

namespace Session

variable {purpose : Nat → Visit.Purpose}

/-- A cache that has just been made, with no visits yet. -/
def opening (c : Cache) : Session := { cache := c }

/-- The line of refreshers is orderly, and the counter and the stored outcome are those of the
trace. -/
structure Kept (s : Session) : Prop where
  orderly : Visit.Orderly s.cache.refreshers s.cache.attempts s.phase
  attempts_eq : s.cache.attempts = (Trace.outcomes s.trace).length
  outcome_eq : s.cache.outcome = (Trace.outcomes s.trace).getLast?.getD (.ok ())

theorem kept_opening {container : String} {options : CacheOptions} {c : Cache}
    (hc : Cache.new? container options = .ok c) : Kept (opening c) := by
  rw [Cache.eq_of_new? hc]
  exact ⟨Visit.orderly_start, rfl, rfl⟩

theorem Kept.step {s s' : Session} {m : Move} (h : Kept s) (hs : s.step purpose m = some s') :
    Kept s' := by
  rcases step_cases hs with ⟨v, status, inc, r, -, ha, rfl⟩ | ⟨span, -, rfl⟩
  · refine ⟨ha.orderly h.orderly, ?_, ?_⟩
    · simp only [after, Trace.outcomes_append, Trace.outcomes_stamps, List.length_append,
        ← h.attempts_eq]
      rcases ha.sharing with ⟨hn, hat, -⟩ | ⟨o, hn, hat, -⟩ <;> simp [hn, hat]
    · simp only [after, Trace.outcomes_append, Trace.outcomes_stamps]
      rcases ha.sharing with ⟨hn, -, ho⟩ | ⟨o, hn, -, ho⟩
      · rw [hn, List.append_nil, ho, h.outcome_eq]
      · rw [hn, ho, List.getLast?_append]
        rfl
  · exact ⟨h.orderly, h.attempts_eq, h.outcome_eq⟩

/-- The stored outcome is never a cancellation. -/
theorem Kept.shareable {s : Session} (h : Kept s) :
    Cache.isShareable s.cache.outcome = true := by
  rw [h.outcome_eq]
  cases ho : (Trace.outcomes s.trace).getLast? with
  | none => rfl
  | some o => exact Trace.isShareable_of_mem_outcomes (List.mem_of_getLast? ho)

/-- **Every session keeps its books.** -/
theorem kept_of_run {container : String} {options : CacheOptions} {c : Cache} {s : Session}
    {ms : List Move} (hc : Cache.new? container options = .ok c)
    (h : (opening c).run purpose ms = some s) : Kept s :=
  run_induction h (kept_opening hc) fun _ _ _ _ hk hs => hk.step hs

end Session

end DriveDelta
