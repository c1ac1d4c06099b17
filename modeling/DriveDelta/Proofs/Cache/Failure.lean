import DriveDelta.Proofs.Cache.Replay
import DriveDelta.Proofs.Cache.SingleFlight

/-!
# Refreshes that fail

A refresh may fail at any page, and may be cancelled wherever it waits.  Until it installs a listing
it has changed nothing of what the cache knows.  Nobody else has either, because whoever installs is
first in the line of refreshers, and that place is taken until the refresh has ended.  So a refresh
that fails leaves what it found, and the next one starts at the same cursor.

## What is here

* `Trace.begun`, the visits that began a refresh, and `Visit.requests`, the cursors that a visit
  has asked for pages with;
* `Session.Begins` and `Session.Fails`, the two ends of a refresh that fails;
* `Session.Holding`, what a refresh holds while it is under way, and `Session.Idle`, what stays as
  it is while nobody refreshes;
* `Session.Heading`, what the first request of a refresh will be, or was;
* `Session.failed_refresh_leaves_content`, all of it for every session.
-/

set_option autoImplicit false

namespace DriveDelta

/-! ## What visits began and asked for -/

/-- Whether an effect is the beginning of a refresh. -/
def Visit.Effect.isBeginning : Visit.Effect → Bool
  | .event (.refreshing _) => true
  | _ => false

/-- The cursor that an effect asks for a page with. -/
def Visit.Effect.request? : Visit.Effect → Option (Option String)
  | .asked cursor => some cursor
  | _ => none

/-- The cursors that a visit has asked for pages with, in order. -/
def Visit.requests (effects : List Visit.Effect) : List (Option String) :=
  effects.filterMap (·.request?)

/-- The visits that began a refresh, in order. -/
def Trace.begun (trace : List Stamp) : List Nat :=
  (trace.filter (·.effect.isBeginning)).map (·.visit)

theorem Trace.begun_append (tr tr' : List Stamp) : begun (tr ++ tr') = begun tr ++ begun tr' := by
  rw [begun, List.filter_append, List.map_append]
  rfl

theorem Visit.requests_append (effects effects' : List Visit.Effect) :
    requests (effects ++ effects') = requests effects ++ requests effects' :=
  List.filterMap_append

theorem Visit.requests_eq_nil {effects : List Visit.Effect}
    (h : ∀ cursor, .asked cursor ∉ effects) : requests effects = [] := by
  rw [requests, List.filterMap_eq_nil_iff]
  intro x hx
  cases x with
  | asked cursor => exact absurd hx (h cursor)
  | _ => rfl

/-! ## One step -/

namespace Refresh

variable {c : Cache} {v since now : Nat} {status : Option CancelReason} {inc : Option Incoming}
  {stage : Stage}

/-- In line to write or to read before the first page is asked for. -/
def Stage.IsFirst (stage : Stage) : Prop := stage = .claiming ∨ stage = .peeking

/-- Before its first page a refresh either ends without asking, or asks with the cursor of the
cache. -/
theorem Advance.first {t : Turn} (h : Advance c v since now status inc stage t)
    (hs : stage.IsFirst) :
    (∃ outcome, t = .ended c outcome []) ∨
      ∃ c' stage', t = .waiting c' stage' [.asked c.cursor] := by
  rcases hs with rfl | rfl
  · cases h with
    | abandoned => exact .inl ⟨_, rfl⟩
    | claimed => exact .inr ⟨_, _, rfl⟩
  · cases h with
    | abandoned => exact .inl ⟨_, rfl⟩
    | peeked => exact .inr ⟨_, _, rfl⟩

end Refresh

namespace Visit

variable {p : Purpose} {c : Cache} {v now : Nat} {status : Option CancelReason}
  {inc : Option Refresh.Incoming} {phase : Phase} {r : Step}

/-- A visit that has taken its first step never arrives again. -/
theorem Advance.onward (h : Advance p c v now status inc phase r) {since : Nat}
    {stage : Refresh.Stage} (hp : phase = .refreshing since stage) :
    r.phase.Settled ∨ ∃ since stage, r.phase = .refreshing since stage := by
  rcases h.phase_cases with ⟨ha, -⟩ | h
  · exact absurd (hp.symm.trans ha) (by simp)
  · exact h

/-- A visit begins to refresh by saying so, without having asked for anything. -/
theorem Advance.begins (h : Advance p c v now status inc phase r)
    (hp : ∀ since stage, phase ≠ .refreshing since stage) {since : Nat} {stage : Refresh.Stage}
    (hr : r.phase = .refreshing since stage) :
    ∃ seen, phase = .queued seen ∧ stage.IsFirst ∧ r.cache.content = c.content ∧
      requests r.effects = [] ∧ r.effects.any (·.isBeginning) = true := by
  cases h with
  | lined | approached | answered | dropped | read =>
    exact absurd hr (by simp [toQueue, toReading])
  | withdrew | shared | spared =>
    exact absurd hr ((afterRefresh_settled _ _ _ _ _).ne_refreshing since stage)
  | proceeded | ended => exact absurd rfl (hp _ _)
  | @began _ seen =>
    obtain ⟨-, rfl⟩ := Phase.refreshing.inj hr
    refine ⟨seen, rfl, ?_, ?_, rfl, rfl⟩
    · cases hs : c.options.strategy <;> simp [Refresh.begin, hs, Refresh.Stage.IsFirst]
    · cases hs : c.options.strategy <;> simp [Refresh.begin, hs, Cache.content]

/-- Who does not install anything leaves what the cache knows. -/
theorem Advance.content_eq (h : Advance p c v now status inc phase r)
    (hno : r.effects.filterMap (·.installed?) = []) : r.cache.content = c.content := by
  rcases h.content with ⟨-, hk⟩ | ⟨since, stage, l, before, rest, -, -, -, -, heff, -⟩
  · exact hk
  · rw [heff, List.filterMap_append, List.filterMap_cons] at hno
    exact absurd hno (by simp [Effect.installed?])

/-- Who does not refresh leaves what the cache knows. -/
theorem Advance.content_of_not_refreshing (h : Advance p c v now status inc phase r)
    (hp : ∀ since stage, phase ≠ .refreshing since stage) : r.cache.content = c.content := by
  rcases h.content with ⟨-, hk⟩ | ⟨since, stage, l, before, rest, hph, -⟩
  · exact hk
  · exact absurd hph (hp since stage)

/-- A refresh that goes on has changed nothing of what the cache knows. -/
theorem Advance.content_of_refreshing (h : Advance p c v now status inc phase r) {since : Nat}
    {stage : Refresh.Stage} (hr : r.phase = .refreshing since stage) :
    r.cache.content = c.content := by
  rcases h.content with ⟨-, hk⟩ | ⟨_, _, l, before, rest, -, -, hset, -⟩
  · exact hk
  · exact absurd hr (hset.ne_refreshing since stage)

/-- Before its first page a visit either has done with refreshing, having asked for nothing, or asks
with the cursor of the cache. -/
theorem Advance.first (h : Advance p c v now status inc phase r) {since : Nat}
    {stage : Refresh.Stage} (hp : phase = .refreshing since stage) (hs : stage.IsFirst) :
    (r.phase.Settled ∧ requests r.effects = []) ∨ requests r.effects = [c.cursor] := by
  subst hp
  cases h with
  | proceeded hr =>
    rcases hr.first hs with ⟨_, ht⟩ | ⟨_, _, ht⟩
    · exact absurd ht (by simp)
    · obtain ⟨-, -, rfl⟩ := Refresh.Turn.waiting.inj ht
      exact .inr rfl
  | @ended _ _ _ _ c' outcome effects hr =>
    rcases hr.first hs with ⟨_, ht⟩ | ⟨_, _, ht⟩
    · obtain ⟨-, -, rfl⟩ := Refresh.Turn.ended.inj ht
      obtain ⟨line, ph, told, hset, he⟩ := endRefresh_frame p c' v outcome []
      rw [he]
      exact .inl ⟨hset, requests_eq_nil (by simp)⟩
    · exact absurd ht (by simp)

end Visit

/-! ## From one refresh to the next -/

namespace Session

open Trace Visit

variable {purpose : Nat → Purpose} {s s' : Session} {m : Move} {v w : Nat}

/-- Visit `v` has the lock of refreshers and refreshes. -/
def Refreshes (v : Nat) (s : Session) : Prop := ∃ since stage, s.phase v = .refreshing since stage

/-- Visit `v` takes the lock of refreshers in `s`, and begins a refresh. -/
def Begins (purpose : Nat → Purpose) (v : Nat) (s s' : Session) : Prop :=
  ∃ m, s.step purpose m = some s' ∧ ¬ Refreshes v s ∧ Refreshes v s'

/-- The refresh of visit `v` ends without having installed anything. -/
def Fails (purpose : Nat → Purpose) (v : Nat) (s s' : Session) : Prop :=
  ∃ m, s.step purpose m = some s' ∧ Refreshes v s ∧ ¬ Refreshes v s' ∧
    installs s'.trace = installs s.trace

theorem phase_after_self (s : Session) (v : Nat) (r : Visit.Step) :
    (s.after v r).phase v = r.phase := Function.update_self ..

theorem phase_after_of_ne (h : w ≠ v) (s : Session) (r : Visit.Step) :
    (s.after v r).phase w = s.phase w := Function.update_of_ne h ..

theorem requests_after_self (s : Session) (v : Nat) (r : Visit.Step) :
    requests (deeds v (s.after v r).trace)
      = requests (deeds v s.trace) ++ requests r.effects := by
  rw [deeds_after, requests_append]

theorem begun_after (s : Session) (v : Nat) (r : Visit.Step) :
    begun (s.after v r).trace = begun s.trace ++ begun (r.effects.map (Stamp.mk v s.now)) :=
  begun_append ..

/-- What the cache knows is what it was, and visit `v` still refreshes, or has done with it. -/
def Holding (v : Nat) (k : Cache.Content) (s : Session) : Prop :=
  Refreshes v s ∧ s.cache.content = k ∨ (s.phase v).Settled

/-- While a visit refreshes nobody changes what the cache knows. -/
theorem Holding.step {k : Cache.Content} (h : Holding v k s) (hk : Kept s)
    (hs : s.step purpose m = some s') : Holding v k s' := by
  rcases step_cases hs with ⟨u, status, inc, r, -, ha, rfl⟩ | ⟨span, -, rfl⟩
  · rcases h with ⟨⟨since, stage, hv⟩, hc⟩ | hset
    · rcases eq_or_ne u v with rfl | hne
      · rw [Holding, phase_after_self]
        rcases ha.onward hv with hset | ⟨since', stage', hr⟩
        · exact .inr hset
        · refine .inl ⟨⟨since', stage', by rw [phase_after_self, hr]⟩, ?_⟩
          exact (ha.content_of_refreshing hr).trans hc
      · refine .inl ⟨⟨since, stage, by rw [phase_after_of_ne hne.symm, hv]⟩, ?_⟩
        exact (ha.content_of_not_refreshing fun _ _ hu =>
          hne (hk.orderly.refreshing_unique hu hv)).trans hc
    · refine .inr ?_
      rcases eq_or_ne u v with rfl | hne
      · rw [phase_after_self]
        exact (ha.settled hset).1
      · rwa [phase_after_of_ne hne.symm]
  · exact h

/-- A visit that begins a refresh finds nobody refreshing, has asked for nothing, and leaves what
the cache knows. -/
theorem Begins.spec (h : Begins purpose v s s') (ht : Told s) :
    s'.cache.content = s.cache.content ∧ requests (deeds v s'.trace) = [] ∧
      ∃ since stage, s'.phase v = .refreshing since stage ∧ stage.IsFirst := by
  obtain ⟨m, hs, hno, since, stage, hv⟩ := h
  have hne : ∀ since stage, s.phase v ≠ .refreshing since stage :=
    fun since stage hp => hno ⟨since, stage, hp⟩
  rcases step_cases hs with ⟨u, status, inc, r, -, ha, rfl⟩ | ⟨span, -, rfl⟩
  · rcases eq_or_ne v u with rfl | huv
    · rw [phase_after_self] at hv
      obtain ⟨seen, hq, hfirst, hc, hreq, -⟩ := ha.begins hne hv
      refine ⟨hc, ?_, since, stage, by rw [phase_after_self, hv], hfirst⟩
      rw [requests_after_self, hreq, List.append_nil]
      refine requests_eq_nil fun cursor hm => ?_
      obtain ⟨x, hx, hxe⟩ := List.mem_map.1 hm
      obtain ⟨hx, hxv⟩ := List.mem_filter.1 hx
      exact absurd (((ht.queued v seen hq).only x hx (by simpa using hxv)).symm.trans hxe) (by simp)
    · rw [phase_after_of_ne huv] at hv
      exact absurd hv (hne since stage)
  · exact absurd hv (hne since stage)

/-- A refresh that fails leaves what the cache knows, and nobody who refreshes. -/
theorem Fails.spec (h : Fails purpose v s s') (hk : Kept s) :
    s'.cache.content = s.cache.content ∧ ∀ w, ¬ Refreshes w s' := by
  obtain ⟨m, hs, ⟨since, stage, hv⟩, hno, hi⟩ := h
  rcases step_cases hs with ⟨u, status, inc, r, -, ha, rfl⟩ | ⟨span, -, rfl⟩
  · have heff : r.effects.filterMap (·.installed?) = [] := by
      rwa [after, installs_append, installs_stamps, List.append_right_eq_self] at hi
    refine ⟨ha.content_eq heff, ?_⟩
    rintro w ⟨since', stage', hw⟩
    rcases eq_or_ne w u with rfl | hne
    · rcases eq_or_ne v w with rfl | hvw
      · exact hno ⟨since', stage', hw⟩
      · exact hno ⟨since, stage, by rw [phase_after_of_ne hvw, hv]⟩
    · rw [phase_after_of_ne hne] at hw
      obtain rfl := hk.orderly.refreshing_unique hv hw
      exact hno ⟨since, stage, by rw [phase_after_of_ne hne, hv]⟩
  · exact absurd ⟨since, stage, hv⟩ hno

/-- Since the visits `b` had begun to refresh, nobody else has, unless somebody has begun
meanwhile; and what the cache knows is what it was. -/
def Idle (b : List Nat) (k : Cache.Content) (s : Session) : Prop :=
  ∃ later, begun s.trace = b ++ later ∧
    (later = [] → (∀ w, ¬ Refreshes w s) ∧ s.cache.content = k)

theorem Idle.step {b : List Nat} {k : Cache.Content} (h : Idle b k s)
    (hs : s.step purpose m = some s') : Idle b k s' := by
  obtain ⟨later, hb, hi⟩ := h
  rcases step_cases hs with ⟨u, status, inc, r, -, ha, rfl⟩ | ⟨span, -, rfl⟩
  · refine ⟨later ++ begun (r.effects.map (Stamp.mk u s.now)), ?_, fun hnil => ?_⟩
    · rw [begun_after, hb, List.append_assoc]
    · obtain ⟨rfl, hnew⟩ := List.append_eq_nil_iff.1 hnil
      obtain ⟨hno, hc⟩ := hi rfl
      have hne : ∀ since stage, s.phase u ≠ .refreshing since stage :=
        fun since stage hp => hno u ⟨since, stage, hp⟩
      refine ⟨?_, (ha.content_of_not_refreshing hne).trans hc⟩
      rintro w ⟨since, stage, hw⟩
      rcases eq_or_ne w u with rfl | hwu
      · rw [phase_after_self] at hw
        obtain ⟨-, -, -, -, -, hany⟩ := ha.begins hne hw
        obtain ⟨e, he, hbe⟩ := List.any_eq_true.1 hany
        rw [begun, List.map_eq_nil_iff, List.filter_eq_nil_iff] at hnew
        exact hnew ⟨w, s.now, e⟩ (List.mem_map_of_mem he) hbe
      · rw [phase_after_of_ne hwu] at hw
        exact hno w ⟨since, stage, hw⟩
  · exact ⟨later, hb, hi⟩

/-- Visit `v` is about to ask for its first page, and will do so with this cursor; or it has asked
with it, or has done with refreshing and asked for nothing. -/
def Heading (v : Nat) (cursor : Option String) (s : Session) : Prop :=
  (requests (deeds v s.trace) = [] ∧ s.cache.cursor = cursor ∧
    ∃ since stage, s.phase v = .refreshing since stage ∧ stage.IsFirst) ∨
  (requests (deeds v s.trace)).head? = some cursor ∨
  requests (deeds v s.trace) = [] ∧ (s.phase v).Settled

theorem Heading.step {cursor : Option String} (h : Heading v cursor s) (hk : Kept s)
    (hs : s.step purpose m = some s') : Heading v cursor s' := by
  rcases step_cases hs with ⟨u, status, inc, r, -, ha, rfl⟩ | ⟨span, -, rfl⟩
  · rcases eq_or_ne v u with rfl | hne
    · rw [Heading, requests_after_self, phase_after_self]
      rcases h with ⟨hnil, hc, since, stage, hv, hfirst⟩ | hhead | ⟨hnil, hset⟩
      · rw [hnil, List.nil_append]
        rcases ha.first hv hfirst with ⟨hset, hreq⟩ | hreq
        · exact .inr (.inr ⟨hreq, hset⟩)
        · exact .inr (.inl (by rw [hreq, hc]; rfl))
      · refine .inr (.inl ?_)
        rw [List.head?_append, hhead]
        rfl
      · obtain ⟨hset', heff⟩ := ha.settled hset
        exact .inr (.inr ⟨by rw [hnil, heff]; rfl, hset'⟩)
    · rw [Heading, deeds_after_of_ne hne, phase_after_of_ne hne]
      refine h.imp_left ?_
      rintro ⟨hnil, hc, since, stage, hv, hfirst⟩
      have hcontent := ha.content_of_not_refreshing fun _ _ hu =>
        hne (hk.orderly.refreshing_unique hv hu)
      exact ⟨hnil, (congrArg Cache.Content.cursor hcontent).trans hc, since, stage, hv, hfirst⟩
  · exact h

/-- The first page that visit `v` asks for is asked for with this cursor, and a visit that refreshes
and has asked for nothing yet does so as soon as it gets its turn with the lock on the records. -/
def AsksFirst (purpose : Nat → Purpose) (v : Nat) (cursor : Option String) (s : Session) : Prop :=
  (∀ c, (requests (deeds v s.trace)).head? = some c → c = cursor) ∧
  (requests (deeds v s.trace) = [] → Refreshes v s → s.cache.accessors.holds v = true →
    ∀ inc, ∃ s', s.step purpose (.turn v none inc) = some s' ∧
      requests (deeds v s'.trace) = [cursor])

theorem Heading.asksFirst {cursor : Option String} (h : Heading v cursor s) :
    AsksFirst purpose v cursor s := by
  refine ⟨fun c hc => ?_, fun hnil ⟨since, stage, hv⟩ hl inc => ?_⟩
  · rcases h with ⟨hnil, -⟩ | hhead | ⟨hnil, -⟩
    · simp [hnil] at hc
    · exact Option.some_inj.1 (hc.symm.trans hhead)
    · simp [hnil] at hc
  · rcases h with ⟨-, rfl, since', stage', hv', hfirst⟩ | hhead | ⟨-, hset⟩
    · obtain ⟨r, hr⟩ : ∃ r, Visit.step (purpose v) s.cache v s.now none inc (s.phase v) = some r ∧
          r.effects = [.asked s.cache.cursor] := by
        rw [hv', Visit.step]
        rcases hfirst with rfl | rfl <;> rw [Refresh.step, Refresh.whenHeld, if_pos hl] <;>
          exact ⟨_, rfl, rfl⟩
      refine ⟨s.after v r, by rw [Session.step, hr.1]; rfl, ?_⟩
      rw [requests_after_self, hnil, hr.2]
      rfl
    · simp [hnil] at hhead
    · exact absurd hv (hset.ne_refreshing since stage)

/-- What is kept by every move, given that the session keeps its books, holds after all of them. -/
theorem kept_run {P : Session → Prop} {ms : List Move} (hk : Kept s) (ht : Told s) (hp : P s)
    (h : s.run purpose ms = some s')
    (hstep : ∀ (m : Move) (t t' : Session), Kept t → P t → t.step purpose m = some t' → P t') :
    Kept s' ∧ Told s' ∧ P s' :=
  run_induction (P := fun t => Kept t ∧ Told t ∧ P t) h ⟨hk, ht, hp⟩
    fun m _ t t' h hs => ⟨h.1.step hs, h.2.1.step h.1 hs, hstep m t t' h.1 h.2.2 hs⟩

/-- **A refresh that fails leaves what the cache knows.**  However the visits take their turns,
whatever the answers to their requests, whenever contexts are done:

* from the moment in which a visit takes the lock of refreshers, and as long as it refreshes, the
  records, the cursor, whether there are any records, the time of the last refresh that went through
  and the number of those are what they were in that moment;
* if the refresh ends without having installed anything, they still are;
* and the next visit that begins a refresh, whenever it does, asks for its first page with that
  cursor. -/
theorem failed_refresh_leaves_content {container : String} {options : CacheOptions} {c : Cache}
    {s₀ s₁ : Session} {ms₀ : List Move} {v : Nat}
    (hc : Cache.new? container options = .ok c)
    (h₀ : (opening c).run purpose ms₀ = some s₀) (hb : Begins purpose v s₀ s₁) :
    ∀ ms₁ s₂, s₁.run purpose ms₁ = some s₂ → Refreshes v s₂ →
      s₂.cache.content = s₀.cache.content ∧
      ∀ s₃, Fails purpose v s₂ s₃ →
        s₃.cache.content = s₀.cache.content ∧
        ∀ ms₃ s₄ w s₅, s₃.run purpose ms₃ = some s₄ → begun s₄.trace = begun s₃.trace →
          Begins purpose w s₄ s₅ →
          ∀ ms₅ s₆, s₅.run purpose ms₅ = some s₆ → AsksFirst purpose w s₀.cache.cursor s₆ := by
  obtain ⟨hk₀, ht₀, -⟩ := books_of_run hc h₀
  intro ms₁ s₂ h₁ hv₂
  have hspec := hb.spec ht₀
  obtain ⟨m, hs₀, -, hv₁⟩ := hb
  obtain ⟨hk₂, ht₂, hh⟩ := kept_run (P := Holding v s₀.cache.content) (hk₀.step hs₀)
    (ht₀.step hk₀ hs₀) (.inl ⟨hv₁, hspec.1⟩) h₁ fun _ _ _ hk hp hs => hp.step hk hs
  have hc₂ : s₂.cache.content = s₀.cache.content := by
    obtain ⟨since, stage, hv⟩ := hv₂
    rcases hh with ⟨-, hc⟩ | hset
    · exact hc
    · exact absurd hv (hset.ne_refreshing since stage)
  refine ⟨hc₂, fun s₃ hf => ?_⟩
  obtain ⟨hc₃, hnobody⟩ := hf.spec hk₂
  obtain ⟨m', hs₂, -⟩ := hf
  refine ⟨hc₃.trans hc₂, fun ms₃ s₄ w s₅ h₃ hbegun hb' ms₅ s₆ h₅ => ?_⟩
  obtain ⟨hk₄, ht₄, later, hlater, hidle⟩ :=
    kept_run (P := Idle (begun s₃.trace) s₃.cache.content) (hk₂.step hs₂) (ht₂.step hk₂ hs₂)
      ⟨[], by simp, fun _ => ⟨hnobody, rfl⟩⟩ h₃ fun _ _ _ _ hp hs => hp.step hs
  have hc₄ := (hidle (List.append_right_eq_self.1 (hlater.symm.trans hbegun))).2
  obtain ⟨hc₅, hnil, hfirst⟩ := hb'.spec ht₄
  obtain ⟨m'', hs₄, -⟩ := hb'
  have hcursor : s₅.cache.cursor = s₀.cache.cursor :=
    congrArg Cache.Content.cursor (((hc₅.trans hc₄).trans hc₃).trans hc₂)
  obtain ⟨-, -, hhead⟩ := kept_run (P := Heading w s₀.cache.cursor) (hk₄.step hs₄)
    (ht₄.step hk₄ hs₄) (.inl ⟨hnil, hcursor, hfirst⟩) h₅ fun _ _ _ hk hp hs => hp.step hk hs
  exact hhead.asksFirst

/-- The first refresh leaves a cursor.  The second fetches a page, starts over when its cursor is
rejected, fetches another page and fails; the third asks with the cursor that the first has left. -/
theorem failed_refresh_leaves_content_restarted :
    ∃ c s₀ s₁ s₂ s₃ s₄ s₅ s₆,
      Cache.new? "drive" { refreshInterval := Nanos.second, strategy := .shadow } = .ok c ∧
      (opening c).run (fun _ => .refresh)
        [.turn 0 none none, .turn 0 none none, .turn 0 none none,
          .turn 0 none (some ⟨.ok { items := [.file "a" "u"], cursor := some "d" }, none⟩),
          .turn 0 none none, .pass (2 * Nanos.second), .turn 1 none none] = some s₀ ∧
      Begins (fun _ => .refresh) 1 s₀ s₁ ∧
      s₁.run (fun _ => .refresh)
        [.turn 1 none none,
          .turn 1 none (some
            ⟨.ok { items := [.tombstone "a"], cursor := some "p", hasMore := true }, none⟩),
          .turn 1 none (some ⟨.error .cursorExpired, none⟩),
          .turn 1 none (some
            ⟨.ok { items := [.file "b" "v"], cursor := some "q", hasMore := true }, none⟩)]
        = some s₂ ∧
      Refreshes 1 s₂ ∧ Fails (fun _ => .refresh) 1 s₂ s₃ ∧
      s₃.run (fun _ => .refresh) [.turn 2 none none] = some s₄ ∧
      begun s₄.trace = begun s₃.trace ∧ Begins (fun _ => .refresh) 2 s₄ s₅ ∧
      s₅.run (fun _ => .refresh) [.turn 2 none none] = some s₆ ∧
      s₃.cache.content = s₀.cache.content ∧ s₀.cache.cursor = some "d" ∧
      (requests (deeds 2 s₆.trace)).head? = some s₀.cache.cursor := by
  have hc : Cache.new? "drive" { refreshInterval := Nanos.second, strategy := .shadow } = .ok
      { container := "drive",
        options := { refreshInterval := Nanos.second, strategy := .shadow } } := rfl
  obtain ⟨s₀, h₀, hp₀, hcursor, s₁, hs₁, hp₁, s₂, h₂, hp₂, s₃, hs₃, hp₃, hi, s₄, h₄, hp₄, hbegun,
      s₅, hs₅, hp₅, s₆, h₆, hreq⟩ :
      ∃ s₀, (opening
          { container := "drive",
            options := { refreshInterval := Nanos.second, strategy := .shadow } }).run
          (fun _ => .refresh)
          [.turn 0 none none, .turn 0 none none, .turn 0 none none,
            .turn 0 none (some ⟨.ok { items := [.file "a" "u"], cursor := some "d" }, none⟩),
            .turn 0 none none, .pass (2 * Nanos.second), .turn 1 none none] = some s₀ ∧
        s₀.phase 1 = .queued 1 ∧ s₀.cache.cursor = some "d" ∧
      ∃ s₁, s₀.step (fun _ => .refresh) (.turn 1 none none) = some s₁ ∧
        s₁.phase 1 = .refreshing (2 * Nanos.second) .peeking ∧
      ∃ s₂, s₁.run (fun _ => .refresh)
          [.turn 1 none none,
            .turn 1 none (some
              ⟨.ok { items := [.tombstone "a"], cursor := some "p", hasMore := true }, none⟩),
            .turn 1 none (some ⟨.error .cursorExpired, none⟩),
            .turn 1 none (some
              ⟨.ok { items := [.file "b" "v"], cursor := some "q", hasMore := true }, none⟩)]
          = some s₂ ∧
        s₂.phase 1 = .refreshing (2 * Nanos.second)
          (.fetching ⟨some "q", true, [.file "b" "v"], 1⟩) ∧
      ∃ s₃, s₂.step (fun _ => .refresh) (.turn 1 none (some ⟨.error (.gone "drive"), none⟩))
          = some s₃ ∧
        s₃.phase 1 = .finished (.refreshed (.error (.gone "drive"))) ∧
        installs s₃.trace = installs s₂.trace ∧
      ∃ s₄, s₃.run (fun _ => .refresh) [.turn 2 none none] = some s₄ ∧ s₄.phase 2 = .queued 2 ∧
        begun s₄.trace = begun s₃.trace ∧
      ∃ s₅, s₄.step (fun _ => .refresh) (.turn 2 none none) = some s₅ ∧
        s₅.phase 2 = .refreshing (2 * Nanos.second) .peeking ∧
      ∃ s₆, s₅.run (fun _ => .refresh) [.turn 2 none none] = some s₆ ∧
        requests (deeds 2 s₆.trace) = [some "d"] :=
    ⟨_, rfl, rfl, rfl, _, rfl, rfl, _, rfl, rfl, _, rfl, rfl, rfl, _, rfl, rfl, rfl, _, rfl, rfl,
      _, rfl, rfl⟩
  have hb : Begins (fun _ => .refresh) 1 s₀ s₁ :=
    ⟨_, hs₁, fun ⟨_, _, h⟩ => absurd (hp₀.symm.trans h) (by simp), _, _, hp₁⟩
  have hf : Fails (fun _ => .refresh) 1 s₂ s₃ :=
    ⟨_, hs₃, ⟨_, _, hp₂⟩, fun ⟨_, _, h⟩ => absurd (hp₃.symm.trans h) (by simp), hi⟩
  have hb' : Begins (fun _ => .refresh) 2 s₄ s₅ :=
    ⟨_, hs₅, fun ⟨_, _, h⟩ => absurd (hp₄.symm.trans h) (by simp), _, _, hp₅⟩
  obtain ⟨-, hnext⟩ := failed_refresh_leaves_content hc h₀ hb _ s₂ h₂ ⟨_, _, hp₂⟩
  obtain ⟨hcontent, hfirst⟩ := hnext s₃ hf
  have hhead := (hfirst _ s₄ 2 s₅ h₄ hbegun hb' _ s₆ h₆).1 (some "d") (by rw [hreq]; rfl)
  exact ⟨_, s₀, s₁, s₂, s₃, s₄, s₅, s₆, hc, h₀, hb, h₂, ⟨_, _, hp₂⟩, hf, h₄, hbegun, hb', h₆,
    hcontent, hcursor, by rw [hreq, ← hhead]; rfl⟩

end Session

end DriveDelta
