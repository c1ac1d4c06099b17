import DriveDelta.Proofs.Cache.Access
import DriveDelta.Proofs.Cache.Failure
import DriveDelta.Proofs.Cache.Staleness

/-!
# What it means that a refresh went through

A lookup goes on to read when the refresh that it relied on went through, if perhaps past malformed
items.  Such a refresh has installed what it fetched, with one exception: a source of pages may
itself answer with the error that reports malformed items.  Then the refresh ends with that error,
having installed nothing, and all who relied on it read what was there before.

Either way those who relied on a refresh read exactly what it left.  A lookup that takes over an
outcome does so before anybody else can begin a refresh, and once it is in line to read it has the
records, so nobody installs anything before it has read.

## What is here

* `Visit.answers`, the answers that a visit has taken in, and `Visit.ClosedBy`, which says that the
  last of them was a page with nothing to follow;
* `Session.Ends`, the end of a refresh, and `Session.Commits`, what a refresh that installed a
  listing leaves;
* `Session.Relying`, what becomes of a lookup that relies on a refresh;
* `Session.success_installs_or_reports`, for every session;
* `Session.success_without_records`, a lookup that goes on after a refresh which installed nothing.
-/

set_option autoImplicit false

namespace DriveDelta

/-! ## The answers to requests -/

/-- The answer that an effect takes in. -/
def Visit.Effect.answer? : Visit.Effect → Option (Except Error DeltaPage)
  | .received answer => some answer
  | _ => none

namespace Visit

/-- The answers that a visit has taken in, in order. -/
def answers (effects : List Effect) : List (Except Error DeltaPage) :=
  effects.filterMap (·.answer?)

theorem answers_append (effects effects' : List Effect) :
    answers (effects ++ effects') = answers effects ++ answers effects' :=
  List.filterMap_append

theorem answers_event (told : List Event) : answers (told.map .event) = [] := by
  rw [answers, List.filterMap_map, List.filterMap_eq_nil_iff]
  exact fun _ _ => rfl

theorem answers_taken (answer : Except Error DeltaPage) (told : List RoundEvent) :
    answers (Refresh.taken answer told) = [answer] := by
  have htold : (told.map fun e => Effect.event (.round e)) = (told.map Event.round).map .event := by
    rw [List.map_map]
    rfl
  rw [Refresh.taken, htold]
  exact congrArg (answer :: ·) (answers_event _)

/-- The last answer was a page with nothing to follow, and this was its cursor. -/
def ClosedBy (cursor : Option String) (effects : List Effect) : Prop :=
  ∃ page, (answers effects).getLast? = some (.ok page) ∧ page.hasMore = false ∧
    cursor = page.cursor

end Visit

namespace Refresh

variable {c c' : Cache} {v since now : Nat} {status : Option CancelReason}
  {inc : Option Incoming} {stage : Stage} {effects deeds : List Visit.Effect} {l : Listing}

/-- The listing that a refresh comes to was closed by its last answer. -/
theorem Yields.closedBy (h : Yields stage inc l effects)
    (hd : ∀ l, stage = .installing l → Visit.ClosedBy l.cursor deeds) :
    Visit.ClosedBy l.cursor (deeds ++ effects) := by
  cases h with
  | fetched hn =>
    obtain ⟨page, ha, hm, rfl⟩ := Round.next_complete hn
    refine ⟨page, ?_, hm, rfl⟩
    rw [Visit.answers_append, Visit.answers_taken, ha, List.getLast?_concat]
  | staged => simpa using hd l rfl

/-- A refresh gets in line to install what its last answer has closed. -/
theorem Advance.closedBy
    (h : Advance c v since now status inc stage (.waiting c' (.installing l) effects)) :
    Visit.ClosedBy l.cursor (deeds ++ effects) := by
  cases h with
  | staged hn => exact (Yields.fetched hn).closedBy (by simp)

/-- A refresh that went through has installed a listing, unless its last answer was the report that
it ends with. -/
theorem Advance.success {o : Except Error Unit}
    (h : Advance c v since now status inc stage (.ended c' o effects))
    (ho : Visit.CarriedThrough o) :
    (∃ l before, Yields stage inc l before ∧ c' = (c.commit l now).1 ∧
      effects = before ++ installation c since now l) ∨
    c' = c ∧ ∃ es, o = .error (.incomplete es) ∧
      Visit.answers effects = [.error (.incomplete es)] := by
  cases h with
  | abandoned | stopped => exact absurd ho (by simp [Visit.CarriedThrough])
  | failed hn =>
    obtain ⟨es, rfl⟩ : ∃ es, _ = Error.incomplete es := by simpa [Visit.CarriedThrough] using ho
    rcases Round.next_failed hn with ha | he | he
    · refine .inr ⟨rfl, es, rfl, ?_⟩
      rw [Visit.answers_append, Visit.answers_taken, ha]
      rfl
    · exact absurd he (by simp [Round.expiredInFullListing])
    · exact absurd he (by simp [Round.moreWithoutCursor])
  | completed hn => exact .inl ⟨_, _, .fetched hn, rfl, rfl⟩
  | installed => exact .inl ⟨_, [], .staged, rfl, rfl⟩

end Refresh

namespace Visit

variable {p : Purpose} {c : Cache} {v now : Nat} {status : Option CancelReason}
  {inc : Option Refresh.Incoming} {phase : Phase} {r : Step}

theorem answers_installation (c : Cache) (since now : Nat) (l : Listing) :
    answers (Refresh.installation c since now l) = [] := rfl

/-- By ending a refresh a visit takes in no answer. -/
theorem answers_endRefresh (p : Purpose) (c : Cache) (v : Nat) (o : Except Error Unit)
    (effects : List Effect) : answers (endRefresh p c v o effects).effects = answers effects := by
  obtain ⟨line, ph, told, -, he⟩ := endRefresh_frame p c v o effects
  have htold : answers (.ended o :: .returned o :: told.map .event) = [] := answers_event told
  rw [he, answers_append, htold, List.append_nil]

/-- A visit gets in line to install what its last answer has closed. -/
theorem Advance.closedBy (h : Advance p c v now status inc phase r) {since : Nat} {l : Listing}
    (hr : r.phase = .refreshing since (.installing l)) (deeds : List Effect) :
    ClosedBy l.cursor (deeds ++ r.effects) := by
  cases h with
  | proceeded hrun =>
    obtain ⟨-, rfl⟩ := Phase.refreshing.inj hr
    exact hrun.closedBy
  | lined | approached | answered | dropped | read =>
    exact absurd hr (by simp [toQueue, toReading])
  | withdrew | shared | spared | ended =>
    exact absurd hr ((afterRefresh_settled _ _ _ _ _).ne_refreshing _ _)
  | began =>
    rw [Phase.refreshing.injEq, Refresh.begin] at hr
    cases hst : c.options.strategy <;> simp [hst] at hr

theorem CarriedThrough.isShareable {o : Except Error Unit} (h : CarriedThrough o) :
    Cache.isShareable o = true := by
  rcases h with rfl | ⟨es, rfl⟩ <;> rfl

/-- A lookup that has waited while a refresh went through goes on to read, unless it is
cancelled. -/
theorem Advance.takes_over {id : String} {seen : Nat}
    (h : Advance (.lookup id) c v now status inc (.queued seen) r) (hne : c.attempts ≠ seen)
    (ho : CarriedThrough c.outcome) :
    (∃ reason, status = some reason ∧ r.phase = .finished (.record (.error (.cancelled reason)))) ∨
      r.phase = .reading ∧ r.cache.content = c.content := by
  cases h with
  | withdrew reason => exact .inl ⟨reason, rfl, rfl⟩
  | shared =>
    rcases afterRefresh_cases (.lookup id) (leave c v) v c.outcome [.admitted] with
      ⟨_, told, -, -, he⟩ | ⟨_, e, -, -, hno, -⟩ | ⟨hno, -⟩
    · rw [he]
      exact .inr ⟨rfl, rfl⟩
    · exact absurd ho hno
    · exact absurd rfl (hno id)
  | spared hl heq | began hl heq => exact absurd heq hne

/-- A lookup in line to read reads, unless it is cancelled. -/
theorem Advance.of_reading {id : String}
    (h : Advance (.lookup id) c v now status inc .reading r) :
    (∃ reason, status = some reason ∧ r.phase = .finished (.record (.error (.cancelled reason)))) ∨
      r.phase = .finished (.record (c.lookup id)) := by
  cases h with
  | dropped reason => exact .inl ⟨reason, rfl, rfl⟩
  | read => exact .inr rfl

end Visit

/-! ## The end of a refresh -/

namespace Session

open Trace Visit

variable {purpose : Nat → Purpose} {s s' : Session} {m : Move} {v u : Nat}
  {o : Except Error Unit}

/-- The refresh of visit `v` ends with this outcome. -/
def Ends (purpose : Nat → Purpose) (v : Nat) (o : Except Error Unit) (s s' : Session) : Prop :=
  ∃ m new, s.step purpose m = some s' ∧ s'.trace = s.trace ++ new ∧ ⟨v, s.now, .ended o⟩ ∈ new

theorem Ends.advance (h : Ends purpose v o s s') :
    ∃ status inc since stage c' effects, s.phase v = .refreshing since stage ∧
      Refresh.Advance s.cache v since s.now status inc stage (.ended c' o effects) ∧
      s' = s.after v (endRefresh (purpose v) c' v o effects) := by
  obtain ⟨m, new, hs, htr, hm⟩ := h
  rcases step_cases hs with ⟨w, status, inc, r, -, ha, rfl⟩ | ⟨span, -, rfl⟩
  · obtain rfl : new = r.effects.map (Stamp.mk w s.now) := (List.append_cancel_left htr).symm
    obtain ⟨e, he, heq⟩ := List.mem_map.1 hm
    obtain ⟨rfl, -, rfl⟩ := Stamp.mk.inj heq
    obtain ⟨since, stage, c', effects, hv, hr, rfl⟩ := ha.ended_of_mem he
    exact ⟨status, inc, since, stage, c', effects, hv, hr, rfl⟩
  · obtain rfl : new = [] := by simpa using htr.symm
    exact absurd hm List.not_mem_nil

/-- When a refresh has ended nobody refreshes. -/
theorem Ends.nobody (h : Ends purpose v o s s') (hk : Kept s) (w since : Nat)
    (stage : Refresh.Stage) : s'.phase w ≠ .refreshing since stage := by
  obtain ⟨status, inc, since', stage', c', effects, hv, -, rfl⟩ := h.advance
  intro hw
  rcases eq_or_ne w v with rfl | hne
  · rw [phase_after_self] at hw
    exact (afterRefresh_settled ..).ne_refreshing since stage hw
  · rw [phase_after_of_ne hne] at hw
    exact hne (hk.orderly.refreshing_unique hw hv)

/-- A listing in line to be installed was closed by the last answer of its visit. -/
def Closed (s : Session) : Prop :=
  ∀ v since l, s.phase v = .refreshing since (.installing l) → ClosedBy l.cursor (deeds v s.trace)

theorem Closed.step (h : Closed s) (hs : s.step purpose m = some s') : Closed s' := by
  rcases step_cases hs with ⟨w, status, inc, r, -, ha, rfl⟩ | ⟨span, -, rfl⟩
  · intro v since l hv
    rcases eq_or_ne v w with rfl | hne
    · rw [phase_after_self] at hv
      rw [deeds_after]
      exact ha.closedBy hv _
    · rw [phase_after_of_ne hne] at hv
      rw [deeds_after_of_ne hne]
      exact h v since l hv
  · exact h

theorem closed_opening (c : Cache) : Closed (opening c) := by
  simp [Closed, opening]

/-- What the refresh of visit `v`, begun in `s`, leaves when it ends in `s'` after having installed
what it fetched. -/
structure Commits (v : Nat) (s s' : Session) : Prop where
  commits_eq : s'.cache.commits = s.cache.commits + 1
  lastRefresh_eq : s'.cache.lastRefresh = some s'.now
  closed : ClosedBy s'.cache.cursor (deeds v s'.trace)
  installed : ∃ l, ⟨v, s'.now, .installed l s'.cache.records⟩ ∈ s'.trace

/-- The refresh of visit `v`, begun in `s`, ends in `s'` with the report of malformed items that it
got for its last answer, and leaves what the cache knows. -/
def Reports (v : Nat) (o : Except Error Unit) (s s' : Session) : Prop :=
  ∃ es, o = .error (.incomplete es) ∧
    (answers (deeds v s'.trace)).getLast? = some (.error (.incomplete es)) ∧
    s'.cache.content = s.cache.content

/-- A refresh that went through has installed a listing, or reports what it was told. -/
theorem Ends.cases (h : Ends purpose v o s s') (hc : Closed s) (ho : CarriedThrough o) :
    Commits v s s' ∨ Reports v o s s' := by
  obtain ⟨status, inc, since, stage, c', effects, hv, hr, rfl⟩ := h.advance
  have hcontent := content_endRefresh (purpose v) c' v o effects
  have hanswers : answers (deeds v (s.after v (endRefresh (purpose v) c' v o effects)).trace)
      = answers (deeds v s.trace ++ effects) := by
    rw [deeds_after, answers_append, answers_endRefresh, answers_append]
  rcases hr.success ho with ⟨l, before, hy, rfl, rfl⟩ | ⟨rfl, es, rfl, ha⟩
  · obtain ⟨-, hrs, hcursor, -, hlast, hcommits⟩ := Cache.Content.mk.inj hcontent
    refine .inl ⟨hcommits, hlast, ?_, l, ?_⟩
    · have hclosed : ∀ l, stage = .installing l → ClosedBy l.cursor (deeds v s.trace) :=
        fun l hl => hc v since l (hl ▸ hv)
      obtain ⟨page, hp, hm, hl⟩ := hy.closedBy hclosed
      refine ⟨page, ?_, hm, hcursor.trans hl⟩
      rw [hanswers, ← List.append_assoc, answers_append, answers_installation, List.append_nil, hp]
    · obtain ⟨line, ph, told, -, he⟩ := endRefresh_frame (purpose v) (s.cache.commit l s.now).1 v o
        (before ++ Refresh.installation s.cache since s.now l)
      refine mem_after_trace.2 (.inr ⟨rfl, rfl, ?_⟩)
      have hrs' : (s.after v (endRefresh (purpose v) (s.cache.commit l s.now).1 v o
          (before ++ Refresh.installation s.cache since s.now l))).cache.records
            = (s.cache.commit l s.now).1.records := hrs
      rw [hrs', he]
      simp [Refresh.installation]
  · refine .inr ⟨es, rfl, ?_, hcontent⟩
    rw [hanswers, answers_append, ha, List.getLast?_concat]

/-! ## Who relies on a refresh -/

/-- What becomes of a lookup that relies on a refresh which went through with outcome `o` and left
the cache knowing `k`.  In line to refresh, it will take the outcome over, and nobody changes what
the cache knows meanwhile; in line to read, it has the records; at its end, it has read them, unless
one of these moves has cancelled it. -/
def Relying (ms : List Move) (u : Nat) (id : String) (o : Except Error Unit) (k : Cache.Content)
    (s : Session) : Prop :=
  (∃ seen, s.phase u = .queued seen ∧ s.cache.attempts ≠ seen ∧ s.cache.outcome = o ∧
    s.cache.content = k) ∨
  (s.phase u = .reading ∧ s.cache.accessors.holds u = true ∧ s.cache.content = k) ∨
  ∃ result, s.phase u = .finished (.record result) ∧
    (result = k.records.answer id ∨
      ∃ reason, result = .error (.cancelled reason) ∧ ∃ m ∈ ms, m.cancels u reason)

/-- Who takes over the outcome of a refresh that went through reads what it left. -/
theorem Relying.step {ms : List Move} {id : String} {k : Cache.Content}
    (h : Relying ms u id o k s) (hu : purpose u = .lookup id) (ho : CarriedThrough o) (hk : Kept s)
    (hg : Guarded s) (hm : m ∈ ms) (hs : s.step purpose m = some s') :
    Relying ms u id o k s' := by
  have hg' : Guarded s' := hg.step hs
  rcases step_cases hs with ⟨w, status, inc, r, rfl, ha, rfl⟩ | ⟨span, -, rfl⟩
  · have hcancel : ∀ reason, status = some reason →
        r.phase = .finished (.record (.error (.cancelled reason))) → u = w →
        Relying ms u id o k (s.after w r) := by
      rintro reason rfl hph rfl
      exact .inr (.inr ⟨_, by rw [phase_after_self, hph],
        .inr ⟨reason, rfl, _, hm, rfl, .inl rfl⟩⟩)
    rcases h with ⟨seen, hq, hne, hout, hc⟩ | ⟨hr, hl, hc⟩ | ⟨result, hf, hres⟩
    · -- a refresh has ended since `u` got in line, so nobody refreshes before `u` is let in
      have hno : ∀ w since stage, s.phase w ≠ .refreshing since stage := fun w since stage hw =>
        hne (hk.orderly.current w since stage hw u seen hq).symm
      rcases eq_or_ne u w with rfl | huw
      · rw [hq, hu] at ha
        rcases ha.takes_over hne (hout ▸ ho) with ⟨reason, rfl, hph⟩ | ⟨hph, hc'⟩
        · exact hcancel reason rfl hph rfl
        · refine .inr (.inl ⟨by rw [phase_after_self, hph], ?_, hc'.trans hc⟩)
          refine hg'.holds_of_reading (fun w since stage hw => ?_) (by rw [phase_after_self, hph])
          rcases eq_or_ne w u with rfl | hwu
          · rw [phase_after_self, hph] at hw
            exact absurd hw (by simp)
          · rw [phase_after_of_ne hwu] at hw
            exact hno w since stage hw
      · rcases ha.frame with ⟨since, stage, _, _, _, hw, -⟩ | ⟨-, hat, hout', hc'⟩
        · exact absurd hw (hno w since stage)
        · exact .inl ⟨seen, by rwa [phase_after_of_ne huw], fun he => hne (hat ▸ he),
            hout'.trans hout, hc'.trans hc⟩
    · rcases eq_or_ne u w with rfl | huw
      · rw [hr, hu] at ha
        rcases ha.of_reading with ⟨reason, rfl, hph⟩ | hph
        · exact hcancel reason rfl hph rfl
        · exact .inr (.inr ⟨_, by rw [phase_after_self, hph], .inl (by rw [← hc]; rfl)⟩)
      · refine .inr (.inl ⟨?_, ha.holds_of_ne huw hl, (ha.content_of_reader hg hr hl).trans hc⟩)
        rwa [phase_after_of_ne huw]
    · rcases eq_or_ne u w with rfl | huw
      · rw [hf] at ha
        cases ha
      · exact .inr (.inr ⟨result, by rwa [phase_after_of_ne huw], hres⟩)
  · exact h

/-- A lookup goes on to read after a refresh of its own exactly if that went through. -/
theorem Ends.reading_iff (h : Ends purpose v o s s') {id : String} (hv : purpose v = .lookup id) :
    s'.phase v = .reading ↔ CarriedThrough o := by
  obtain ⟨status, inc, since, stage, c', effects, -, -, rfl⟩ := h.advance
  rw [phase_after_self, hv, endRefresh]
  rcases afterRefresh_cases (.lookup id) (leave (c'.record o) v) v o (effects ++ [.ended o])
    with ⟨_, told, -, ho, he⟩ | ⟨_, e, -, -, ho, he⟩ | ⟨hno, -⟩
  · rw [he]
    exact iff_of_true rfl ho
  · rw [he]
    exact iff_of_false (by simp) ho
  · exact absurd rfl (hno id)

/-- When a refresh that went through has ended, its visit and all in line rely on it. -/
theorem Ends.relying (h : Ends purpose v o s s') (hk : Kept s) (hg : Guarded s')
    (ho : CarriedThrough o) {id : String} (hu : purpose u = .lookup id)
    (hin : u = v ∨ ∃ seen, s'.phase u = .queued seen) (ms : List Move) :
    Relying ms u id o s'.cache.content s' := by
  rcases eq_or_ne u v with rfl | hne
  · have hread := (h.reading_iff hu).2 ho
    exact .inr (.inl ⟨hread, hg.holds_of_reading (h.nobody hk) hread, rfl⟩)
  · obtain ⟨status, inc, since, stage, c', effects, hv, hr, rfl⟩ := h.advance
    obtain ⟨seen, hq⟩ := hin.resolve_left hne
    rw [phase_after_of_ne hne] at hq
    obtain rfl := hk.orderly.current v since stage hv u seen hq
    obtain ⟨line, ph, told, -, he⟩ := endRefresh_frame (purpose v) c' v o effects
    have hc : c'.attempts = s.cache.attempts := by
      rcases hr.ended_cases with ⟨e, -, rfl, -⟩ | ⟨l, before, -, rfl, -⟩ <;> rfl
    have hnote : (c'.record o).attempts = c'.attempts + 1 ∧ (c'.record o).outcome = o := by
      rw [Cache.record, if_pos ho.isShareable]
      exact ⟨rfl, rfl⟩
    refine .inl ⟨s.cache.attempts, by rwa [phase_after_of_ne hne], ?_, ?_, rfl⟩
    · rw [after, he]
      exact fun hat => absurd (hnote.1.symm.trans hat) (by omega)
    · rw [after, he]
      exact hnote.2

/-! ## Every session -/

/-- **A refresh that went through has installed what it fetched, or reports what it was told.**
However the visits take their turns, whatever the answers to their requests, whenever contexts are
done:

* a lookup goes on to read after a refresh of its own exactly if that went through, if perhaps past
  malformed items;
* a refresh that did has installed one listing: by the time it ends the cache has counted one
  installation more than when it began, dates the last one to this time, and has the records of the
  listing and the cursor of the last page.  The exception is a refresh whose last answer was itself
  a report of malformed items; it ends with that report, and the cache knows what it knew before;
* either way the lookup that ran the refresh, and each that was in line when it ended, takes its
  answer from the records that the refresh left, unless it is cancelled itself. -/
theorem success_installs_or_reports {container : String} {options : CacheOptions} {c : Cache}
    {s₀ s₁ s₂ s₃ : Session} {ms₀ ms₁ : List Move}
    (hc : Cache.new? container options = .ok c) (h₀ : (opening c).run purpose ms₀ = some s₀)
    (hb : Begins purpose v s₀ s₁) (h₁ : s₁.run purpose ms₁ = some s₂)
    (he : Ends purpose v o s₂ s₃) :
    (∀ id, purpose v = .lookup id → (s₃.phase v = .reading ↔ CarriedThrough o)) ∧
    (CarriedThrough o →
      (Commits v s₀ s₃ ∨ Reports v o s₀ s₃) ∧
      ∀ ms s₄, s₃.run purpose ms = some s₄ → ∀ u id result, purpose u = .lookup id →
        (u = v ∨ ∃ seen, s₃.phase u = .queued seen) → s₄.phase u = .finished (.record result) →
        result = s₃.cache.lookup id ∨
          ∃ reason, result = .error (.cancelled reason) ∧ ∃ m ∈ ms, m.cancels u reason) := by
  obtain ⟨hk₀, ht₀, hcl₀, hg₀⟩ :=
    kept_run (P := fun s => Closed s ∧ Guarded s) (kept_opening hc) (told_opening c)
      ⟨closed_opening c, guarded_opening hc⟩ h₀
      fun _ _ _ _ hp hs => ⟨hp.1.step hs, hp.2.step hs⟩
  have hspec := hb.spec ht₀
  obtain ⟨m, hs₀, -, hv₁⟩ := hb
  obtain ⟨hk₂, -, hh, hcl₂, hg₂⟩ :=
    kept_run (P := fun s => Holding v s₀.cache.content s ∧ Closed s ∧ Guarded s) (hk₀.step hs₀)
      (ht₀.step hk₀ hs₀) ⟨.inl ⟨hv₁, hspec.1⟩, hcl₀.step hs₀, hg₀.step hs₀⟩ h₁
      fun _ _ _ hk hp hs => ⟨hp.1.step hk hs, hp.2.1.step hs, hp.2.2.step hs⟩
  have hcontent : s₂.cache.content = s₀.cache.content := by
    obtain ⟨status, inc, since, stage, c', effects, hv, -⟩ := he.advance
    exact hh.elim (·.2) fun hset => absurd hv (hset.ne_refreshing since stage)
  refine ⟨fun id hid => he.reading_iff hid, fun ho => ⟨?_, ?_⟩⟩
  · rcases he.cases hcl₂ ho with ⟨hcommits, hlast, hclosed, hl⟩ | ⟨es, hes, ha, hk⟩
    · refine .inl ⟨hcommits.trans ?_, hlast, hclosed, hl⟩
      exact congrArg (· + 1) (congrArg Cache.Content.commits hcontent)
    · exact .inr ⟨es, hes, ha, hk.trans hcontent⟩
  · intro ms s₄ h₃ u id result hu hin hf
    have hstep := he
    obtain ⟨m', new, hs₂, -⟩ := hstep
    have hg₃ : Guarded s₃ := hg₂.step hs₂
    obtain ⟨-, -, hr⟩ : Kept s₄ ∧ Guarded s₄ ∧ Relying ms u id o s₃.cache.content s₄ :=
      run_induction (P := fun s => Kept s ∧ Guarded s ∧ Relying ms u id o s₃.cache.content s) h₃
        ⟨hk₂.step hs₂, hg₃, he.relying hk₂ hg₃ ho hu hin ms⟩
        fun m hm t t' ⟨hk, hg, hr⟩ hs => ⟨hk.step hs, hg.step hs, hr.step hu ho hk hg hm hs⟩
    rcases hr with ⟨seen, hq, -⟩ | ⟨hr, -⟩ | ⟨result', hf', hres⟩
    · exact absurd (hq.symm.trans hf) (by simp)
    · exact absurd (hr.symm.trans hf) (by simp)
    · obtain rfl : result = result' := by simpa using hf.symm.trans hf'
      exact hres

/-- A lookup refreshes: its second page has a nameless file, and the other items are installed.
Another lookup has waited in line meanwhile, and takes its answer from what was installed. -/
theorem success_installs_or_reports_nameless :
    ∃ c s₀ s₁ s₂ s₃ s₄,
      Cache.new? "drive" { refreshInterval := Nanos.second } = .ok c ∧
      (opening c).run (fun v => .lookup (if v = 0 then "a" else "b"))
        [.turn 0 none none, .turn 1 none none] = some s₀ ∧
      Begins (fun v => .lookup (if v = 0 then "a" else "b")) 0 s₀ s₁ ∧
      s₁.run (fun v => .lookup (if v = 0 then "a" else "b"))
        [.turn 0 none none,
          .turn 0 none (some
            ⟨.ok { items := [.file "a" "u"], cursor := some "p", hasMore := true }, none⟩),
          .pass 7] = some s₂ ∧
      Ends (fun v => .lookup (if v = 0 then "a" else "b")) 0
        (.error (.incomplete [ItemFault.error])) s₂ s₃ ∧
      s₃.run (fun v => .lookup (if v = 0 then "a" else "b"))
        [.turn 1 none none, .turn 1 none none] = some s₄ ∧
      Commits 0 s₀ s₃ ∧ s₃.cache.lastRefresh = some 7 ∧
      s₄.phase 1 = .finished (.record (s₃.cache.lookup "b")) := by
  have hc : Cache.new? "drive" { refreshInterval := Nanos.second }
      = .ok { container := "drive", options := { refreshInterval := Nanos.second } } := rfl
  obtain ⟨s₀, h₀, hp₀, s₁, hs₁, hp₁, s₂, h₂, s₃, hs₃, ⟨new, htr, hend⟩, hq, hlast, ha, s₄, h₄,
      hp₄⟩ :
      ∃ s₀, (opening
          { container := "drive", options := { refreshInterval := Nanos.second } }).run
          (fun v => .lookup (if v = 0 then "a" else "b"))
          [.turn 0 none none, .turn 1 none none] = some s₀ ∧ s₀.phase 0 = .queued 0 ∧
      ∃ s₁, s₀.step (fun v => .lookup (if v = 0 then "a" else "b")) (.turn 0 none none)
          = some s₁ ∧ s₁.phase 0 = .refreshing 0 .claiming ∧
      ∃ s₂, s₁.run (fun v => .lookup (if v = 0 then "a" else "b"))
          [.turn 0 none none,
            .turn 0 none (some
              ⟨.ok { items := [.file "a" "u"], cursor := some "p", hasMore := true }, none⟩),
            .pass 7] = some s₂ ∧
      ∃ s₃, s₂.step (fun v => .lookup (if v = 0 then "a" else "b"))
          (.turn 0 none (some
            ⟨.ok { items := [{ isFile := true }, .file "b" "v"], cursor := some "d" }, none⟩))
          = some s₃ ∧
        (∃ new, s₃.trace = s₂.trace ++ new ∧
          new[5]? = some ⟨0, s₂.now, .ended (.error (.incomplete [ItemFault.error]))⟩) ∧
        s₃.phase 1 = .queued 0 ∧ s₃.cache.lastRefresh = some 7 ∧
        (answers (deeds 0 s₃.trace)).getLast?
          = some (.ok { items := [{ isFile := true }, .file "b" "v"], cursor := some "d" }) ∧
      ∃ s₄, s₃.run (fun v => .lookup (if v = 0 then "a" else "b"))
          [.turn 1 none none, .turn 1 none none] = some s₄ ∧
        s₄.phase 1 = .finished (.record (.ok { id := "b", accessLocator := some "v" })) :=
    ⟨_, rfl, rfl, _, rfl, rfl, _, rfl, _, rfl, ⟨_, rfl, rfl⟩, rfl, rfl, rfl, _, rfl, rfl⟩
  have hb : Begins (fun v => .lookup (if v = 0 then "a" else "b")) 0 s₀ s₁ :=
    ⟨_, hs₁, fun ⟨_, _, h⟩ => absurd (hp₀.symm.trans h) (by simp), _, _, hp₁⟩
  have he : Ends (fun v => .lookup (if v = 0 then "a" else "b")) 0
      (.error (.incomplete [ItemFault.error])) s₂ s₃ := ⟨_, new, hs₃, htr, List.mem_of_getElem? hend⟩
  obtain ⟨hcases, hreads⟩ := (success_installs_or_reports hc h₀ hb h₂ he).2 (.inr ⟨_, rfl⟩)
  refine ⟨_, s₀, s₁, s₂, s₃, s₄, hc, h₀, hb, h₂, he, h₄, hcases.resolve_right ?_, hlast, ?_⟩
  · rintro ⟨es, -, hrep, -⟩
    exact absurd (ha.symm.trans hrep) (by simp)
  · rcases hreads _ s₄ h₄ 1 "b" _ rfl (.inr ⟨0, hq⟩) hp₄ with hres | ⟨reason, hres, -⟩
    · rw [hp₄, hres]
    · exact absurd hres (by simp)

/-- A source of pages may answer with a report of malformed items.  The refresh then ends as if it
had gone through, but nothing was installed, and the lookup that ran it says that its item does not
exist. -/
theorem success_without_records :
    ∃ c s₀ s₁ s₂ s₃ s₄,
      Cache.new? "drive" { refreshInterval := Nanos.second } = .ok c ∧
      (opening c).run (fun _ => .lookup "a") [.turn 0 none none] = some s₀ ∧
      Begins (fun _ => .lookup "a") 0 s₀ s₁ ∧
      s₁.run (fun _ => .lookup "a") [.turn 0 none none] = some s₂ ∧
      Ends (fun _ => .lookup "a") 0 (.error (.incomplete [ItemFault.error])) s₂ s₃ ∧
      s₃.cache.commits = s₀.cache.commits ∧ s₃.cache.lastRefresh = none ∧
      s₃.run (fun _ => .lookup "a") [.turn 0 none none] = some s₄ ∧
      s₄.phase 0 = .finished (.record (.error (.notFound "a"))) ∧ installs s₄.trace = [] := by
  obtain ⟨s₀, h₀, hp₀, s₁, hs₁, hp₁, s₂, h₂, s₃, hs₃, ⟨new, htr, hend⟩, hcommits, hlast, s₄, h₄,
      hp₄, hi⟩ :
      ∃ s₀, (opening
          { container := "drive", options := { refreshInterval := Nanos.second } }).run
          (fun _ => .lookup "a") [.turn 0 none none] = some s₀ ∧ s₀.phase 0 = .queued 0 ∧
      ∃ s₁, s₀.step (fun _ => .lookup "a") (.turn 0 none none) = some s₁ ∧
        s₁.phase 0 = .refreshing 0 .claiming ∧
      ∃ s₂, s₁.run (fun _ => .lookup "a") [.turn 0 none none] = some s₂ ∧
      ∃ s₃, s₂.step (fun _ => .lookup "a")
          (.turn 0 none (some ⟨.error (.incomplete [ItemFault.error]), none⟩)) = some s₃ ∧
        (∃ new, s₃.trace = s₂.trace ++ new ∧
          new[2]? = some ⟨0, s₂.now, .ended (.error (.incomplete [ItemFault.error]))⟩) ∧
        s₃.cache.commits = s₀.cache.commits ∧ s₃.cache.lastRefresh = none ∧
      ∃ s₄, s₃.run (fun _ => .lookup "a") [.turn 0 none none] = some s₄ ∧
        s₄.phase 0 = .finished (.record (.error (.notFound "a"))) ∧ installs s₄.trace = [] :=
    ⟨_, rfl, rfl, _, rfl, rfl, _, rfl, _, rfl, ⟨_, rfl, rfl⟩, rfl, rfl, _, rfl, rfl, rfl⟩
  have hb : Begins (fun _ => .lookup "a") 0 s₀ s₁ :=
    ⟨_, hs₁, fun ⟨_, _, h⟩ => absurd (hp₀.symm.trans h) (by simp), _, _, hp₁⟩
  exact ⟨_, s₀, s₁, s₂, s₃, s₄, rfl, h₀, hb, h₂, ⟨_, new, hs₃, htr, List.mem_of_getElem? hend⟩,
    hcommits, hlast, h₄, hp₄, hi⟩

end Session

end DriveDelta
