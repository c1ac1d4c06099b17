import DriveDelta.Proofs.Cache.SingleFlight

/-!
# How old an answer may be

In exclusive mode a lookup reads only what was installed after it began, or at most one refresh
interval before.  A lookup whose refresh failed does not read at all; its answer is the error.

What carries the proof is that the time of the last installation never goes back.  So it is enough
that the records are recent when a lookup gets in line to read.  Whatever is installed while it
waits there only makes them more recent.

## What is here

* `Cache.Content.Covers`, which says that the records are recent enough for who began at a time;
* `Visit.Advance.reads`, how a lookup comes to read, and `Visit.Advance.answers` and
  `Visit.Advance.returned`, how it comes to its answer;
* `Session.Dated`, `Session.Covering` and `Session.Answering`, the invariants;
* `Session.lookup_recent`, for every session in exclusive mode;
* `Session.lookup_not_found_without_records`, a lookup that is told of an error of its own refresh
  which looks like an answer.
-/

set_option autoImplicit false

namespace DriveDelta

/-! ## Recent records -/

namespace Cache

/-- The records were installed after the given time, or at most one refresh interval before. -/
def Content.Covers (k : Content) (t₀ : Nat) : Prop :=
  ∃ t, k.lastRefresh = some t ∧ t₀ ≤ t + k.options.refreshInterval

variable {c : Cache} {now t₀ : Nat}

theorem covers_of_fresh (h : c.needsRefresh now = false) (ht : t₀ ≤ now) :
    c.content.Covers t₀ := by
  rw [needsRefresh, Bool.or_eq_false_iff] at h
  cases hl : c.lastRefresh with
  | none => simp [hl] at h
  | some t =>
    rw [hl] at h
    have hle : now - t ≤ c.options.refreshInterval := by simpa using h.2
    exact ⟨t, hl, by simp only [content]; omega⟩

theorem covers_commit (l : Listing) (ht : t₀ ≤ now) : (c.commit l now).1.content.Covers t₀ :=
  ⟨now, rfl, Nat.le_add_right_of_le ht⟩

end Cache

/-! ## One step -/

namespace Refresh

/-- The answer to a request is no report of malformed items. -/
def Plain (inc : Option Incoming) : Prop :=
  ∀ i, inc = some i → ∀ es, i.answer ≠ .error (.incomplete es)

/-- A refresh is carried through only by installing a listing. -/
theorem Advance.installed_of_carriedThrough {c c' : Cache} {v since now : Nat}
    {status : Option CancelReason} {inc : Option Incoming} {stage : Stage}
    {outcome : Except Error Unit} {effects : List Visit.Effect}
    (h : Advance c v since now status inc stage (.ended c' outcome effects)) (hp : Plain inc)
    (ho : Visit.CarriedThrough outcome) : ∃ l, c' = (c.commit l now).1 := by
  cases h with
  | abandoned | stopped => exact absurd ho (by simp [Visit.CarriedThrough])
  | @failed _ i _ e _ hn =>
    obtain ⟨es, rfl⟩ : ∃ es, e = .incomplete es := by simpa [Visit.CarriedThrough] using ho
    rcases Round.next_failed hn with ha | he | he
    · exact absurd ha (hp i rfl es)
    · exact absurd he (by simp [Round.expiredInFullListing])
    · exact absurd he (by simp [Round.moreWithoutCursor])
  | @completed _ _ _ l => exact ⟨l, rfl⟩
  | @installed _ l => exact ⟨l, rfl⟩

end Refresh

namespace Visit

variable {p : Purpose} {c : Cache} {v now t₀ : Nat} {status : Option CancelReason}
  {inc : Option Refresh.Incoming} {phase : Phase} {r : Step} {id : String}

/-- The records never get less recent. -/
theorem Advance.covers (h : Advance p c v now status inc phase r) (hc : c.content.Covers t₀)
    (ht : t₀ ≤ now) : r.cache.content.Covers t₀ := by
  rcases h.content with ⟨-, hk⟩ | ⟨since, stage, l, before, rest, -, -, -, hk, -⟩
  · rwa [hk]
  · rw [hk]
    exact Cache.covers_commit l ht

/-- In exclusive mode a lookup gets in line to read when the records are recent, or when it takes
over the outcome of a refresh that was carried through. -/
theorem Advance.reads (h : Advance (.lookup id) c v now status inc phase r)
    (hr : r.phase = .reading) (hx : c.options.strategy = .exclusive) (hp : Refresh.Plain inc)
    (ht : t₀ ≤ now) :
    r.cache.content.Covers t₀ ∨ ∃ seen, phase = .queued seen ∧ c.attempts ≠ seen ∧
      CarriedThrough c.outcome ∧ .arrived ∉ r.effects ∧ r.cache.content = c.content := by
  -- who goes on to read after refreshing has relied on a refresh that was carried through
  have hout : ∀ (c' : Cache) (outcome : Except Error Unit) (effects : List Effect),
      (afterRefresh (.lookup id) c' v outcome effects).phase = .reading →
      CarriedThrough outcome ∧
        (afterRefresh (.lookup id) c' v outcome effects).cache.content = c'.content ∧
        (.arrived ∉ effects →
          .arrived ∉ (afterRefresh (.lookup id) c' v outcome effects).effects) := by
    intro c' outcome effects hph
    rcases afterRefresh_cases (.lookup id) c' v outcome effects with
      ⟨_, told, -, ho, he⟩ | ⟨_, e, -, -, -, he⟩ | ⟨hne, -⟩
    · rw [he]
      exact ⟨ho, rfl, fun hno => by simpa [toReading] using hno⟩
    · rw [he] at hph
      exact absurd hph (by simp)
    · exact absurd rfl (hne id)
  cases h with
  | lined | answered | began | proceeded | dropped | read => exact absurd hr (by simp [toQueue])
  | approached hp =>
    rcases hp with hp | ⟨_, -, -, hf | hf⟩
    · exact absurd hp (by simp)
    · exact .inl (Cache.covers_of_fresh (c := c) hf ht)
    · exact absurd hf (by simp [servesStale, hx])
  | withdrew => exact absurd (hout _ _ _ hr).1 (by simp [CarriedThrough])
  | @shared _ seen hl hne =>
    obtain ⟨ho, hk, hno⟩ := hout _ _ _ hr
    exact .inr ⟨seen, rfl, hne, ho, hno (by simp), hk⟩
  | spared hl heq hf =>
    rw [(hout _ _ _ hr).2.1]
    exact .inl (Cache.covers_of_fresh (c := c) hf ht)
  | @ended _ _ _ _ c' outcome effects hrun =>
    obtain ⟨l, rfl⟩ := hrun.installed_of_carriedThrough hp (hout _ _ _ hr).1
    rw [content_endRefresh]
    exact .inl (Cache.covers_commit l ht)

/-- What a visit has done with refreshing by is the outcome that it goes on with. -/
theorem afterRefresh_returned {outcome o : Except Error Unit} {effects : List Effect}
    (h : .returned o ∈ (afterRefresh p c v outcome effects).effects)
    (hno : .returned o ∉ effects) : o = outcome := by
  obtain ⟨line, ph, told, -, he⟩ := afterRefresh_frame p c v outcome effects
  rw [he] at h
  simpa [hno] using h

/-- A lookup that has failed to refresh answers with the error. -/
theorem Advance.returned (h : Advance (.lookup id) c v now status inc phase r)
    {o : Except Error Unit} (hm : .returned o ∈ r.effects) (ho : ¬ CarriedThrough o) :
    ∃ e, o = .error e ∧ r.phase = .finished (.record (.error e)) := by
  have hout : ∀ (c' : Cache) (outcome : Except Error Unit) (effects : List Effect),
      .returned o ∈ (afterRefresh (.lookup id) c' v outcome effects).effects →
      .returned o ∉ effects →
      ∃ e, o = .error e ∧ (afterRefresh (.lookup id) c' v outcome effects).phase
        = .finished (.record (.error e)) := by
    intro c' outcome effects hm hno
    obtain rfl := afterRefresh_returned hm hno
    rcases afterRefresh_cases (.lookup id) c' v o effects with
      ⟨_, told, -, ho', -⟩ | ⟨_, e, -, he, -, heq⟩ | ⟨hne, -⟩
    · exact absurd ho' ho
    · exact ⟨e, he, by rw [heq]⟩
    · exact absurd rfl (hne id)
  cases h with
  | lined | approached | answered | began | dropped | read => simp [toQueue, toReading] at hm
  | withdrew => exact hout _ _ _ hm (by simp)
  | shared => exact hout _ _ _ hm (by simp)
  | spared => exact hout _ _ _ hm (by simp)
  | proceeded hr => exact absurd rfl ((hr.ne_of_mem_effects hm).2.2.2 o)
  | @ended _ _ _ _ c' outcome effects hr =>
    refine hout _ _ _ hm fun hm' => ?_
    rcases List.mem_append.1 hm' with hm' | hm'
    · exact absurd rfl ((hr.ne_of_mem_effects hm').2.2.2 o)
    · exact absurd hm' (by simp)

/-- A lookup comes to its answer by reading, unless it was cancelled in line to read, named no item,
or failed to refresh. -/
theorem Advance.answers (h : Advance (.lookup id) c v now status inc phase r)
    {result : Except Error Record} (hr : r.phase = .finished (.record result)) :
    (phase = .reading ∧ r.effects = [] ∧
      (result = c.lookup id ∨ ∃ reason, result = .error (.cancelled reason))) ∨
    result = .error emptyId ∨
    ∃ e, .returned (.error e) ∈ r.effects ∧ ¬ CarriedThrough (.error e) := by
  have hout : ∀ (c' : Cache) (outcome : Except Error Unit) (effects : List Effect),
      (afterRefresh (.lookup id) c' v outcome effects).phase = .finished (.record result) →
      ∃ e, .returned (.error e) ∈ (afterRefresh (.lookup id) c' v outcome effects).effects ∧
        ¬ CarriedThrough (.error e) := by
    intro c' outcome effects hph
    rcases afterRefresh_cases (.lookup id) c' v outcome effects with
      ⟨_, told, -, -, he⟩ | ⟨_, e, -, rfl, ho, he⟩ | ⟨hne, -⟩
    · rw [he] at hph
      exact absurd hph (by simp [toReading])
    · exact ⟨e, by simp [he], ho⟩
    · exact absurd rfl (hne id)
  cases h with
  | lined | approached | began | proceeded => exact absurd hr (by simp [toQueue, toReading])
  | answered hp =>
    rcases hp with ⟨-, rfl⟩ | ⟨hp, -⟩
    · cases hr
      exact .inr (.inl rfl)
    · exact absurd hp (by simp)
  | withdrew | shared | spared | ended => exact .inr (.inr (hout _ _ _ hr))
  | dropped reason =>
    cases hr
    exact .inl ⟨rfl, rfl, .inr ⟨reason, rfl⟩⟩
  | read =>
    cases hr
    exact .inl ⟨rfl, rfl, .inl rfl⟩

end Visit

/-! ## Every session in exclusive mode -/

namespace Session

variable {purpose : Nat → Visit.Purpose}

/-- Nothing was done in the future, and the records are those of the last installation. -/
structure Dated (options : CacheOptions) (s : Session) : Prop where
  options_eq : s.cache.options = options
  past : ∀ x ∈ s.trace, x.time ≤ s.now
  latest : ∀ t, s.cache.lastRefresh = some t →
    ∃ w l, ⟨w, t, .installed l s.cache.records⟩ ∈ s.trace

theorem dated_opening {container : String} {options : CacheOptions} {c : Cache}
    (hc : Cache.new? container options = .ok c) : Dated options (opening c) := by
  rw [Cache.eq_of_new? hc]
  exact ⟨rfl, by simp [opening], by simp [opening]⟩

theorem Dated.step {options : CacheOptions} {s s' : Session} {m : Move} (h : Dated options s)
    (hs : s.step purpose m = some s') : Dated options s' := by
  rcases step_cases hs with ⟨v, status, inc, r, -, ha, rfl⟩ | ⟨span, -, rfl⟩
  · have hpast : ∀ x ∈ (s.after v r).trace, x.time ≤ s.now := by
      intro x hx
      rcases mem_after_trace.1 hx with hx | ⟨-, ht, -⟩
      · exact h.past x hx
      · exact Nat.le_of_eq ht
    rcases ha.content with ⟨-, hk⟩ | ⟨since, stage, l, before, rest, -, -, -, hk, heff, -⟩
    · obtain ⟨ho, hr, -, -, hl, -⟩ := Cache.Content.mk.inj hk
      refine ⟨ho.trans h.options_eq, hpast, fun t ht => ?_⟩
      obtain ⟨w, l, hw⟩ := h.latest t (hl ▸ ht)
      exact ⟨w, l, mem_after_trace.2 (.inl (by rwa [after, hr]))⟩
    · obtain ⟨ho, hr, -, -, hl, -⟩ := Cache.Content.mk.inj hk
      refine ⟨ho.trans h.options_eq, hpast, fun t ht => ?_⟩
      obtain rfl : s.now = t := Option.some_inj.1 (hl.symm.trans ht)
      exact ⟨v, l, mem_after_trace.2 (.inr ⟨rfl, rfl, by simp [after, heff, hr]⟩)⟩
  · exact ⟨h.options_eq, fun x hx => (h.past x hx).trans (Nat.le_add_right _ _), h.latest⟩

/-- The records are recent enough for the lookups in line to read, and for those in line to refresh
that will take over the outcome of a refresh that was carried through. -/
structure Covering (purpose : Nat → Visit.Purpose) (s : Session) : Prop where
  reading : ∀ v id t₀, purpose v = .lookup id → s.phase v = .reading →
    ⟨v, t₀, .arrived⟩ ∈ s.trace → s.cache.content.Covers t₀
  queued : ∀ v seen t₀, s.phase v = .queued seen → s.cache.attempts ≠ seen →
    Visit.CarriedThrough s.cache.outcome → ⟨v, t₀, .arrived⟩ ∈ s.trace →
    s.cache.content.Covers t₀

/-- No answer in a move is a report of malformed items. -/
def Move.Plain : Move → Prop
  | .turn _ _ inc => Refresh.Plain inc
  | .pass _ => True

theorem Covering.step {options : CacheOptions} {s s' : Session} {m : Move}
    (h : Covering purpose s) (hd : Dated options s) (hx : options.strategy = .exclusive)
    (hp : m.Plain) (hs : s.step purpose m = some s') : Covering purpose s' := by
  have hd' := hd.step hs
  rcases step_cases hs with ⟨v, status, inc, r, rfl, ha, rfl⟩ | ⟨span, -, rfl⟩
  · have hold : ∀ w t₀, w ≠ v → ⟨w, t₀, .arrived⟩ ∈ (s.after v r).trace →
        ⟨w, t₀, .arrived⟩ ∈ s.trace := by
      intro w t₀ hne hw
      rcases mem_after_trace.1 hw with hw | ⟨hv, -⟩
      · exact hw
      · exact absurd hv hne
    refine ⟨fun w id t₀ hw hph hat => ?_, fun w seen t₀ hph hne ho hat => ?_⟩
    · have ht : t₀ ≤ s.now := hd'.past _ hat
      rcases eq_or_ne w v with rfl | hwv
      · simp only [after, Function.update_self] at hph
        rw [hw] at ha
        rcases ha.reads hph (hd.options_eq ▸ hx) hp ht with hc | ⟨seen, hq, hne, ho, hno, hk⟩
        · exact hc
        · rcases mem_after_trace.1 hat with hat | ⟨-, -, he⟩
          · exact (h.queued w seen t₀ hq hne ho hat).imp fun t hc => by simpa [after, hk] using hc
          · exact absurd he hno
      · simp only [after, Function.update_of_ne hwv] at hph
        exact ha.covers (h.reading w id t₀ hw hph (hold w t₀ hwv hat)) ht
    · have ht : t₀ ≤ s.now := hd'.past _ hat
      rcases eq_or_ne w v with rfl | hwv
      · -- it has just got in line, and seen all outcomes
        simp only [after, Function.update_self] at hph
        rcases ha.phase_cases with ⟨hp, hq, -⟩ | hset | ⟨since, stage, hr⟩
        · have hatt : r.cache.attempts = s.cache.attempts := ha.attempts_eq (by simp [hp])
          exact absurd (hatt.trans (Visit.Phase.queued.inj (hq.symm.trans hph))) hne
        · exact absurd hph (hset.ne_queued seen)
        · exact absurd (hph.symm.trans hr) (by simp)
      · simp only [after, Function.update_of_ne hwv] at hph
        rcases ha.sharing with ⟨-, hatt, hout⟩ | ⟨o, hshared, -, hout⟩
        · exact ha.covers
            (h.queued w seen t₀ hph (hatt ▸ hne) (hout ▸ ho) (hold w t₀ hwv hat)) ht
        · obtain ⟨e, he, hs⟩ := List.mem_filterMap.1 (hshared ▸ List.mem_singleton_self o)
          obtain ⟨rfl, -⟩ := Visit.Effect.shared?_eq_some.1 hs
          obtain ⟨since, stage, c', effects, -, hr, rfl⟩ := ha.ended_of_mem he
          obtain ⟨l, rfl⟩ := hr.installed_of_carriedThrough hp (hout ▸ ho)
          have hk := Visit.content_endRefresh (purpose v) (s.cache.commit l s.now).1 v o effects
          exact hk ▸ Cache.covers_commit l ht
  · exact ⟨h.reading, h.queued⟩

/-- A result that says what is known of an item. -/
def Answered (result : Except Error Record) : Prop :=
  (∃ rec, result = .ok rec) ∨ (∃ id, result = .error (.gone id)) ∨
    ∃ id, result = .error (.notFound id)

/-- The answers of lookups that are over. -/
structure Answering (purpose : Nat → Visit.Purpose) (s : Session) : Prop where
  failed : ∀ v id t o, purpose v = .lookup id → ⟨v, t, .returned o⟩ ∈ s.trace →
    ¬ Visit.CarriedThrough o → ∃ e, o = .error e ∧ s.phase v = .finished (.record (.error e))
  recent : ∀ v id t₀ result, purpose v = .lookup id → s.phase v = .finished (.record result) →
    ⟨v, t₀, .arrived⟩ ∈ s.trace →
    (∀ t o, ⟨v, t, .returned o⟩ ∈ s.trace → Visit.CarriedThrough o) → Answered result →
    ∃ w t l rs, ⟨w, t, .installed l rs⟩ ∈ s.trace ∧
      t₀ ≤ t + s.cache.options.refreshInterval ∧ result = rs.answer id

theorem Answering.step {options : CacheOptions} {s s' : Session} {m : Move}
    (h : Answering purpose s) (hd : Dated options s) (hc : Covering purpose s)
    (hs : s.step purpose m = some s') : Answering purpose s' := by
  have hoptions : s'.cache.options = s.cache.options :=
    (hd.step hs).options_eq.trans hd.options_eq.symm
  rcases step_cases hs with ⟨v, status, inc, r, rfl, ha, rfl⟩ | ⟨span, -, rfl⟩
  · refine ⟨fun w id t o hw hm ho => ?_, fun w id t₀ result hw hph hat hno hans => ?_⟩
    · rcases eq_or_ne w v with rfl | hwv
      · simp only [after, Function.update_self]
        rcases mem_after_trace.1 hm with hm | ⟨-, -, he⟩
        · -- it was over before, and gets no more turns
          obtain ⟨e, -, hph⟩ := h.failed w id t o hw hm ho
          rw [hph] at ha
          cases ha
        · rw [hw] at ha
          exact ha.returned he ho
      · simp only [after, Function.update_of_ne hwv]
        rcases mem_after_trace.1 hm with hm | ⟨hv, -⟩
        · exact h.failed w id t o hw hm ho
        · exact absurd hv hwv
    · rw [hoptions]
      rcases eq_or_ne w v with rfl | hwv
      · simp only [after, Function.update_self] at hph
        rw [hw] at ha
        rcases ha.answers hph with ⟨hr, heff, rfl | ⟨reason, rfl⟩⟩ | rfl | ⟨e, he, hfail⟩
        · have hat' : ⟨w, t₀, .arrived⟩ ∈ s.trace := by simpa [after, heff] using hat
          obtain ⟨t, hl, ht⟩ := hc.reading w id t₀ hw hr hat'
          obtain ⟨u, l, hu⟩ := hd.latest t hl
          exact ⟨u, t, l, s.cache.records, mem_after_trace.2 (.inl hu), ht, rfl⟩
        · exact absurd hans (by simp [Answered])
        · exact absurd hans (by simp [Answered, Visit.emptyId])
        · exact absurd (hno s.now _ (mem_after_trace.2 (.inr ⟨rfl, rfl, he⟩))) hfail
      · simp only [after, Function.update_of_ne hwv] at hph
        rcases mem_after_trace.1 hat with hat | ⟨hv, -⟩
        · obtain ⟨u, t, l, rs, hu, ht, hres⟩ := h.recent w id t₀ result hw hph hat
            (fun t o hm => hno t o (mem_after_trace.2 (.inl hm))) hans
          exact ⟨u, t, l, rs, mem_after_trace.2 (.inl hu), ht, hres⟩
        · exact absurd hv hwv
  · exact ⟨h.failed, h.recent⟩

/-- **A lookup answers from recent records or not at all.**  In exclusive mode, however the visits
take their turns and whatever the answers to their requests, short of reports of malformed items:
a lookup whose refresh failed answers with the error of that refresh.  If any other says what is
known of its item, it says so from the records that one installation left, and that was made after
the lookup began, or at most one refresh interval before. -/
theorem lookup_recent {container : String} {options : CacheOptions} {c : Cache} {s : Session}
    {ms : List Move} (hc : Cache.new? container options = .ok c)
    (hx : options.strategy = .exclusive) (hp : ∀ m ∈ ms, m.Plain)
    (h : (opening c).run purpose ms = some s) {v t₀ : Nat} {id : String}
    {result : Except Error Record} (hv : purpose v = .lookup id)
    (hat : ⟨v, t₀, .arrived⟩ ∈ s.trace) (hres : s.phase v = .finished (.record result)) :
    (∀ t o, ⟨v, t, .returned o⟩ ∈ s.trace → ¬ Visit.CarriedThrough o →
      ∃ e, o = .error e ∧ result = .error e) ∧
    ((∀ t o, ⟨v, t, .returned o⟩ ∈ s.trace → Visit.CarriedThrough o) → Answered result →
      ∃ w t l rs, ⟨w, t, .installed l rs⟩ ∈ s.trace ∧ t₀ ≤ t + options.refreshInterval ∧
        result = rs.answer id) := by
  obtain ⟨hd, -, ha⟩ : Dated options s ∧ Covering purpose s ∧ Answering purpose s := by
    refine run_induction (P := fun s => Dated options s ∧ Covering purpose s ∧ Answering purpose s)
      h ⟨dated_opening hc, ?_, ?_⟩ ?_
    · exact ⟨by simp [opening], by simp [opening]⟩
    · exact ⟨by simp [opening], by simp [opening]⟩
    · rintro m hm t t' ⟨hd, hcov, hans⟩ hs
      exact ⟨hd.step hs, hcov.step hd hx (hp m hm) hs, hans.step hd hcov hs⟩
  refine ⟨fun t o hm ho => ?_, fun hno hans => ?_⟩
  · obtain ⟨e, he, hph⟩ := ha.failed v id t o hv hm ho
    rw [hres] at hph
    cases hph
    exact ⟨e, he, rfl⟩
  · rw [← hd.options_eq]
    exact ha.recent v id t₀ result hv hres hat hno hans

/-- One visit refreshes, and another looks an item up a little later: what it says was installed
less than one refresh interval before. -/
theorem lookup_recent_after_refresh :
    ∃ c s w t l rs, Cache.new? "drive" { refreshInterval := Nanos.second } = .ok c ∧
      (opening c).run (fun v => if v = 0 then .refresh else .lookup "a")
        [.turn 0 none none, .turn 0 none none, .turn 0 none none,
          .turn 0 none (some ⟨.ok { items := [.file "a" "u"] }, none⟩), .pass 5,
          .turn 1 none none, .turn 1 none none] = some s ∧
      s.phase 1 = .finished (.record (.ok { id := "a", accessLocator := some "u" })) ∧
      ⟨w, t, .installed l rs⟩ ∈ s.trace ∧ 5 ≤ t + Nanos.second ∧
      rs.answer "a" = .ok { id := "a", accessLocator := some "u" } := by
  have hc : Cache.new? "drive" { refreshInterval := Nanos.second }
      = .ok { container := "drive", options := { refreshInterval := Nanos.second } } := rfl
  obtain ⟨s, hs, hres, hat, hno⟩ : ∃ s,
      (opening { container := "drive", options := { refreshInterval := Nanos.second } }).run
        (fun v => if v = 0 then .refresh else .lookup "a")
        [.turn 0 none none, .turn 0 none none, .turn 0 none none,
          .turn 0 none (some ⟨.ok { items := [.file "a" "u"] }, none⟩), .pass 5,
          .turn 1 none none, .turn 1 none none] = some s ∧
      s.phase 1 = .finished (.record (.ok { id := "a", accessLocator := some "u" })) ∧
      s.trace.getLast? = some ⟨1, 5, .arrived⟩ ∧
      s.trace.filter (·.visit == 1) = [⟨1, 5, .arrived⟩] :=
    ⟨_, rfl, rfl, rfl, rfl⟩
  have hplain : ∀ m ∈ [Move.turn 0 none none, .turn 0 none none, .turn 0 none none,
      .turn 0 none (some ⟨.ok { items := [.file "a" "u"] }, none⟩), .pass 5, .turn 1 none none,
      .turn 1 none none], m.Plain := by
    simp [Move.Plain, Refresh.Plain]
  have hdone : ∀ t o, ⟨1, t, .returned o⟩ ∈ s.trace → Visit.CarriedThrough o := by
    intro t o hm
    have hm' : (⟨1, t, .returned o⟩ : Stamp) ∈ s.trace.filter (·.visit == 1) :=
      List.mem_filter.2 ⟨hm, rfl⟩
    rw [hno] at hm'
    exact absurd hm' (by simp)
  obtain ⟨w, t, l, rs, hw, ht, hans⟩ :=
    (lookup_recent hc rfl hplain hs rfl (List.mem_of_getLast? hat) hres).2 hdone (.inl ⟨_, rfl⟩)
  exact ⟨_, s, w, t, l, rs, hc, hs, hres, hw, ht, hans.symm⟩

/-- The error of a refresh can look like an answer: a lookup says that its item does not exist,
although nothing was ever installed. -/
theorem lookup_not_found_without_records :
    ∃ c s, Cache.new? "drive" { refreshInterval := Nanos.second } = .ok c ∧
      (opening c).run (fun _ => .lookup "a")
        [.turn 0 none none, .turn 0 none none, .turn 0 none none,
          .turn 0 none (some ⟨.error (.notFound "a"), none⟩)] = some s ∧
      ⟨0, 0, .arrived⟩ ∈ s.trace ∧ s.phase 0 = .finished (.record (.error (.notFound "a"))) ∧
      ∀ x ∈ s.trace, ∀ l rs, x.effect ≠ .installed l rs := by
  obtain ⟨s, hs, hph, ht⟩ : ∃ s,
      (opening { container := "drive", options := { refreshInterval := Nanos.second } }).run
        (fun _ => .lookup "a")
        [.turn 0 none none, .turn 0 none none, .turn 0 none none,
          .turn 0 none (some ⟨.error (.notFound "a"), none⟩)] = some s ∧
      s.phase 0 = .finished (.record (.error (.notFound "a"))) ∧
      s.trace = [⟨0, 0, .arrived⟩, ⟨0, 0, .admitted⟩, ⟨0, 0, .event (.refreshing .exclusive)⟩,
        ⟨0, 0, .asked none⟩, ⟨0, 0, .received (.error (.notFound "a"))⟩,
        ⟨0, 0, .event (.refreshFailed (.notFound "a"))⟩, ⟨0, 0, .ended (.error (.notFound "a"))⟩,
        ⟨0, 0, .returned (.error (.notFound "a"))⟩] :=
    ⟨_, rfl, rfl, rfl⟩
  exact ⟨_, s, rfl, hs, by simp [ht], hph, by simp [ht]⟩

end Session

end DriveDelta
