import DriveDelta.Proofs.Cache.Success

/-!
# When the cache is stale

What makes a cache stale is told by three of its fields, which are not the records themselves.  In
every session they agree with the records and with the trace: the cache is stale while it has no
records, and again when more than its refresh interval has passed since the last installation.

Whether it is stale is asked again under the lock of refreshers, and nobody but the one who holds
that lock installs anything.  So once an installation has left records, nobody asks for a page, and
nobody installs anything, before the refresh interval is over.

## What is here

* `Cache.Content.Booked`, which says that the fields agree with the records, and
  `Cache.needsRefresh_iff`, what they say then;
* `Trace.dates`, the times of the installations, and `Trace.Latest`, the last of them;
* `Visit.Advance.due`, `Visit.Advance.work` and `Visit.Advance.commits_le`, what one step does;
* `Session.Dating`, `Session.Due` and `Session.Spaced`, the invariants;
* `Session.freshness_agrees`, all of it for every session.
-/

set_option autoImplicit false

namespace DriveDelta

/-! ## The fields and the records -/

namespace Cache

/-- What a cache says of its age agrees with its records. -/
structure Content.Booked (k : Content) : Prop where
  populated_eq : k.populated = !k.records.isEmpty
  isSome_iff : k.lastRefresh.isSome = true ↔ 0 < k.commits
  isSome_of_records : k.records ≠ [] → k.lastRefresh.isSome = true

theorem booked_commit (c : Cache) (l : Listing) (now : Nat) :
    (c.commit l now).1.content.Booked :=
  ⟨rfl, by simp [commit, content], fun _ => rfl⟩

/-- A cache is stale while it has no records, and when its interval has passed since the last
installation. -/
theorem needsRefresh_iff {c : Cache} (h : c.content.Booked) (t : Nat) :
    c.needsRefresh t = true ↔
      c.records = [] ∨
        ∃ last, c.lastRefresh = some last ∧ c.options.refreshInterval < t - last := by
  have hp : c.populated = !c.records.isEmpty := h.populated_eq
  rw [needsRefresh, hp, Bool.not_not, Bool.or_eq_true, List.isEmpty_iff]
  refine or_congr_right' fun hne => ?_
  obtain ⟨last, hl⟩ := Option.isSome_iff_exists.1 (h.isSome_of_records hne)
  have hlast : c.lastRefresh = some last := hl
  simp [hlast]

end Cache

/-! ## Installations in a trace -/

namespace Trace

/-- The times of the installations, in order. -/
def dates (trace : List Stamp) : List Nat :=
  trace.filterMap fun x => x.effect.installed?.map fun _ => x.time

/-- The last installation was made at this time and left these records. -/
def Latest (trace : List Stamp) (t : Nat) (rs : Records) : Prop :=
  ∃ before v l rest, trace = before ++ ⟨v, t, .installed l rs⟩ :: rest ∧ installs rest = []

theorem dates_append (tr tr' : List Stamp) : dates (tr ++ tr') = dates tr ++ dates tr' :=
  List.filterMap_append

theorem dates_stamps (v t : Nat) (effects : List Visit.Effect) :
    dates (effects.map (Stamp.mk v t)) = (effects.filterMap (·.installed?)).map fun _ => t := by
  rw [dates, List.filterMap_map, List.map_filterMap]
  rfl

theorem Latest.append {tr new : List Stamp} {t : Nat} {rs : Records} (h : Latest tr t rs)
    (hnew : installs new = []) : Latest (tr ++ new) t rs := by
  obtain ⟨before, v, l, rest, rfl, hrest⟩ := h
  exact ⟨before, v, l, rest ++ new, by simp, by rw [installs_append, hrest, hnew]; rfl⟩

theorem not_installed_of_installs {tr : List Stamp} (h : installs tr = []) {x : Stamp}
    (hx : x ∈ tr) (l : Listing) (rs : Records) : x.effect ≠ .installed l rs := by
  intro he
  have := List.filterMap_eq_nil_iff.1 h x hx
  rw [he] at this
  exact absurd this (by simp [Visit.Effect.installed?])

/-- An installation is the last one, or the last one comes later. -/
theorem Latest.cases {tr before rest : List Stamp} {v t t' : Nat} {l : Listing} {rs rs' : Records}
    (h : Latest tr t' rs') (hsplit : tr = before ++ ⟨v, t, .installed l rs⟩ :: rest) :
    (t = t' ∧ rs = rs') ∨ ∃ w l', ⟨w, t', .installed l' rs'⟩ ∈ rest := by
  obtain ⟨before', w, l', rest', rfl, hrest⟩ := h
  rcases List.append_eq_append_iff.1 hsplit with ⟨mid, rfl, hmid⟩ | ⟨mid, rfl, hmid⟩
  · cases mid with
    | nil =>
      obtain ⟨hx, -⟩ := List.cons.inj hmid
      obtain ⟨-, rfl, he⟩ := Stamp.mk.inj hx
      exact .inl ⟨rfl, (Visit.Effect.installed.inj he).2.symm⟩
    | cons y mid =>
      -- it would come after the last one
      obtain ⟨-, rfl⟩ := List.cons.inj hmid
      have hmem : ⟨v, t, .installed l rs⟩ ∈ mid ++ ⟨v, t, .installed l rs⟩ :: rest := by simp
      exact absurd rfl (not_installed_of_installs hrest hmem l rs)
  · cases mid with
    | nil =>
      obtain ⟨hx, -⟩ := List.cons.inj hmid
      obtain ⟨-, rfl, he⟩ := Stamp.mk.inj hx
      exact .inl ⟨rfl, (Visit.Effect.installed.inj he).2⟩
    | cons y mid =>
      obtain ⟨-, rfl⟩ := List.cons.inj hmid
      exact .inr ⟨w, l', by simp⟩

end Trace

/-! ## One step -/

/-- Whether an effect asks for a page or installs a listing. -/
def Visit.Effect.isWork : Visit.Effect → Bool
  | .asked _ | .installed .. => true
  | _ => false

/-- A refresh that ends asks for nothing more. -/
theorem Refresh.Advance.not_asked {c c' : Cache} {v since now : Nat} {status : Option CancelReason}
    {inc : Option Incoming} {stage : Stage} {outcome : Except Error Unit}
    {effects : List Visit.Effect}
    (h : Advance c v since now status inc stage (.ended c' outcome effects))
    (cursor : Option String) : .asked cursor ∉ effects := by
  cases h <;> simp [taken, installation]

namespace Visit

variable {p : Purpose} {c : Cache} {v now : Nat} {status : Option CancelReason}
  {inc : Option Refresh.Incoming} {phase : Phase} {r : Step}

/-- Who has done with refreshing, or never began to, does none of its work. -/
theorem isWork_afterRefresh {c' : Cache} {outcome : Except Error Unit} {effects : List Effect}
    (h : ∀ x ∈ effects, x.isWork = false) :
    ∀ x ∈ (afterRefresh p c' v outcome effects).effects, x.isWork = false := by
  obtain ⟨line, ph, told, -, he⟩ := afterRefresh_frame p c' v outcome effects
  rw [he]
  intro x hx
  rcases List.mem_append.1 hx with hx | hx
  · exact h x hx
  · rcases List.mem_cons.1 hx with rfl | hx
    · rfl
    · obtain ⟨e, -, rfl⟩ := List.mem_map.1 hx
      rfl

/-- Only who refreshes asks for pages and installs listings. -/
theorem Advance.work (h : Advance p c v now status inc phase r) {x : Effect} (hx : x ∈ r.effects)
    (hw : x.isWork = true) : ∃ since stage, phase = .refreshing since stage := by
  have hout : ∀ (c' : Cache) (outcome : Except Error Unit) (effects : List Effect),
      (∀ y ∈ effects, y.isWork = false) →
      x ∉ (afterRefresh p c' v outcome effects).effects := fun c' outcome effects hno hm =>
    absurd (hw.symm.trans (isWork_afterRefresh hno x hm)) (by simp)
  cases h with
  | proceeded | ended => exact ⟨_, _, rfl⟩
  | withdrew | shared | spared => exact absurd hx (hout _ _ _ (by simp [Effect.isWork]))
  | dropped | read => exact absurd hx List.not_mem_nil
  | lined | approached | answered | began =>
    simp only [toQueue, toReading, List.mem_cons, List.not_mem_nil, or_false] at hx
    rcases hx with rfl | rfl <;> exact absurd hw (by simp [Effect.isWork])

/-- Who installs a listing does so once, and does no other work after it. -/
theorem Advance.work_of_installed (h : Advance p c v now status inc phase r)
    {before rest : List Effect} {l : Listing} {rs : Records}
    (he : r.effects = before ++ .installed l rs :: rest) : ∀ x ∈ rest, x.isWork = false := by
  have hm : .installed l rs ∈ r.effects := by simp [he]
  rcases h.content with ⟨hno, -⟩ | ⟨since, stage, l', before', rest', -, hy, -, -, heff, hno⟩
  · exact absurd hm (hno l rs)
  obtain ⟨-, -, rfl⟩ := (List.append_cons_inj_of_notMem (hy.not_installed _ _) (hno _ _)).1
    (heff.symm.trans he)
  rcases h.frame with ⟨_, _, c', outcome, effects, -, hr, rfl⟩ | ⟨hno', -⟩
  · obtain ⟨line, ph, told, -, hend⟩ := endRefresh_frame p c' v outcome effects
    intro x hx
    cases x with
    | installed l₀ rs₀ => exact absurd hx (hno l₀ rs₀)
    | asked cursor =>
      have hmem : .asked cursor ∈ (endRefresh p c' v outcome effects).effects := by
        rw [he]
        exact List.mem_append_right _ (List.mem_cons_of_mem _ hx)
      rw [hend] at hmem
      exact absurd (by simpa using hmem) (hr.not_asked cursor)
    | _ => rfl
  · exact absurd rfl ((hno' _ hm).2 l rs)

/-- Who begins to refresh has found the cache stale. -/
theorem Advance.due (h : Advance p c v now status inc phase r)
    (hp : ∀ since stage, phase ≠ .refreshing since stage) {since : Nat} {stage : Refresh.Stage}
    (hr : r.phase = .refreshing since stage) :
    since = now ∧ c.needsRefresh now = true ∧ r.cache.content = c.content := by
  obtain ⟨seen, rfl, -, hc, -, -⟩ := h.begins hp hr
  cases h with
  | withdrew | shared | spared =>
    exact absurd hr ((afterRefresh_settled _ _ _ _ _).ne_refreshing since stage)
  | began hl heq hf => exact ⟨(Phase.refreshing.inj hr).1.symm, hf, hc⟩

/-- Every installation is one of the outcomes that are counted. -/
theorem Advance.commits_le (h : Advance p c v now status inc phase r)
    (hle : c.commits ≤ c.attempts) : r.cache.commits ≤ r.cache.attempts := by
  rcases h.frame with ⟨since, stage, c', outcome, effects, -, hr, rfl⟩ | ⟨-, hat, -, hk⟩
  · obtain ⟨line, ph, told, -, he⟩ := endRefresh_frame p c' v outcome effects
    rw [he]
    show (c'.record outcome).commits ≤ (c'.record outcome).attempts
    rcases hr.ended_cases with ⟨e, -, rfl, -⟩ | ⟨l, before, -, rfl, rfl, -⟩
    · rw [Cache.record]
      split
      · exact Nat.le_succ_of_le hle
      · exact hle
    · rw [Cache.record, if_pos (carriedThrough_commit c l now).isShareable]
      exact Nat.succ_le_succ hle
  · rw [hat]
    exact (congrArg Cache.Content.commits hk).trans_le hle

end Visit

/-! ## Every session -/

namespace Session

open Trace Visit

variable {purpose : Nat → Purpose} {s s' : Session} {m : Move} {v : Nat}

/-- The cache and the trace agree about the installations. -/
structure Dating (s : Session) : Prop where
  booked : s.cache.content.Booked
  lastRefresh_eq : s.cache.lastRefresh = (dates s.trace).getLast?
  commits_eq : s.cache.commits = (dates s.trace).length
  latest : ∀ t, s.cache.lastRefresh = some t → Latest s.trace t s.cache.records
  ordered : (dates s.trace).Pairwise (· ≤ ·)
  commits_le : s.cache.commits ≤ s.cache.attempts
  past : ∀ x ∈ s.trace, x.time ≤ s.now

theorem dating_opening {container : String} {options : CacheOptions} {c : Cache}
    (hc : Cache.new? container options = .ok c) : Dating (opening c) := by
  rw [Cache.eq_of_new? hc]
  exact ⟨⟨rfl, by simp [opening, Cache.content], by simp [opening, Cache.content]⟩, rfl, rfl,
    by simp [opening], List.Pairwise.nil, Nat.le_refl _, by simp [opening]⟩

theorem mem_of_mem_dates {tr : List Stamp} {t : Nat} (h : t ∈ dates tr) :
    ∃ x ∈ tr, x.time = t := by
  obtain ⟨x, hx, he⟩ := List.mem_filterMap.1 h
  obtain ⟨l, -, rfl⟩ := Option.map_eq_some_iff.1 he
  exact ⟨x, hx, rfl⟩

theorem Dating.step (h : Dating s) (hs : s.step purpose m = some s') : Dating s' := by
  rcases step_cases hs with ⟨v, status, inc, r, -, ha, rfl⟩ | ⟨span, -, rfl⟩
  · have hpast : ∀ x ∈ (s.after v r).trace, x.time ≤ s.now := by
      intro x hx
      rcases mem_after_trace.1 hx with hx | ⟨-, ht, -⟩
      · exact h.past x hx
      · exact Nat.le_of_eq ht
    have hle := ha.commits_le h.commits_le
    rcases ha.content with ⟨hno, hk⟩ | ⟨since, stage, l, before, rest, -, hy, -, hk, heff, hno⟩
    · have hnone := installed?_eq_nil hno
      have hdates : dates (s.after v r).trace = dates s.trace := by
        rw [after, dates_append, dates_stamps, hnone, List.map_nil, List.append_nil]
      obtain ⟨-, hr, -, -, hl, hcommits⟩ := Cache.Content.mk.inj hk
      refine ⟨by rw [after, hk]; exact h.booked, ?_, ?_, fun t ht => ?_, hdates ▸ h.ordered, hle,
        hpast⟩
      · rw [hdates, ← h.lastRefresh_eq]
        exact hl
      · rw [hdates, ← h.commits_eq]
        exact hcommits
      · have hnew : installs (r.effects.map (Stamp.mk v s.now)) = [] := by
          rw [installs_stamps, hnone]
        have hlatest := (h.latest t (hl.symm.trans ht)).append hnew
        simpa only [after, hr] using hlatest
    · have hone : r.effects.filterMap (·.installed?) = [l] := by
        rw [heff, List.filterMap_append, installed?_eq_nil hy.not_installed, List.filterMap_cons,
          installed?_eq_nil hno]
        rfl
      have hdates : dates (s.after v r).trace = dates s.trace ++ [s.now] := by
        rw [after, dates_append, dates_stamps, hone]
        rfl
      obtain ⟨-, hr, -, -, hl, hcommits⟩ := Cache.Content.mk.inj hk
      refine ⟨by rw [after, hk]; exact Cache.booked_commit _ _ _, ?_, ?_, fun t ht => ?_, ?_, hle,
        hpast⟩
      · rw [hdates, List.getLast?_concat]
        exact hl
      · rw [hdates, List.length_append, ← h.commits_eq]
        exact hcommits
      · obtain rfl : s.now = t := Option.some_inj.1 (hl.symm.trans ht)
        have hrs : (s.after v r).cache.records = (s.cache.commit l s.now).1.records := hr
        rw [hrs]
        refine ⟨s.trace ++ before.map (Stamp.mk v s.now), v, l, rest.map (Stamp.mk v s.now), ?_, ?_⟩
        · simp [after, heff]
        · rw [installs_stamps, installed?_eq_nil hno]
      · rw [hdates, List.pairwise_append]
        refine ⟨h.ordered, List.pairwise_singleton _ _, fun t ht t' ht' => ?_⟩
        obtain ⟨x, hx, rfl⟩ := mem_of_mem_dates ht
        rw [List.mem_singleton.1 ht']
        exact h.past x hx
  · exact ⟨h.booked, h.lastRefresh_eq, h.commits_eq, h.latest, h.ordered, h.commits_le,
      fun x hx => (h.past x hx).trans (Nat.le_add_right _ _)⟩

/-- Who refreshes began to when the interval since the last installation was over, unless that had
left no records. -/
def Due (s : Session) : Prop :=
  ∀ v since stage, s.phase v = .refreshing since stage → since ≤ s.now ∧
    (s.cache.records ≠ [] → ∀ t, s.cache.lastRefresh = some t →
      t + s.cache.options.refreshInterval < since)

theorem Due.step (h : Due s) (hd : Dating s) (hk : Kept s) (hs : s.step purpose m = some s') :
    Due s' := by
  rcases step_cases hs with ⟨u, status, inc, r, -, ha, rfl⟩ | ⟨span, -, rfl⟩
  · -- as long as what the cache knows is what it was, what has been due stays due
    have hsame : ∀ since, r.cache.content = s.cache.content →
        (s.cache.records ≠ [] → ∀ t, s.cache.lastRefresh = some t →
          t + s.cache.options.refreshInterval < since) →
        r.cache.records ≠ [] → ∀ t, r.cache.lastRefresh = some t →
          t + r.cache.options.refreshInterval < since := by
      intro since hc hdue hne t ht
      obtain ⟨ho, hr, -, -, hl, -⟩ := Cache.Content.mk.inj hc
      have hlt := hdue (hr ▸ hne) t (hl ▸ ht)
      exact (congrArg (t + ·.refreshInterval) ho).trans_lt hlt
    intro w since stage hw
    rcases eq_or_ne w u with rfl | hne
    · rw [phase_after_self] at hw
      by_cases hre : ∃ since stage, s.phase w = .refreshing since stage
      · obtain ⟨since₀, stage₀, hph⟩ := hre
        have hc := ha.content_of_refreshing hw
        rcases ha.refreshing_cases hw with ⟨seen, hq, -⟩ | ⟨stage₁, c', effects, hold, -⟩
        · exact absurd (hq.symm.trans hph) (by simp)
        · obtain ⟨hle, hdue⟩ := h w since stage₁ hold
          exact ⟨hle, hsame since hc hdue⟩
      · obtain ⟨rfl, hstale, hc⟩ := ha.due (fun since stage hph => hre ⟨since, stage, hph⟩) hw
        refine ⟨Nat.le_refl _, hsame s.now hc fun hrecords t ht => ?_⟩
        rcases (Cache.needsRefresh_iff hd.booked s.now).1 hstale with hnil | ⟨last, hlast, hlt⟩
        · exact absurd hnil hrecords
        · obtain rfl := Option.some_inj.1 (ht.symm.trans hlast)
          omega
    · rw [phase_after_of_ne hne] at hw
      obtain ⟨hle, hdue⟩ := h w since stage hw
      refine ⟨hle, hsame since ?_ hdue⟩
      exact ha.content_of_not_refreshing fun _ _ hu => hne (hk.orderly.refreshing_unique hw hu)
  · exact fun w since stage hw => ⟨(h w since stage hw).1.trans (Nat.le_add_right _ _),
      (h w since stage hw).2⟩

/-- Once an installation has left records nobody refreshes before its interval is over. -/
def Spaced (interval : Nat) (s : Session) : Prop :=
  ∀ v t l rs before rest, s.trace = before ++ ⟨v, t, .installed l rs⟩ :: rest → rs ≠ [] →
    ∀ x ∈ rest, x.effect.isWork = true → t + interval < x.time

theorem Spaced.step (h : Spaced s.cache.options.refreshInterval s) (hd : Dating s) (hdue : Due s)
    (hs : s.step purpose m = some s') : Spaced s.cache.options.refreshInterval s' := by
  rcases step_cases hs with ⟨u, status, inc, r, -, ha, rfl⟩ | ⟨span, -, rfl⟩
  · intro v t l rs before rest hsplit hne x hx hwork
    rcases after_trace_split hsplit with ⟨rest', hold, rfl⟩ | ⟨pre, post, heff, rfl, rfl, -, rfl⟩
    · rcases List.mem_append.1 hx with hx | hx
      · exact h v t l rs before rest' hold hne x hx hwork
      · obtain ⟨e, he, rfl⟩ := List.mem_map.1 hx
        -- who works now began to when the last installation was due to be renewed
        obtain ⟨since, stage, hu⟩ := ha.work he hwork
        obtain ⟨hsince, hlt⟩ := hdue u since stage hu
        have hdates : t ∈ dates s.trace := by
          rw [hold, dates_append]
          exact List.mem_append_right _ List.mem_cons_self
        obtain ⟨last, hlast⟩ : ∃ last, s.cache.lastRefresh = some last := by
          refine Option.isSome_iff_exists.1 (hd.booked.isSome_iff.2 ?_)
          exact (List.length_pos_of_mem hdates).trans_eq hd.commits_eq.symm
        rcases (hd.latest last hlast).cases hold with ⟨rfl, rfl⟩ | ⟨w, l', hlater⟩
        · exact (hlt hne t hlast).trans_le hsince
        · exact (h v t l rs before rest' hold hne _ hlater rfl).trans_le
            (hd.past _ (by simp [hold, hlater]))
    · obtain ⟨e, he, rfl⟩ := List.mem_map.1 hx
      exact absurd hwork (by simp [ha.work_of_installed heff e he])
  · exact h

theorem options_of_step (hs : s.step purpose m = some s') : s'.cache.options = s.cache.options := by
  rcases step_cases hs with ⟨u, status, inc, r, -, ha, rfl⟩ | ⟨span, -, rfl⟩
  · exact ha.options_eq
  · rfl

/-- **What a cache says of its age agrees with its records.**  However the visits take their turns,
whatever the answers to their requests, whenever contexts are done, and in either mode:

* the cache is stale exactly while it has no records, and when more than the refresh interval has
  passed since the last refresh that it knows of;
* it knows of one when it has counted one, it knows the time of the last, and it has counted no more
  of them than there were outcomes to share;
* the times of the installations never decrease, and after an installation that has left records
  pages are asked for, and listings installed, only when the refresh interval is over. -/
theorem freshness_agrees {container : String} {options : CacheOptions} {c : Cache} {ms : List Move}
    (hc : Cache.new? container options = .ok c) (h : (opening c).run purpose ms = some s) :
    (∀ t, s.cache.needsRefresh t = true ↔
      s.cache.records = [] ∨
        ∃ last, s.cache.lastRefresh = some last ∧ options.refreshInterval < t - last) ∧
    (s.cache.lastRefresh.isSome = true ↔ 0 < s.cache.commits) ∧
    s.cache.lastRefresh = (dates s.trace).getLast? ∧
    s.cache.commits = (dates s.trace).length ∧
    s.cache.commits ≤ s.cache.attempts ∧
    (dates s.trace).Pairwise (· ≤ ·) ∧
    ∀ v t l rs before rest, s.trace = before ++ ⟨v, t, .installed l rs⟩ :: rest → rs ≠ [] →
      ∀ x ∈ rest, x.effect.isWork = true → t + options.refreshInterval < x.time := by
  obtain ⟨-, hd, -, ho, hspaced⟩ : Kept s ∧ Dating s ∧ Due s ∧ s.cache.options = options ∧
      Spaced s.cache.options.refreshInterval s := by
    refine run_induction (P := fun s => Kept s ∧ Dating s ∧ Due s ∧ s.cache.options = options ∧
      Spaced s.cache.options.refreshInterval s) h
      ⟨kept_opening hc, dating_opening hc, ?_, ?_, ?_⟩ ?_
    · exact fun v since stage hv => absurd hv (by simp [opening])
    · rw [Cache.eq_of_new? hc]
      rfl
    · exact fun v t l rs before rest hsplit => absurd hsplit (by simp [opening])
    · rintro m hm t t' ⟨hk, hd, hdue, ho, hspaced⟩ hs
      exact ⟨hk.step hs, hd.step hs, hdue.step hd hk hs, (options_of_step hs).trans ho,
        options_of_step hs ▸ hspaced.step hd hdue hs⟩
  subst ho
  exact ⟨fun t => Cache.needsRefresh_iff hd.booked t, hd.booked.isSome_iff, hd.lastRefresh_eq,
    hd.commits_eq, hd.commits_le, hd.ordered, hspaced⟩

/-- A listing of one file is installed at the beginning.  Two seconds later, when the interval of
one second is over, the cache is stale, and another visit asks for the changes since. -/
theorem freshness_agrees_renewed :
    ∃ c s before l rs rest, Cache.new? "drive" { refreshInterval := Nanos.second } = .ok c ∧
      (opening c).run (fun _ => .lookup "a")
        [.turn 0 none none, .turn 0 none none, .turn 0 none none,
          .turn 0 none (some ⟨.ok { items := [.file "a" "u"], cursor := some "d" }, none⟩),
          .turn 0 none none, .pass (2 * Nanos.second), .turn 1 none none, .turn 1 none none,
          .turn 1 none none] = some s ∧
      s.trace = before ++ ⟨0, 0, .installed l rs⟩ :: rest ∧ rs ≠ [] ∧
      ⟨1, 2 * Nanos.second, .asked (some "d")⟩ ∈ rest ∧ 0 + Nanos.second < 2 * Nanos.second ∧
      s.cache.needsRefresh Nanos.second = false ∧
      s.cache.needsRefresh (2 * Nanos.second) = true := by
  have hc : Cache.new? "drive" { refreshInterval := Nanos.second }
      = .ok { container := "drive", options := { refreshInterval := Nanos.second } } := rfl
  obtain ⟨s, hs, hsplit, hasked, hrecords, hlast⟩ : ∃ s,
      (opening { container := "drive", options := { refreshInterval := Nanos.second } }).run
        (fun _ => .lookup "a")
        [.turn 0 none none, .turn 0 none none, .turn 0 none none,
          .turn 0 none (some ⟨.ok { items := [.file "a" "u"], cursor := some "d" }, none⟩),
          .turn 0 none none, .pass (2 * Nanos.second), .turn 1 none none, .turn 1 none none,
          .turn 1 none none] = some s ∧
      s.trace = s.trace.take 6 ++ ⟨0, 0, .installed ⟨[.file "a" "u"], some "d", true, 1⟩
        [("a", { id := "a", accessLocator := some "u" })]⟩ :: s.trace.drop 7 ∧
      (s.trace.drop 7)[7]? = some ⟨1, 2 * Nanos.second, .asked (some "d")⟩ ∧
      s.cache.records = [("a", { id := "a", accessLocator := some "u" })] ∧
      s.cache.lastRefresh = some 0 :=
    ⟨_, rfl, rfl, rfl, rfl, rfl⟩
  obtain ⟨hstale, -, -, -, -, -, hspaced⟩ := freshness_agrees hc hs
  have hmem := List.mem_of_getElem? hasked
  refine ⟨_, s, _, _, _, _, hc, hs, hsplit, by simp, hmem,
    hspaced _ _ _ _ _ _ hsplit (by simp) _ hmem rfl, ?_, ?_⟩
  · refine Bool.eq_false_iff.2 fun hn => ?_
    rcases (hstale _).1 hn with hnil | ⟨last, hl, hlt⟩
    · exact absurd (hrecords.symm.trans hnil) (by simp)
    · obtain rfl := Option.some_inj.1 (hlast.symm.trans hl)
      exact absurd hlt (by simp)
  · exact (hstale _).2 (.inr ⟨0, hlast, by decide⟩)

end Session

end DriveDelta
