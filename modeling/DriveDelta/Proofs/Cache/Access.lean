import DriveDelta.Proofs.Cache.Trace

/-!
# The line at the records

The records have a lock of their own.  Who looks something up reads them, and a refresh writes them:
in exclusive mode from its first page to its end, in shadow mode only when it installs what it has
fetched.  In every session the line at this lock holds exactly the visits that want the records, and
who installs a listing is first in it, so nobody installs anything while somebody reads.

## What is here

* `Queue.holds_append`, `Queue.holds_leave` and `Queue.holds_of_readers`: who has a lock keeps it,
  whoever else comes and goes, and where all are readers each of them has it;
* `Visit.Phase.access`, what a visit wants from the records;
* `Visit.Guarded`, the invariant of the line, kept by every step (`Visit.Advance.guarded`), and
  `Session.guarded_of_run`, which says that it holds in every session;
* `Visit.Advance.first_of_installed` and `Visit.Advance.content_of_reader`, what it is for.
-/

set_option autoImplicit false

namespace DriveDelta

/-! ## Who keeps a lock -/

namespace Queue

variable {q rest : Queue} {u v : Nat}

/-- Who comes later takes the lock from nobody. -/
theorem holds_append (h : q.holds u = true) : (q ++ rest).holds u = true := by
  rw [holds_iff] at h ⊢
  rcases h with hh | ⟨before, after, rfl, hr⟩
  · refine .inl ?_
    rw [List.head?_append, hh]
    rfl
  · exact .inr ⟨before, after ++ rest, by simp, hr⟩

/-- Who leaves the line takes the lock from nobody else. -/
theorem holds_leave (h : q.holds u = true) (hne : u ≠ v) : (q.leave v).holds u = true := by
  rw [holds_iff] at h ⊢
  rcases h with hh | ⟨before, after, rfl, hr⟩
  · exact .inl (head?_leave hh hne)
  · refine .inr ⟨leave before v, leave after v, ?_, fun x hx => hr x (mem_leave.1 hx).1⟩
    rw [leave, List.filter_append, List.filter_cons_of_pos (by simpa using hne)]
    rfl

/-- Where all are readers, each of them has the lock. -/
theorem holds_of_readers (h : ∀ x ∈ q, x.2 = .read) (hu : (u, .read) ∈ q) : q.holds u = true := by
  obtain ⟨before, after, rfl⟩ := List.append_of_mem hu
  exact holds_iff.2 (.inr ⟨before, after, rfl, fun x hx => h x (List.mem_append_left _ hx)⟩)

/-- Where a reader has the lock, no writer is first. -/
theorem head?_ne_of_reader {want : Nat → Option Access} (h : q.Serves want)
    (hu : want u = some .read) (hl : q.holds u = true) : q.head? ≠ some (v, .write) := by
  intro hh
  rcases holds_iff.1 hl with hu' | ⟨before, after, rfl, hr⟩
  · have := (h.mem_iff u .write).1 (List.mem_of_mem_head? hu')
    rw [hu] at this
    exact absurd this (by simp)
  · cases before with
    | nil => exact absurd hh (by simp)
    | cons x before =>
      rw [List.cons_append, List.head?_cons, Option.some_inj] at hh
      have := hr x List.mem_cons_self
      rw [hh] at this
      exact absurd this (by simp)

end Queue

/-! ## What visits want from the records -/

namespace Refresh

/-- What a refresh wants from the records at a stage. -/
def Stage.access (strategy : RefreshStrategy) : Stage → Option Access
  | .claiming | .installing _ => some .write
  | .peeking => some .read
  | .fetching _ =>
    match strategy with
    | .exclusive => some .write
    | .shadow => none

/-- A refresh claims the records before its first page in exclusive mode only, and peeks at the
cursor, and installs apart from its last page, in shadow mode only. -/
def Stage.Fits (strategy : RefreshStrategy) : Stage → Prop
  | .claiming => strategy = .exclusive
  | .peeking | .installing _ => strategy = .shadow
  | .fetching _ => True

end Refresh

namespace Visit

/-- What a visit wants from the records. -/
def Phase.access (strategy : RefreshStrategy) : Phase → Option Access
  | .refreshing _ stage => stage.access strategy
  | .reading => some .read
  | .arriving | .queued _ | .finished _ => none

/-- The line at the records agrees with where the visits stand. -/
structure Guarded (line : Queue) (strategy : RefreshStrategy) (phase : Nat → Phase) : Prop where
  serves : line.Serves fun v => (phase v).access strategy
  fits : ∀ v since stage, phase v = .refreshing since stage → stage.Fits strategy
  /-- In exclusive mode, who fetches has the records to itself. -/
  head : ∀ v since round, strategy = .exclusive → phase v = .refreshing since (.fetching round) →
    line.head? = some (v, .write)

theorem guarded_start (strategy : RefreshStrategy) : Guarded [] strategy fun _ => .arriving :=
  ⟨Queue.serves_nil, by simp, by simp⟩

variable {line line' : Queue} {strategy : RefreshStrategy} {phase : Nat → Phase} {v : Nat}
  {ph : Phase}

namespace Guarded

/-- One visit goes on, and the others keep their places. -/
theorem update (h : Guarded line strategy phase)
    (hs : line'.Serves
      (Function.update (fun w => (phase w).access strategy) v (ph.access strategy)))
    (hothers : ∀ w, w ≠ v → line.head? = some (w, .write) → line'.head? = some (w, .write))
    (hfits : ∀ since stage, ph = .refreshing since stage → stage.Fits strategy)
    (hhead : ∀ since round, strategy = .exclusive → ph = .refreshing since (.fetching round) →
      line'.head? = some (v, .write)) :
    Guarded line' strategy (Function.update phase v ph) := by
  refine ⟨?_, fun w since stage hw => ?_, fun w since round hx hw => ?_⟩
  · have hcomp : (fun w => (Function.update phase v ph w).access strategy)
        = Function.update (fun w => (phase w).access strategy) v (ph.access strategy) :=
      Function.comp_update (Phase.access strategy) phase v ph
    rwa [hcomp]
  · rcases eq_or_ne w v with rfl | hne
    · rw [Function.update_self] at hw
      exact hfits since stage hw
    · rw [Function.update_of_ne hne] at hw
      exact h.fits w since stage hw
  · rcases eq_or_ne w v with rfl | hne
    · rw [Function.update_self] at hw
      exact hhead since round hx hw
    · rw [Function.update_of_ne hne] at hw
      exact hothers w hne (h.head w since round hx hw)

/-- A visit goes on wanting what it wanted. -/
theorem stay (h : Guarded line strategy phase)
    (hph : ph.access strategy = (phase v).access strategy)
    (hfits : ∀ since stage, ph = .refreshing since stage → stage.Fits strategy)
    (hhead : ∀ since round, strategy = .exclusive → ph = .refreshing since (.fetching round) →
      line.head? = some (v, .write)) : Guarded line strategy (Function.update phase v ph) := by
  refine h.update ?_ (fun w _ hw => hw) hfits hhead
  rw [hph]
  exact (Function.update_eq_self v fun w => (phase w).access strategy).symm ▸ h.serves

/-- A visit that wants nothing gets in line. -/
theorem join (h : Guarded line strategy phase) {a : Access}
    (hv : (phase v).access strategy = none) (hph : ph.access strategy = some a)
    (hfits : ∀ since stage, ph = .refreshing since stage → stage.Fits strategy)
    (hno : ∀ since round, ph ≠ .refreshing since (.fetching round)) :
    Guarded (line.join v a) strategy (Function.update phase v ph) := by
  refine h.update ?_ (fun w _ hw => Queue.head?_join hw) hfits
    fun since round _ he => absurd he (hno since round)
  rw [hph]
  exact h.serves.join hv

/-- A visit gives up its place, if it has one. -/
theorem leave (h : Guarded line strategy phase) (hph : ph.access strategy = none)
    (hno : ∀ since stage, ph ≠ .refreshing since stage) :
    Guarded (line.leave v) strategy (Function.update phase v ph) := by
  refine h.update ?_ (fun w hne hw => Queue.head?_leave hw hne)
    (fun since stage he => absurd he (hno since stage))
    fun since round _ he => absurd he (hno since _)
  rw [hph]
  exact h.serves.leave

end Guarded

/-! ## One step -/

variable {p : Purpose} {c c' : Cache} {now : Nat} {status : Option CancelReason}
  {inc : Option Refresh.Incoming} {r : Step}

/-- Who has done with refreshing gets in line to read, or is at its end. -/
theorem afterRefresh_line (p : Purpose) (c : Cache) (v : Nat) (outcome : Except Error Unit)
    (effects : List Effect) :
    ((afterRefresh p c v outcome effects).phase = .reading ∧
      (afterRefresh p c v outcome effects).cache
        = { c with accessors := c.accessors.join v .read }) ∨
    (∃ answer, (afterRefresh p c v outcome effects).phase = .finished answer) ∧
      (afterRefresh p c v outcome effects).cache = c := by
  rcases afterRefresh_cases p c v outcome effects with
    ⟨id, told, -, -, h⟩ | ⟨id, e, -, -, -, h⟩ | ⟨-, h⟩
  · exact .inl (by rw [h]; exact ⟨rfl, rfl⟩)
  · exact .inr (by rw [h]; exact ⟨⟨_, rfl⟩, rfl⟩)
  · exact .inr (by rw [h]; exact ⟨⟨_, rfl⟩, rfl⟩)

/-- A refresh that ends gives up its place in the line, and that is all it does to it. -/
theorem accessors_of_ended {since : Nat} {stage : Refresh.Stage} {outcome : Except Error Unit}
    {effects : List Effect}
    (hr : Refresh.Advance c v since now status inc stage (.ended c' outcome effects)) :
    (leave (c'.record outcome) v).accessors = c.accessors.leave v := by
  have hc : c'.accessors = c.accessors := by
    rcases hr.ended_cases with ⟨e, -, rfl, -⟩ | ⟨l, before, -, rfl, -⟩ <;> rfl
  rw [Visit.leave, Cache.record, ← hc]
  split <;> rfl

/-- What a visit does to the line at the records: it may leave, and it may join at the end. -/
theorem Advance.accessors {phase : Phase} (h : Advance p c v now status inc phase r) :
    ∃ line rest, (line = c.accessors ∨ line = c.accessors.leave v) ∧
      r.cache.accessors = line ++ rest := by
  have hout : ∀ (c' : Cache) (outcome : Except Error Unit) (effects : List Effect),
      c'.accessors = c.accessors.leave v →
      ∃ line rest, (line = c.accessors ∨ line = c.accessors.leave v) ∧
        (afterRefresh p c' v outcome effects).cache.accessors = line ++ rest := by
    intro c' outcome effects hc
    rcases afterRefresh_line p c' v outcome effects with ⟨-, he⟩ | ⟨-, he⟩
    · exact ⟨_, [(v, .read)], .inr rfl, by rw [he, ← hc]; rfl⟩
    · exact ⟨_, [], .inr rfl, by rw [he, hc, List.append_nil]⟩
  cases h with
  | lined | answered => exact ⟨_, [], .inl rfl, (List.append_nil _).symm⟩
  | approached => exact ⟨_, [(v, .read)], .inl rfl, rfl⟩
  | withdrew | shared | spared => exact hout _ _ _ rfl
  | began =>
    cases hs : c.options.strategy with
    | exclusive => exact ⟨_, [(v, .write)], .inl rfl, by simp [Refresh.begin, hs, Queue.join]⟩
    | shadow => exact ⟨_, [(v, .read)], .inl rfl, by simp [Refresh.begin, hs, Queue.join]⟩
  | proceeded hr =>
    cases hr with
    | claimed | continued => exact ⟨_, [], .inl rfl, (List.append_nil _).symm⟩
    | peeked => exact ⟨_, [], .inr rfl, (List.append_nil _).symm⟩
    | staged => exact ⟨_, [(v, .write)], .inl rfl, rfl⟩
  | @ended _ _ _ _ c' outcome effects hr =>
    exact hout _ _ _ (accessors_of_ended hr)
  | dropped | read => exact ⟨_, [], .inr rfl, (List.append_nil _).symm⟩

/-- Who has the records keeps them while others go on. -/
theorem Advance.holds_of_ne {phase : Phase} (h : Advance p c v now status inc phase r) {u : Nat}
    (hu : u ≠ v) (hl : c.accessors.holds u = true) : r.cache.accessors.holds u = true := by
  obtain ⟨line, rest, hline, he⟩ := h.accessors
  rw [he]
  refine Queue.holds_append ?_
  rcases hline with rfl | rfl
  · exact hl
  · exact Queue.holds_leave hl hu

theorem Advance.options_eq {phase : Phase} (h : Advance p c v now status inc phase r) :
    r.cache.options = c.options := by
  rcases h.content with ⟨-, hk⟩ | ⟨since, stage, l, before, rest, -, -, -, hk, -⟩ <;>
    exact congrArg Cache.Content.options hk

/-- Who has given up its place and done with refreshing gets in line anew, or is at its end. -/
theorem afterRefresh_guarded (h : Guarded line strategy phase)
    (hc : c.accessors = line.leave v) (p : Purpose) (outcome : Except Error Unit)
    (effects : List Effect) :
    Guarded (afterRefresh p c v outcome effects).cache.accessors strategy
      (Function.update phase v (afterRefresh p c v outcome effects).phase) := by
  rcases afterRefresh_line p c v outcome effects with ⟨hph, he⟩ | ⟨⟨answer, hph⟩, he⟩
  · have hl : Guarded (line.leave v) strategy (Function.update phase v .arriving) :=
      h.leave rfl (by simp)
    have hj : Guarded ((line.leave v).join v .read) strategy
        (Function.update (Function.update phase v .arriving) v .reading) :=
      hl.join (by rw [Function.update_self]; rfl) rfl (by simp) (by simp)
    rw [Function.update_idem] at hj
    rw [hph, he]
    simpa only [hc] using hj
  · rw [hph, he, hc]
    exact h.leave rfl (by simp)

/-- The line at the records goes on agreeing with where the visits stand. -/
theorem Advance.guarded (ha : Advance p c v now status inc (phase v) r)
    (h : Guarded c.accessors c.options.strategy phase) :
    Guarded r.cache.accessors r.cache.options.strategy (Function.update phase v r.phase) := by
  rw [ha.options_eq]
  generalize hv : phase v = old at ha
  cases ha with
  | lined => exact h.stay (by rw [hv]; rfl) (by simp [toQueue]) (by simp [toQueue])
  | approached => exact h.join (by rw [hv]; rfl) rfl (by simp [toReading]) (by simp [toReading])
  | answered => exact h.stay (by rw [hv]; rfl) (by simp) (by simp)
  | withdrew => exact afterRefresh_guarded h rfl p _ _
  | shared => exact afterRefresh_guarded h rfl p _ _
  | spared => exact afterRefresh_guarded h rfl p _ _
  | began =>
    cases hs : c.options.strategy with
    | exclusive =>
      rw [hs] at h
      have hj : Guarded (c.accessors.join v .write) .exclusive
          (Function.update phase v (.refreshing now .claiming)) :=
        h.join (by rw [hv]; rfl) rfl (by simp [Refresh.Stage.Fits]) (by simp)
      simpa [Refresh.begin, hs] using hj
    | shadow =>
      rw [hs] at h
      have hj : Guarded (c.accessors.join v .read) .shadow
          (Function.update phase v (.refreshing now .peeking)) :=
        h.join (by rw [hv]; rfl) rfl (by simp [Refresh.Stage.Fits]) (by simp)
      simpa [Refresh.begin, hs] using hj
  | @proceeded _ _ since stage stage' c' effects hr =>
    have hfit := h.fits v since stage hv
    cases hr with
    | claimed hl =>
      -- it has waited in line to write, and now is first
      have hx : c.options.strategy = .exclusive := hfit
      have hwrite : (phase v).access c.options.strategy = some .write := by rw [hv]; rfl
      refine h.stay ?_ (by simp [Refresh.Stage.Fits]) fun since round _ _ =>
        h.serves.head?_of_holds hwrite hl
      rw [hwrite, hx]
      rfl
    | peeked =>
      have hx : c.options.strategy = .shadow := hfit
      refine h.update ?_ (fun w hne hw => Queue.head?_leave hw hne) (by simp [Refresh.Stage.Fits])
        fun since round hx' _ => absurd (hx.symm.trans hx') (by simp)
      have hnone : Phase.access c.options.strategy (.refreshing since (.fetching (.start c.cursor)))
          = none := by
        rw [hx]
        rfl
      rw [hnone]
      exact h.serves.leave
    | continued =>
      exact h.stay (by rw [hv]; rfl) (by simp [Refresh.Stage.Fits]) fun _ _ hx _ =>
        h.head v since _ hx hv
    | staged hn hx =>
      refine h.join ?_ rfl (by simp [Refresh.Stage.Fits, hx]) (by simp)
      rw [hv, hx]
      rfl
  | @ended _ _ _ _ c' outcome effects hr =>
    exact afterRefresh_guarded h (accessors_of_ended hr) p _ _
  | dropped => exact h.leave rfl (by simp)
  | read => exact h.leave rfl (by simp)

/-- Who installs a listing is first in line, to write. -/
theorem Advance.first_of_installed (ha : Advance p c v now status inc (phase v) r)
    (h : Guarded c.accessors c.options.strategy phase) {l : Listing} {rs : Records}
    (hm : .installed l rs ∈ r.effects) : c.accessors.head? = some (v, .write) := by
  rcases ha.frame with ⟨since, stage, c', outcome, effects, hv, hr, rfl⟩ | ⟨hno, -⟩
  · obtain ⟨line, ph, told, -, he⟩ := endRefresh_frame p c' v outcome effects
    rw [he] at hm
    have hm' : .installed l rs ∈ effects := by simpa using hm
    cases hr with
    | abandoned | stopped | failed => simp [Refresh.taken] at hm'
    | completed hn hx => exact h.head v since _ hx hv
    | installed hl => exact h.serves.head?_of_holds (by rw [hv]; rfl) hl
  · exact absurd rfl ((hno _ hm).2 l rs)

/-- While somebody reads, nobody changes what the cache knows. -/
theorem Advance.content_of_reader (ha : Advance p c v now status inc (phase v) r)
    (h : Guarded c.accessors c.options.strategy phase) {u : Nat} (hu : phase u = .reading)
    (hl : c.accessors.holds u = true) : r.cache.content = c.content := by
  rcases ha.content with ⟨-, hk⟩ | ⟨since, stage, l, before, rest, -, -, -, -, heff, -⟩
  · exact hk
  · have hhead := ha.first_of_installed h (heff ▸ List.mem_append_right _ List.mem_cons_self)
    exact absurd hhead (Queue.head?_ne_of_reader h.serves (by rw [hu]; rfl) hl)

/-- Unless somebody refreshes only readers want the records, so each of them has them. -/
theorem Guarded.holds_of_reading (h : Guarded line strategy phase)
    (hno : ∀ w since stage, phase w ≠ .refreshing since stage) (hv : phase v = .reading) :
    line.holds v = true := by
  refine Queue.holds_of_readers ?_ ((h.serves.mem_iff v .read).2 (by rw [hv]; rfl))
  rintro ⟨w, a⟩ hx
  have hw := (h.serves.mem_iff w a).1 hx
  cases hph : phase w with
  | refreshing since stage => exact absurd hph (hno w since stage)
  | reading =>
    rw [hph] at hw
    exact (Option.some_inj.1 hw).symm
  | _ => rw [hph] at hw; exact absurd hw (by simp [Phase.access])

end Visit

namespace Session

variable {purpose : Nat → Visit.Purpose}

/-- The line at the records agrees with where the visits stand. -/
def Guarded (s : Session) : Prop :=
  Visit.Guarded s.cache.accessors s.cache.options.strategy s.phase

theorem guarded_opening {container : String} {options : CacheOptions} {c : Cache}
    (hc : Cache.new? container options = .ok c) : Guarded (opening c) := by
  rw [Cache.eq_of_new? hc]
  exact Visit.guarded_start _

theorem Guarded.step {s s' : Session} {m : Move} (h : Guarded s)
    (hs : s.step purpose m = some s') : Guarded s' := by
  rcases step_cases hs with ⟨v, status, inc, r, -, ha, rfl⟩ | ⟨span, -, rfl⟩
  · exact ha.guarded h
  · exact h

/-- In every session who installs a listing is first in the line at the records. -/
theorem guarded_of_run {container : String} {options : CacheOptions} {c : Cache} {s : Session}
    {ms : List Move} (hc : Cache.new? container options = .ok c)
    (h : (opening c).run purpose ms = some s) : Guarded s :=
  run_induction h (guarded_opening hc) fun _ _ _ _ hg hs => hg.step hs

end Session

end DriveDelta
