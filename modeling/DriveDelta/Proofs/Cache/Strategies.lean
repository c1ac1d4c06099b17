import DriveDelta.Proofs.Cache.Lone

/-!
# The two strategies, one visit after the other

The two strategies differ in the locks that a refresh holds while it waits for pages, and in what
readers do meanwhile.  When visits are made one after the other nobody ever is there meanwhile, so
that nobody can tell which strategy the cache has.

Errands are performed one after the other.  What they report is first shown to be a function of the
cache, the time and the script (`Errand.reports_eq_course`).  That function never asks for the
strategy (`Errand.course_using`).

## What is here

* `Errand`, something that is done while nothing else is, and `Errand.perform`;
* `Report`, what can be told after an errand, and `Errand.reports`;
* `Lull`, where a rehearsal stands between two errands, `Errand.after`, where it stands after one,
  and `Errand.course`, the reports that follow;
* `Cache.using`, a cache with another strategy;
* `Errand.strategies_agree`.
-/

set_option autoImplicit false

namespace DriveDelta

open Visit (Purpose)

/-! ## Errands -/

/-- Something that is done while nothing else is. -/
inductive Errand where
  | visit (recipe : Recipe) (purpose : Purpose)
  /-- Let the clock move on by a span. -/
  | wait (span : Nat)

/-- What can be told after an errand. -/
structure Report where
  /-- How the visit ended, if one was made. -/
  ending : Option (Ending Visit.Answer)
  now : Nat
  /-- The requests for pages so far. -/
  arrivals : List PageArrival
  records : Records
  cursor : Option String
  lastRefresh : Option Nat
  commits : Nat
  stale : Bool

/-- What can be told of a rehearsal. -/
def Run.report (r : Run.OfVisits) : Report where
  ending := r.endings.head?
  now := r.stage.now
  arrivals := r.shared.arrivals
  records := r.shared.cache.records
  cursor := r.shared.cache.cursor
  lastRefresh := r.shared.cache.lastRefresh
  commits := r.shared.cache.commits
  stale := r.shared.cache.needsRefresh r.stage.now

namespace Errand

def isVisit : Errand → Bool
  | visit .. => true
  | wait _ => false

/-- If a visit is made, its context is never done. -/
def Endless : Errand → Prop
  | visit recipe _ => recipe.Endless
  | wait _ => True

/-- Do an errand, in up to `fuel` steps. -/
def perform (fuel : Nat) (r : Run.OfVisits) : Errand → Run.OfVisits
  | visit recipe purpose =>
    Run.settle VisitTask.machine fuel ({ r with endings := [] }.start recipe { purpose })
  | wait span => { r with endings := [] }.wait VisitTask.machine span

/-- What can be told after each errand of a row. -/
def reports (fuel : Nat) : Run.OfVisits → List Errand → List Report
  | _, [] => []
  | r, e :: es => Run.report (e.perform fuel r) :: reports fuel (e.perform fuel r) es

end Errand

/-! ## What errands come to -/

/-- Where a rehearsal stands between two errands. -/
structure Lull where
  stage : Stage
  cache : Cache
  cues : List PageCue
  arrivals : List PageArrival := []
  /-- The number of the next visit. -/
  tasks : Nat := 0

namespace Lull

/-- A rehearsal that stands there. -/
structure Of (l : Lull) (r : Run.OfVisits) : Prop extends r.Rests where
  stage_eq : r.stage = l.stage
  shared_eq : r.shared = ⟨l.cache, .script l.cues, l.arrivals⟩
  tasks_eq : r.tasks = l.tasks

/-- Nobody uses the cache, and whatever is asked for is answered. -/
structure Calm (l : Lull) : Prop where
  free : l.cache.Free
  plain : ∀ cue ∈ l.cues, cue.Plain

/-- What can be told there after a visit that ended like this. -/
def report (l : Lull) (ending : Option (Ending Visit.Answer)) : Report where
  ending
  now := l.stage.now
  arrivals := l.arrivals
  records := l.cache.records
  cursor := l.cache.cursor
  lastRefresh := l.cache.lastRefresh
  commits := l.cache.commits
  stale := l.cache.needsRefresh l.stage.now

theorem Of.report_eq {l : Lull} {r : Run.OfVisits} (h : l.Of r) :
    Run.report r = l.report r.endings.head? := by
  rw [Run.report, report, h.stage_eq, h.shared_eq]

end Lull

namespace Errand

/-- What a visit comes to that is made then. -/
def stay (l : Lull) (purpose : Purpose) : Visit.Stay :=
  Visit.alone purpose l.cache l.stage.now l.cues

/-- Where a rehearsal stands after an errand. -/
def after (l : Lull) : Errand → Lull
  | visit _ purpose =>
    let y := stay l purpose
    { stage := ⟨y.finish, l.stage.forest.add none⟩
      cache := y.cache
      cues := y.cues
      arrivals := (y.depot l.cache l.arrivals).arrivals
      tasks := l.tasks + 1 }
  | wait span => { l with stage := l.stage.moveTo (l.stage.now + span) }

/-- How the visit ends, if one is made. -/
def ending (l : Lull) : Errand → Option (Ending Visit.Answer)
  | visit recipe purpose =>
    let y := stay l purpose
    some ⟨l.tasks, y.answer, y.finish, recipe.contextIn l.stage.forest⟩
  | wait _ => none

/-- The reports that follow. -/
def course : Lull → List Errand → List Report
  | _, [] => []
  | l, e :: es => (e.after l).report (e.ending l) :: course (e.after l) es

theorem isSome_ending (l : Lull) (e : Errand) : (e.ending l).isSome = e.isVisit := by
  cases e <;> rfl

theorem calm_after {l : Lull} (h : l.Calm) (e : Errand) : (e.after l).Calm := by
  cases e with
  | visit recipe purpose =>
    exact ⟨h.free.alone _ _ _,
      fun cue hcue => h.plain cue ((Visit.cues_alone_suffix _ _ _ _).subset hcue)⟩
  | wait span => exact ⟨h.free, h.plain⟩

/-- While nothing is going on only the clock moves. -/
theorem perform_wait {l : Lull} {r : Run.OfVisits} (h : l.Of r) (fuel span : Nat) :
    ((wait span).after l).Of ((wait span).perform fuel r) ∧
      ((wait span).perform fuel r).endings = [] := by
  have hready : r.ready = [] := h.ready_eq
  have hline : r.line = [] := h.line_eq
  have hwait : (wait span).perform fuel r
      = { r with endings := [], stage := r.stage.moveTo (r.stage.now + span) } := by
    rw [perform, Run.wait]
    simp [hready, hline, Run.gather]
  rw [hwait]
  refine ⟨⟨⟨h.turn_eq, hready, hline⟩, ?_, h.shared_eq, h.tasks_eq⟩, rfl⟩
  show r.stage.moveTo _ = l.stage.moveTo _
  rw [h.stage_eq]

/-- An errand comes to what the cache, the time and the script make of it. -/
theorem perform_eq {l : Lull} {r : Run.OfVisits} (h : l.Of r) (hl : l.Calm) {e : Errand}
    (he : e.Endless) :
    ∃ q n, (e.after l).Of q ∧ q.endings = (e.ending l).toList ∧
      ∀ fuel, n ≤ fuel → e.perform fuel r = q := by
  cases e with
  | visit recipe purpose =>
    obtain ⟨q, n, htasks, hend, hn⟩ :=
      h.toRests.settle_start h.shared_eq hl.free hl.plain he purpose
    rw [h.stage_eq, h.tasks_eq] at hend
    refine ⟨q, n, ⟨hend.toRests, hend.stage_eq, hend.shared_eq, ?_⟩, hend.endings_eq, hn⟩
    rw [htasks, h.tasks_eq]
    rfl
  | wait span =>
    -- it takes no steps at all
    obtain ⟨hof, hendings⟩ := perform_wait h 0 span
    exact ⟨_, 0, hof, hendings, fun _ _ => rfl⟩

/-- Errands report what the cache, the time and the script make of them. -/
theorem reports_eq_course {l : Lull} {r : Run.OfVisits} (h : l.Of r) (hl : l.Calm)
    {es : List Errand} (hes : ∀ e ∈ es, e.Endless) :
    ∃ enough, ∀ fuel, enough ≤ fuel → reports fuel r es = course l es := by
  induction es generalizing l r with
  | nil => exact ⟨0, fun _ _ => rfl⟩
  | cons e es ih =>
    obtain ⟨q, n, hof, hendings, hn⟩ := perform_eq h hl (hes e List.mem_cons_self)
    obtain ⟨n', hn'⟩ := ih hof (calm_after hl e) fun e' he' => hes e' (List.mem_cons_of_mem _ he')
    refine ⟨max n n', fun fuel hfuel => ?_⟩
    have hreport : Run.report q = (e.after l).report (e.ending l) := by
      rw [hof.report_eq, hendings, Option.head?_toList]
    rw [reports, course, hn fuel (by omega), hn' fuel (by omega), hreport]

theorem isSome_ending_course (l : Lull) (es : List Errand) :
    (course l es).map (·.ending.isSome) = es.map isVisit := by
  induction es generalizing l with
  | nil => rfl
  | cons e es ih =>
    rw [course, List.map_cons, List.map_cons, ih]
    exact congrArg (· :: _) (isSome_ending l e)

end Errand

/-! ## Another strategy -/

/-- The same cache with another strategy. -/
def Cache.using (c : Cache) (strategy : RefreshStrategy) : Cache :=
  { c with options := { c.options with strategy } }

def Lull.using (l : Lull) (strategy : RefreshStrategy) : Lull :=
  { l with cache := l.cache.using strategy }

namespace Cache

variable (c : Cache) (strategy : RefreshStrategy)

@[simp] theorem needsRefresh_using (now : Nat) :
    (c.using strategy).needsRefresh now = c.needsRefresh now := rfl

theorem commit_using (l : Listing) (now : Nat) : (c.using strategy).commit l now =
    ((c.commit l now).1.using strategy, (c.commit l now).2) := rfl

theorem record_using (outcome : Except Error Unit) :
    (c.using strategy).record outcome = (c.record outcome).using strategy := by
  rw [record, record]
  split <;> rfl

theorem renew_using (f : Fetched) :
    (c.using strategy).renew f = ((c.renew f).1.using strategy, (c.renew f).2) := by
  rw [renew, renew]
  cases f.outcome with
  | ok l =>
    simp only [commit_using, record_using]
  | error e =>
    simp only [record_using]

end Cache

namespace Visit

/-- What a visit comes to that refreshes is a question of the strategy no more than what is asked
for. -/
theorem refreshing_using (p : Purpose) (c : Cache) (strategy : RefreshStrategy) (now : Nat)
    (cues : List PageCue) : refreshing p (c.using strategy) now cues =
      { refreshing p c now cues with cache := (refreshing p c now cues).cache.using strategy } := by
  have hanswer : ∀ (k : Cache) outcome,
      conclude p (k.using strategy) outcome = conclude p k outcome := by
    intro k outcome
    rw [conclude.eq_def, conclude.eq_def]
    rfl
  simp only [refreshing, show (c.using strategy).cursor = c.cursor from rfl, Cache.renew_using,
    hanswer]

theorem alone_using (p : Purpose) (c : Cache) (strategy : RefreshStrategy) (now : Nat)
    (cues : List PageCue) : alone p (c.using strategy) now cues =
      { alone p c now cues with cache := (alone p c now cues).cache.using strategy } := by
  cases p with
  | lookup id =>
    simp only [alone, Cache.needsRefresh_using, refreshing_using]
    split
    · rfl
    · split <;> rfl
  | refresh =>
    simp only [alone, Cache.needsRefresh_using, refreshing_using]
    split <;> rfl
  | count => rfl
  | staleness => rfl

end Visit

namespace Errand

theorem after_using (l : Lull) (strategy : RefreshStrategy) (e : Errand) :
    e.after (l.using strategy) = (e.after l).using strategy := by
  cases e with
  | visit recipe purpose =>
    have h := Visit.alone_using purpose l.cache strategy l.stage.now l.cues
    simp only [after, stay, Lull.using, h]
    rfl
  | wait span => rfl

theorem ending_using (l : Lull) (strategy : RefreshStrategy) (e : Errand) :
    e.ending (l.using strategy) = e.ending l := by
  cases e with
  | visit recipe purpose =>
    have h := Visit.alone_using purpose l.cache strategy l.stage.now l.cues
    simp only [ending, stay, Lull.using, h]
  | wait span => rfl

/-- The reports do not depend on the strategy. -/
theorem course_using (l : Lull) (strategy : RefreshStrategy) (es : List Errand) :
    course (l.using strategy) es = course l es := by
  induction es generalizing l with
  | nil => rfl
  | cons e es ih =>
    rw [course, course, after_using, ending_using, ih]
    rfl

/-- The rehearsal of a cache that pages come to from a script. -/
def rehearsal (stage : Stage) (c : Cache) (cues : List PageCue) : Run.OfVisits :=
  { stage, shared := { cache := c, source := .script cues } }

/-- **One after the other, the strategies agree.**  Take an empty cache of either strategy, any
script that answers whatever is asked for and leaves the contexts alone, and any row of errands with
contexts that are never done.  In so many steps that more of them change nothing, each visit comes
to its end, and after each errand the two rehearsals report the same: how the visit ended and when,
all the requests for pages with their cursors, the records, the saved cursor, the time of the last
refresh and how many have gone through. -/
theorem strategies_agree {container : String} {interval : Nat} {page : PageConfig} {c c' : Cache}
    {cues : List PageCue} {es : List Errand} (stage : Stage)
    (hc : Cache.new? container ⟨interval, .exclusive, page⟩ = .ok c)
    (hc' : Cache.new? container ⟨interval, .shadow, page⟩ = .ok c')
    (hcues : ∀ cue ∈ cues, cue.Plain) (hes : ∀ e ∈ es, e.Endless) :
    ∃ enough, ∀ fuel, enough ≤ fuel →
      (reports fuel (rehearsal stage c cues) es).map (·.ending.isSome) = es.map isVisit ∧
      reports fuel (rehearsal stage c' cues) es = reports fuel (rehearsal stage c cues) es := by
  obtain rfl := Cache.eq_of_new? hc
  obtain rfl := Cache.eq_of_new? hc'
  let l : Lull := { stage, cache := { container, options := ⟨interval, .exclusive, page⟩ }, cues }
  have hl : l.Calm := ⟨⟨rfl, rfl⟩, hcues⟩
  have hl' : (l.using .shadow).Calm := ⟨⟨rfl, rfl⟩, hcues⟩
  have hof : l.Of (rehearsal stage _ cues) := ⟨⟨rfl, rfl, rfl⟩, rfl, rfl, rfl⟩
  have hof' : (l.using .shadow).Of (rehearsal stage _ cues) := ⟨⟨rfl, rfl, rfl⟩, rfl, rfl, rfl⟩
  obtain ⟨n, hn⟩ := reports_eq_course hof hl hes
  obtain ⟨n', hn'⟩ := reports_eq_course hof' hl' hes
  refine ⟨max n n', fun fuel hfuel => ?_⟩
  rw [hn fuel (by omega)]
  refine ⟨isSome_ending_course l es, ?_⟩
  exact (hn' fuel (by omega)).trans (course_using l .shadow es)

/-- A source with two pages at first, the first of which takes its time.  Then the cursor has
expired, and later the source is out of order. -/
def moody : List PageCue := [
  { delay := some (10 * Nanos.milli)
    answer := .ok { items := [.file "a" "u"], cursor := some "more", hasMore := true } },
  { answer := .ok { items := [.file "b" "v"], cursor := some "first" } },
  { answer := .error .cursorExpired },
  { answer := .ok { items := [.file "a" "w"], cursor := some "second" } },
  { answer := .error (.fatal none "out of order") }]

/-- A lookup, a refresh and another lookup, each with a stale cache, and then questions about what
is left. -/
def rounds : List Errand := [
  .visit {} (.lookup "a"), .wait (61 * Nanos.second), .visit {} .refresh,
  .wait (61 * Nanos.second), .visit {} (.lookup "b"), .visit {} .count, .visit {} .staleness]

/-- Either cache asks for five pages and is refreshed twice, and one record is left in the end. -/
theorem strategies_agree_moody :
    (∀ cue ∈ moody, cue.Plain) ∧ (∀ e ∈ rounds, e.Endless) ∧
    (∃ enough, ∀ fuel, enough ≤ fuel →
      reports fuel (rehearsal {} { container := "drive", options := ⟨60000000000, .shadow, {}⟩ }
        moody) rounds =
      reports fuel (rehearsal {} { container := "drive", options := ⟨60000000000, .exclusive, {}⟩ }
        moody) rounds) ∧
    (reports 30 (rehearsal {} { container := "drive", options := ⟨60000000000, .exclusive, {}⟩ }
      moody) rounds).map
        (fun r => (r.now / Nanos.milli, r.arrivals.map (·.request.cursor), r.commits,
          r.records.length, r.stale))
      = [(10, [none, some "more"], 1, 2, false),
        (61010, [none, some "more"], 1, 2, true),
        (61010, [none, some "more", some "first", none], 2, 1, false),
        (122010, [none, some "more", some "first", none], 2, 1, true),
        (122010, [none, some "more", some "first", none, some "second"], 2, 1, true),
        (122010, [none, some "more", some "first", none, some "second"], 2, 1, true),
        (122010, [none, some "more", some "first", none, some "second"], 2, 1, true)] := by
  have hcues : ∀ cue ∈ moody, cue.Plain := by simp [moody, Cue.Plain]
  have hes : ∀ e ∈ rounds, e.Endless := by simp [rounds, Endless, Recipe.Endless]
  refine ⟨hcues, hes, ?_, by decide +kernel⟩
  obtain ⟨enough, henough⟩ := @strategies_agree "drive" 60000000000 {} _ _ moody rounds {} rfl rfl
    hcues hes
  exact ⟨enough, fun fuel hfuel => (henough fuel hfuel).2⟩

end Errand

end DriveDelta
