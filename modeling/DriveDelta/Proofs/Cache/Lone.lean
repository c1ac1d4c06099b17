import DriveDelta.Proofs.Cache.FullListing
import DriveDelta.Proofs.Cache.Rehearsed
import DriveDelta.Proofs.Rehearsal.Resting

/-!
# Visits that are alone

Where visits are made one after the other nobody waits for anybody.  A visit to a cache that nobody
else uses has every lock when it asks for it, and all the time that it takes is that of the answers
to its requests.  What it comes to is then a function of the cache, of the time and of the script,
which knows nothing of locks.

## What is here

* `Round.fetch`, what a round comes to that follows a script, `Cache.renew`, what a refresh makes of
  a cache, and `Visit.alone`, what a visit comes to, with `Visit.alone_cases`;
* `Cache.Free`, a cache that nobody uses, and `Cache.held`, what a lone refresh makes of its locks;
* `VisitTask.Stands`, where a lone visit stands, and `VisitTask.Concluded`, a rehearsal whose only
  visit has ended, with `VisitTask.Stands.step`, `VisitTask.Stands.ask`, `VisitTask.Stands.finish`
  and `VisitTask.Stands.await`;
* `VisitTask.Stands.fetch` and `VisitTask.Stands.visit`, the rest of a refresh and a whole visit;
* `Run.Rests.settle_start`, a rehearsal of one more visit.
-/

set_option autoImplicit false

namespace DriveDelta

/-! ## What a lone visit comes to -/

/-- A cue for the answer to the request for a page. -/
abbrev PageCue := Cue (Except Error DeltaPage)

/-- When the answer that is asked for now is given. -/
def Cue.due {β : Type} (c : Cue β) (now : Nat) : Nat := (c.delay.map (Nanos.wake now)).getD now

/-- When the answer that is asked for now is taken in. -/
def Cue.taken {β : Type} (c : Cue β) (now : Nat) : Nat := Nanos.seen now (c.due now)

/-- What fetching a round comes to. -/
structure Fetched where
  /-- When the last answer is taken in. -/
  finish : Nat
  /-- The cues that are left. -/
  cues : List PageCue
  /-- When pages were asked for, and with which cursors. -/
  requests : List (Nat × Option String)
  outcome : Except Error Listing

/-- Fetch the pages of a round from now on. -/
def Round.fetch (round : Round) (now : Nat) : List PageCue → Fetched
  | [] => ⟨now, [], [(now, round.cursor)], .error VisitTask.scriptExhausted⟩
  | cue :: cues =>
    match (round.next cue.answer).1 with
    | .more round' =>
      let f := round'.fetch (cue.taken now) cues
      { f with requests := (now, round.cursor) :: f.requests }
    | .complete l => ⟨cue.taken now, cues, [(now, round.cursor)], .ok l⟩
    | .failed e => ⟨cue.taken now, cues, [(now, round.cursor)], .error e⟩

/-- What a round leaves of the cache that it was fetched for, and how the refresh ends. -/
def Cache.renew (c : Cache) (f : Fetched) : Cache × Except Error Unit :=
  match f.outcome with
  | .ok l =>
    let (c', outcome, _) := c.commit l f.finish
    (c'.record outcome, outcome)
  | .error e => (c.record (.error e), .error e)

namespace Visit

/-- The answer of a visit that has refreshed, or has found that unnecessary. -/
def conclude (p : Purpose) (c : Cache) (outcome : Except Error Unit) : Answer :=
  match p, outcome with
  | .lookup id, .ok () | .lookup id, .error (.incomplete _) => .record (c.lookup id)
  | .lookup _, .error e => .record (.error e)
  | _, outcome => .refreshed outcome

/-- What a visit comes to. -/
structure Stay where
  answer : Answer
  cache : Cache
  finish : Nat
  cues : List PageCue
  requests : List (Nat × Option String) := []

/-- What a visit leaves of a cache and its source. -/
def Stay.depot (y : Stay) (c : Cache) (arrivals : List PageArrival) : Depot :=
  ⟨y.cache, .script y.cues, arrivals ++ y.requests.map fun q => ⟨q.1, c.pageRequest q.2⟩⟩

/-- What a visit comes to that refreshes. -/
def refreshing (p : Purpose) (c : Cache) (now : Nat) (cues : List PageCue) : Stay :=
  let f := (Round.start c.cursor).fetch now cues
  let (c', outcome) := c.renew f
  ⟨conclude p c' outcome, c', f.finish, f.cues, f.requests⟩

/-- What a visit comes to that is made now and is alone. -/
def alone (p : Purpose) (c : Cache) (now : Nat) (cues : List PageCue) : Stay :=
  match p with
  | .lookup id =>
    if id = "" then ⟨.record (.error emptyId), c, now, cues, []⟩
    else if c.needsRefresh now then refreshing p c now cues
    else ⟨.record (c.lookup id), c, now, cues, []⟩
  | .refresh =>
    if c.needsRefresh now then refreshing p c now cues
    else ⟨.refreshed (.ok ()), c, now, cues, []⟩
  | .count => ⟨.count c.records.length, c, now, cues, []⟩
  | .staleness => ⟨.stale (c.needsRefresh now), c, now, cues, []⟩

end Visit

/-- Nobody holds or wants either of the locks. -/
structure Cache.Free (c : Cache) : Prop where
  refreshers_eq : c.refreshers = []
  accessors_eq : c.accessors = []

/-- What a lone refresh holds of the records while it waits for pages. -/
def RefreshStrategy.line (strategy : RefreshStrategy) (me : Nat) : Queue :=
  match strategy with
  | .exclusive => [(me, .write)]
  | .shadow => []

/-- The cache while a visit refreshes that nobody waits for. -/
def Cache.held (c : Cache) (me : Nat) (line : Queue) : Cache :=
  { c with refreshers := [(me, .write)], accessors := line }

theorem RefreshStrategy.leave_line (strategy : RefreshStrategy) (me : Nat) :
    (strategy.line me).leave me = [] := by
  cases strategy <;> simp [line, Queue.leave]

/-- Without what a lone visit holds the cache is what it was. -/
theorem Cache.Free.leave_held {k : Cache} {me : Nat} {line : Queue} (hk : k.Free)
    (hl : line.leave me = []) : Visit.leave (k.held me line) me = k := by
  have hmine : Queue.leave [(me, .write)] me = [] := by simp [Queue.leave]
  obtain ⟨hr, ha⟩ := hk
  cases k
  simp only at hr ha
  subst hr ha
  simp only [Visit.leave, held, hl, hmine]

theorem Cache.record_held (k : Cache) (me : Nat) (line : Queue) (o : Except Error Unit) :
    (k.held me line).record o = (k.record o).held me line := by
  rw [record, record]
  split <;> rfl

/-- Installing a round leaves the locks alone. -/
theorem Cache.install_held (k : Cache) (me : Nat) (line : Queue) (since now : Nat) (l : Listing)
    (before : List Visit.Effect) : Refresh.install (k.held me line) since now l before =
      .ended ((k.commit l now).1.held me line) (k.commit l now).2.1
        (before ++ Refresh.installation k since now l) := by
  simp only [Refresh.install, Refresh.finish, List.append_assoc]
  rfl

/-- Who gets in line to refresh has that lock. -/
theorem Cache.Free.join_refreshers {k : Cache} (hk : k.Free) (me : Nat) :
    { k with refreshers := k.refreshers.join me .write } = k.held me [] := by
  obtain ⟨hr, ha⟩ := hk
  cases k
  simp only at hr ha
  subst hr ha
  rfl

theorem Cache.Free.record {k : Cache} (hk : k.Free) (o : Except Error Unit) :
    (k.record o).Free := by
  rw [Cache.record]
  split
  · exact ⟨hk.refreshers_eq, hk.accessors_eq⟩
  · exact hk

theorem Cache.Free.commit {k : Cache} (hk : k.Free) (l : Listing) (now : Nat) :
    (k.commit l now).1.Free := ⟨hk.refreshers_eq, hk.accessors_eq⟩

theorem Cache.Free.renew {k : Cache} (hk : k.Free) (f : Fetched) : (k.renew f).1.Free := by
  rw [Cache.renew]
  cases f.outcome with
  | ok l => exact (hk.commit l f.finish).record _
  | error e => exact hk.record _

/-- A lone visit refreshes, or it takes no time and leaves everything as it is. -/
theorem Visit.alone_cases (p : Purpose) (c : Cache) (now : Nat) (cues : List PageCue) :
    alone p c now cues = refreshing p c now cues ∨
      ∃ answer, alone p c now cues = ⟨answer, c, now, cues, []⟩ := by
  cases p with
  | lookup id =>
    rw [alone]
    split
    · exact .inr ⟨_, rfl⟩
    · split
      · exact .inl rfl
      · exact .inr ⟨_, rfl⟩
  | refresh =>
    rw [alone]
    split
    · exact .inl rfl
    · exact .inr ⟨_, rfl⟩
  | count => exact .inr ⟨_, rfl⟩
  | staleness => exact .inr ⟨_, rfl⟩

/-- A lone visit gives back what it has taken. -/
theorem Cache.Free.alone {c : Cache} (hc : c.Free) (p : Visit.Purpose) (now : Nat)
    (cues : List PageCue) : (Visit.alone p c now cues).cache.Free := by
  rcases Visit.alone_cases p c now cues with h | ⟨answer, h⟩
  · rw [h]
    exact hc.renew _
  · rw [h]
    exact hc

/-- A round takes its cues from the front of the script. -/
theorem Round.cues_fetch_suffix (round : Round) (now : Nat) (cues : List PageCue) :
    (round.fetch now cues).cues <:+ cues := by
  induction cues generalizing round now with
  | nil => exact List.suffix_refl _
  | cons cue cues ih =>
    rw [fetch]
    split
    · exact (ih _ _).trans (List.suffix_cons cue cues)
    · exact List.suffix_cons cue cues
    · exact List.suffix_cons cue cues

theorem Visit.cues_alone_suffix (p : Purpose) (c : Cache) (now : Nat) (cues : List PageCue) :
    (alone p c now cues).cues <:+ cues := by
  rcases alone_cases p c now cues with h | ⟨answer, h⟩
  · rw [h]
    exact Round.cues_fetch_suffix _ _ _
  · exact (congrArg Stay.cues h) ▸ List.suffix_refl cues

/-- The answer is given, and leaves the context alone. -/
def Cue.Plain {β : Type} (c : Cue β) : Prop := c.hangs = false ∧ c.cancels = false

theorem Cue.Plain.ask_eq {β : Type} {c : Cue β} (h : c.Plain) (now : Nat) :
    c.ask now = { due := some (c.due now), cancels := false, answer := c.answer } := by
  obtain ⟨hhangs, hcancels⟩ := h
  rw [ask, hhangs, hcancels]
  rfl

/-! ## A visit that is alone -/

/-- What is waited for is no answer, or one that will leave the context alone. -/
def Expected.Plain : Expected → Prop
  | .nothing => True
  | .scripted q => q.cancels = false
  | .called _ | .answered _ => False

/-- The answer that has come in by now. -/
def Expected.heard (now : Nat) : Expected → Option Refresh.Incoming
  | .scripted q => if q.isGiven now then some ⟨q.answer, none⟩ else none
  | _ => none

namespace VisitTask

open Visit

/-- A rehearsal gets from one state to another. -/
def Goes (r r' : Run.OfVisits) : Prop :=
  ∃ told, Run.Passes machine (fun _ => ([] : List Unit)) r told r'

variable {r r' r'' : Run.OfVisits} {me : Nat} {x : Context} {forest : Forest} {now : Nat}
  {d : Depot} {cues : List PageCue} {p : Purpose} {phase : Phase} {expected : Expected}

theorem Goes.refl (r : Run.OfVisits) : Goes r r := ⟨_, .refl r⟩

theorem Goes.trans (h : Goes r r') (h' : Goes r' r'') : Goes r r'' := by
  obtain ⟨told, h⟩ := h
  obtain ⟨told', h'⟩ := h'
  exact ⟨_, h.trans h'⟩

theorem Goes.single (h : r.advance machine = some r') : Goes r r' := ⟨_, .single h⟩

/-- A visit that is alone, and where it stands. -/
def Stands (r : Run.OfVisits) (me : Nat) (x : Context) (forest : Forest) (now : Nat) (d : Depot)
    (p : Purpose) (phase : Phase) (expected : Expected) : Prop :=
  r.Alone me x forest now d { purpose := p, phase, expected }

/-- A rehearsal whose only visit has ended now, with this answer. -/
structure Concluded (r : Run.OfVisits) (me : Nat) (x : Context) (forest : Forest) (now : Nat)
    (d : Depot) (answer : Answer) : Prop extends r.Rests where
  stage_eq : r.stage = { now, forest }
  shared_eq : r.shared = d
  endings_eq : r.endings = [⟨me, answer, now, x⟩]

/-! ### One step -/

/-- The scene after a step of a visit. -/
def Scene.after (me : Nat) (x : Context) (forest : Forest) (now : Nat) (d : Depot)
    (s : Visit.Step) : Scene :=
  s.effects.foldl (Scene.perform (Run.glance me x forest now))
    { depot := { d with cache := s.cache } }

/-- What a step makes of the task: with the last one it has ended. -/
def onward (p : Purpose) (expected : Expected) : Phase → VisitTask ⊕ Answer
  | .finished answer => .inr answer
  | phase => .inl { purpose := p, phase, expected }

theorem onward_of_not_finished (h : ∀ answer, phase ≠ .finished answer) :
    onward p expected phase = .inl { purpose := p, phase, expected } := by
  cases phase with
  | finished answer => exact absurd rfl (h answer)
  | _ => rfl

theorem machine_step (me now : Nat) (p : Purpose) (phase : Phase) (hx : x.Endless forest)
    (hsource : d.source = .script cues) (hplain : expected.Plain) :
    machine.step (Run.glance me x forest now) d { purpose := p, phase, expected } =
      (Visit.step p d.cache me now none (expected.heard now) phase).map fun s =>
        { shared := (Scene.after me x forest now d s).depot
          state := onward p (Scene.after me x forest now d s).expected s.phase
          log := (Scene.after me x forest now d s).log } := by
  have hstatus : (Run.glance me x forest now).status = none := hx now
  have hin : ({ purpose := p, phase, expected } : VisitTask).incoming (Run.glance me x forest now)
      = (expected.heard now, false) := by
    cases expected with
    | nothing => rfl
    | scripted q =>
      have hq : q.cancels = false := hplain
      have hnow : (Run.glance me x forest now).now = now := rfl
      simp only [incoming, Expected.heard, hstatus, hq, hnow]
      cases q.isGiven now <;> rfl
    | called task => exact absurd hplain id
    | answered answer => exact absurd hplain id
  have hvisit : machine.step (Run.glance me x forest now) d { purpose := p, phase, expected }
      = visit (Run.glance me x forest now) d { purpose := p, phase, expected } := by
    show VisitTask.step _ d _ = _
    rw [VisitTask.step.eq_def]
    simp only [hsource]
  rw [hvisit, visit, hin, hstatus]
  refine congrFun (congrArg Option.map (funext fun s => ?_)) _
  obtain ⟨cache, phase, effects⟩ := s
  cases phase <;> rfl

/-- Effects that ask for no page leave the source alone. -/
theorem depot_of_not_asked (g : Glance) (scene : Scene) {effects : List Effect}
    (h : ∀ cursor, .asked cursor ∉ effects) :
    (effects.foldl (Scene.perform g) scene).depot = scene.depot ∧
      (effects.foldl (Scene.perform g) scene).expected = scene.expected := by
  induction effects generalizing scene with
  | nil => exact ⟨rfl, rfl⟩
  | cons e effects ih =>
    obtain ⟨hd, he⟩ := ih (scene.perform g e) fun cursor hm => h cursor (List.mem_cons_of_mem _ hm)
    rw [List.foldl_cons, hd, he]
    cases e with
    | asked cursor => exact absurd List.mem_cons_self (h cursor)
    | _ => exact ⟨rfl, rfl⟩

/-- A step that asks for no page, after which the visit still has its turn. -/
theorem Stands.step {s : Visit.Step} (h : Stands r me x forest now d p phase expected)
    (hx : x.Endless forest) (hsource : d.source = .script cues) (hplain : expected.Plain)
    (hs : Visit.step p d.cache me now none (expected.heard now) phase = some s)
    (hno : ∀ cursor, .asked cursor ∉ s.effects) (hnf : ∀ answer, s.phase ≠ .finished answer) :
    ∃ r', Goes r r' ∧
      Stands r' me x forest now { d with cache := s.cache } p s.phase .nothing := by
  have hm := machine_step me now p phase hx hsource hplain
  rw [hs, Option.map_some] at hm
  obtain ⟨hd, he⟩ := depot_of_not_asked (Run.glance me x forest now)
    { depot := { d with cache := s.cache } } hno
  obtain ⟨r', hr', hstands⟩ := Run.Alone.step h hm rfl (by rw [onward_of_not_finished hnf])
  refine ⟨r', .single hr', ?_⟩
  rw [Scene.after, hd, he] at hstands
  exact hstands

/-- A step that gets to asking for a page. -/
theorem Stands.ask {s : Visit.Step} {before : List Effect} {cursor : Option String}
    (h : Stands r me x forest now d p phase expected) (hx : x.Endless forest)
    (hsource : d.source = .script cues) (hplain : expected.Plain)
    (hs : Visit.step p d.cache me now none (expected.heard now) phase = some s)
    (heff : s.effects = before ++ [.asked cursor]) (hno : ∀ cursor, .asked cursor ∉ before)
    (hnf : ∀ answer, s.phase ≠ .finished answer) :
    ∃ r', Goes r r' ∧
      Stands r' me x forest now
        { cache := s.cache
          source := .script (Cue.next cues (.error scriptExhausted)).2
          arrivals := d.arrivals ++ [⟨now, s.cache.pageRequest cursor⟩] }
        p s.phase (.scripted ((Cue.next cues (.error scriptExhausted)).1.ask now)) := by
  have hm := machine_step me now p phase hx hsource hplain
  rw [hs, Option.map_some] at hm
  obtain ⟨r', hr', hstands⟩ := Run.Alone.step h hm rfl (by rw [onward_of_not_finished hnf])
  refine ⟨r', .single hr', ?_⟩
  obtain ⟨hd, -⟩ := depot_of_not_asked (Run.glance me x forest now)
    { depot := { d with cache := s.cache } } hno
  have hscene : Scene.after me x forest now d s = Scene.perform (Run.glance me x forest now)
      (before.foldl (Scene.perform (Run.glance me x forest now))
        { depot := { d with cache := s.cache } }) (.asked cursor) := by
    rw [Scene.after, heff, List.foldl_append]
    rfl
  rw [hscene, Scene.perform, hd, request] at hstands
  simp only [hsource] at hstands
  exact hstands

/-- The last step of the visit. -/
theorem Stands.finish {s : Visit.Step} {answer : Answer}
    (h : Stands r me x forest now d p phase expected) (hx : x.Endless forest)
    (hsource : d.source = .script cues) (hplain : expected.Plain)
    (hs : Visit.step p d.cache me now none (expected.heard now) phase = some s)
    (hno : ∀ cursor, .asked cursor ∉ s.effects) (hf : s.phase = .finished answer) :
    ∃ r', Goes r r' ∧ Concluded r' me x forest now { d with cache := s.cache } answer := by
  have hm := machine_step me now p phase hx hsource hplain
  rw [hs, Option.map_some] at hm
  obtain ⟨hd, -⟩ := depot_of_not_asked (Run.glance me x forest now)
    { depot := { d with cache := s.cache } } hno
  have hr' := Run.Alone.advance_eq h hm rfl
  rw [hf] at hr'
  exact ⟨_, .single hr', ⟨rfl, h.ready_eq, h.line_eq⟩, h.stage_eq, hd, rfl⟩

/-- A visit that waits for the answer of a cue gets it when that is taken in. -/
theorem Stands.await {since : Nat} {round : Round} {cue : PageCue}
    (h : Stands r me x forest now d p (.refreshing since (.fetching round))
      (.scripted (cue.ask now))) (hx : x.Endless forest) (hsource : d.source = .script cues)
    (hcue : cue.Plain) :
    ∃ r', Goes r r' ∧
      Stands r' me x forest (cue.taken now) d p (.refreshing since (.fetching round))
        (.scripted (cue.ask now)) ∧
      (Expected.scripted (cue.ask now)).heard (cue.taken now) = some ⟨cue.answer, none⟩ := by
  have htaken : cue.taken now = Nanos.seen now (cue.due now) := rfl
  rw [hcue.ask_eq] at h ⊢
  rw [htaken]
  generalize cue.due now = due at h ⊢
  have hheard : ∀ t, due ≤ t → (Expected.scripted ⟨some due, false, cue.answer⟩).heard t
      = some ⟨cue.answer, none⟩ := fun t ht => if_pos (decide_eq_true ht)
  by_cases hle : due ≤ now
  · rw [Nanos.seen_of_le hle]
    exact ⟨r, .refl r, h, hheard now hle⟩
  · have hplain : (Expected.scripted ⟨some due, false, cue.answer⟩).Plain := rfl
    have hm (t : Nat) := machine_step me t p (.refreshing since (.fetching round)) hx hsource hplain
    have hnone : (Expected.scripted ⟨some due, false, cue.answer⟩).heard now = none :=
      if_neg (by simpa [Pending.isGiven] using hle)
    have hsome := hheard _ (Nanos.le_tick due)
    obtain ⟨r₁, r₂, hr₁, -, hr₂, hstands⟩ := Run.Alone.wait h (by rw [hm, hnone]; rfl)
      hx.deadline_eq (Nanos.min?_alarm (Nat.lt_of_not_le hle)) (by rw [hm, hsome]; rfl) (by
        intro q hq
        rw [hm, Option.map_eq_some_iff] at hq
        obtain ⟨_, -, rfl⟩ := hq
        rfl)
    rw [show Nanos.seen now due = Nanos.tick due from if_neg hle]
    exact ⟨r₂, (Goes.single hr₁).trans (.single hr₂), hstands, hsome⟩

/-! ### The end of a visit -/

/-- A visit that is alone in line to read reads, and gives its place back. -/
theorem Stands.read {k : Cache} (hk : k.Free)
    (h : Stands r me x forest now
      { d with cache := { k with accessors := k.accessors.join me .read } } p .reading .nothing)
    (hx : x.Endless forest) (hsource : d.source = .script cues) :
    ∃ r', Goes r r' ∧ Concluded r' me x forest now { d with cache := k } (Visit.read p k) := by
  have hl : (k.accessors.join me .read).holds me = true := by
    rw [hk.accessors_eq]
    simp [Queue.join, Queue.holds, Queue.holdsBehindReaders]
  have hleave : leave { k with accessors := k.accessors.join me .read } me = k := by
    have hline : (k.accessors.join me .read).leave me = k.accessors := by
      rw [hk.accessors_eq]
      simp [Queue.join, Queue.leave]
    have hline' : k.refreshers.leave me = k.refreshers := by
      rw [hk.refreshers_eq]
      rfl
    rw [leave, hline, hline']
  have hread : Visit.read p { k with accessors := k.accessors.join me .read } = Visit.read p k := by
    cases p <;> rfl
  have hstep : Visit.step p { k with accessors := k.accessors.join me .read } me now none none
      .reading = some ⟨k, .finished (Visit.read p k), []⟩ := by
    rw [Visit.step.eq_def]
    simp only [hl, if_true, hleave, hread]
  exact h.finish hx hsource trivial hstep (by simp) rfl

/-- A visit that has done with refreshing, or never began to, concludes. -/
theorem Stands.afterRefresh {k : Cache} {o : Except Error Unit} {effects : List Effect}
    (hk : k.Free) (h : Stands r me x forest now d p phase expected) (hx : x.Endless forest)
    (hsource : d.source = .script cues) (hplain : expected.Plain)
    (hs : Visit.step p d.cache me now none (expected.heard now) phase
      = some (Visit.afterRefresh p k me o effects))
    (hno : ∀ cursor, .asked cursor ∉ effects) :
    ∃ r', Goes r r' ∧ Concluded r' me x forest now { d with cache := k } (conclude p k o) := by
  rcases afterRefresh_cases p k me o effects with
    ⟨id, told, rfl, ho, he⟩ | ⟨id, e, rfl, rfl, ho, he⟩ | ⟨hp, he⟩
  · rw [he] at hs
    obtain ⟨r₁, hgoes₁, hstands⟩ := h.step hx hsource hplain hs (by simpa [toReading] using hno)
      (by simp [toReading])
    obtain ⟨r₂, hgoes₂, hend⟩ := hstands.read hk hx hsource
    refine ⟨r₂, hgoes₁.trans hgoes₂, ?_⟩
    rcases ho with rfl | ⟨es, rfl⟩ <;> exact hend
  · rw [he] at hs
    have hanswer : conclude (.lookup id) k (.error e) = .record (.error e) := by
      cases e with
      | incomplete es => exact absurd (.inr ⟨es, rfl⟩) ho
      | _ => rfl
    rw [hanswer]
    exact h.finish hx hsource hplain hs (by simpa using hno) rfl
  · rw [he] at hs
    have hanswer : conclude p k o = .refreshed o := by
      cases p with
      | lookup id => exact absurd rfl (hp id)
      | _ => rfl
    rw [hanswer]
    exact h.finish hx hsource hplain hs (by simpa using hno) rfl

/-! ### A refresh -/

/-- A refresh that ends leaves the cache with its outcome. -/
theorem Stands.endRefresh {k : Cache} {line : Queue} {o : Except Error Unit}
    {effects : List Effect} (hk : k.Free) (hl : line.leave me = [])
    (h : Stands r me x forest now d p phase expected) (hx : x.Endless forest)
    (hsource : d.source = .script cues) (hplain : expected.Plain)
    (hs : Visit.step p d.cache me now none (expected.heard now) phase
      = some (Visit.endRefresh p (k.held me line) me o effects))
    (hno : ∀ cursor, .asked cursor ∉ effects) :
    ∃ r', Goes r r' ∧ Concluded r' me x forest now { d with cache := k.record o }
      (conclude p (k.record o) o) := by
  rw [Visit.endRefresh, Cache.record_held, (hk.record o).leave_held hl] at hs
  exact h.afterRefresh (hk.record o) hx hsource hplain hs (by simpa using hno)

/-- The first in the line of refreshers begins to refresh, or has nothing to do. -/
theorem step_queued {k : Cache} (hk : k.Free) (p : Purpose) (me now : Nat) :
    Visit.step p (k.held me []) me now none none (.queued k.attempts) = some (
      if k.needsRefresh now then
        ⟨(Refresh.begin (k.held me []) me).1, .refreshing now (Refresh.begin (k.held me []) me).2,
          [.admitted, .event (.refreshing k.options.strategy)]⟩
      else Visit.afterRefresh p k me (.ok ()) [.admitted]) := by
  have hfirst : (k.held me []).refreshers.holds me = true := by simp [Cache.held, Queue.holds]
  have hsame : (k.held me []).needsRefresh now = k.needsRefresh now := rfl
  have hattempts : (k.held me []).attempts = k.attempts := rfl
  rw [Visit.step, if_pos hfirst, Visit.begin, hattempts, if_neg (by simp), hsame,
    hk.leave_held rfl]
  cases k.needsRefresh now <;> rfl

/-- A lone refresh has the lock that it gets in line for first, whichever that is. -/
theorem step_opening (p : Purpose) (k : Cache) (me now : Nat) :
    Visit.step p (Refresh.begin (k.held me []) me).1 me now none none
      (.refreshing now (Refresh.begin (k.held me []) me).2)
      = some ⟨k.held me (k.options.strategy.line me), .refreshing now (.fetching (.start k.cursor)),
          [.asked k.cursor]⟩ := by
  have hs : (k.held me []).options.strategy = k.options.strategy := rfl
  rw [Refresh.begin, hs]
  cases k.options.strategy with
  | exclusive =>
    simp [Visit.step, Refresh.step, Refresh.whenHeld, Refresh.ask, Cache.held, Queue.join,
      Queue.holds, RefreshStrategy.line, Round.start]
  | shadow =>
    simp [Visit.step, Refresh.step, Refresh.whenHeld, Refresh.ask, Cache.held, Queue.join,
      Queue.holds, Queue.holdsBehindReaders, Queue.leave, RefreshStrategy.line, Round.start]

/-- The first in the line of refreshers, with a stale cache, asks for the first page. -/
theorem Stands.begin {k : Cache} {arrivals : List PageArrival} (hk : k.Free)
    (h : Stands r me x forest now ⟨k.held me [], .script cues, arrivals⟩ p (.queued k.attempts)
      .nothing) (hx : x.Endless forest) (hstale : k.needsRefresh now = true) :
    ∃ r', Goes r r' ∧
      Stands r' me x forest now
        ⟨k.held me (k.options.strategy.line me),
          .script (Cue.next cues (.error scriptExhausted)).2,
          arrivals ++ [⟨now, k.pageRequest (Round.start k.cursor).cursor⟩]⟩
        p (.refreshing now (.fetching (.start k.cursor)))
        (.scripted ((Cue.next cues (.error scriptExhausted)).1.ask now)) := by
  have hs := step_queued hk p me now
  rw [if_pos hstale] at hs
  obtain ⟨r₁, hgoes₁, h₁⟩ := h.step hx rfl trivial hs (by simp) (by simp)
  have hasked : [Effect.asked k.cursor] = [] ++ [.asked k.cursor] := rfl
  obtain ⟨r₂, hgoes₂, h₂⟩ :=
    h₁.ask hx rfl trivial (step_opening p k me now) hasked (by simp) (by simp)
  exact ⟨r₂, hgoes₁.trans hgoes₂, h₂⟩

/-- The first in the line of refreshers, with a fresh cache, concludes. -/
theorem Stands.spare {k : Cache} {arrivals : List PageArrival} (hk : k.Free)
    (h : Stands r me x forest now ⟨k.held me [], .script cues, arrivals⟩ p (.queued k.attempts)
      .nothing) (hx : x.Endless forest) (hfresh : k.needsRefresh now = false) :
    ∃ r', Goes r r' ∧
      Concluded r' me x forest now ⟨k, .script cues, arrivals⟩ (conclude p k (.ok ())) := by
  have hs := step_queued hk p me now
  rw [if_neg (by simp [hfresh])] at hs
  exact h.afterRefresh hk hx rfl trivial hs (by simp)

theorem not_asked_of_taken {answer : Except Error DeltaPage} {told : List RoundEvent}
    (cursor : Option String) : .asked cursor ∉ Refresh.taken answer told := by
  simp [Refresh.taken]

section Pages

variable {k : Cache} {arrivals : List PageArrival} {since : Nat} {round : Round} {cue : PageCue}
  {told : List RoundEvent}

/-- A page that has more to follow is taken in, and the next one is asked for. -/
theorem Stands.more {round' : Round}
    (h : Stands r me x forest now
      ⟨k.held me (k.options.strategy.line me), .script cues, arrivals⟩ p
      (.refreshing since (.fetching round)) (.scripted (cue.ask now)))
    (hx : x.Endless forest) (hcue : cue.Plain)
    (hn : round.next cue.answer = (.more round', told)) :
    ∃ r', Goes r r' ∧
      Stands r' me x forest (cue.taken now)
        ⟨k.held me (k.options.strategy.line me),
          .script (Cue.next cues (.error scriptExhausted)).2,
          arrivals ++ [⟨cue.taken now, k.pageRequest round'.cursor⟩]⟩
        p (.refreshing since (.fetching round'))
        (.scripted ((Cue.next cues (.error scriptExhausted)).1.ask (cue.taken now))) := by
  obtain ⟨r₁, hgoes₁, h₁, hheard⟩ := h.await hx rfl hcue
  have hs : Visit.step p (k.held me (k.options.strategy.line me)) me (cue.taken now) none
      ((Expected.scripted (cue.ask now)).heard (cue.taken now))
      (.refreshing since (.fetching round))
      = some ⟨k.held me (k.options.strategy.line me), .refreshing since (.fetching round'),
          Refresh.taken cue.answer told ++ [.asked round'.cursor]⟩ := by
    rw [hheard, Visit.step, Refresh.step, Option.map_some, Refresh.afterPage, hn]
    rfl
  obtain ⟨r₂, hgoes₂, h₂⟩ := h₁.ask hx rfl hcue.2 hs rfl not_asked_of_taken (by simp)
  exact ⟨r₂, hgoes₁.trans hgoes₂, h₂⟩

/-- With an error the refresh ends. -/
theorem Stands.failed {e : Error} (hk : k.Free)
    (h : Stands r me x forest now
      ⟨k.held me (k.options.strategy.line me), .script cues, arrivals⟩ p
      (.refreshing since (.fetching round)) (.scripted (cue.ask now)))
    (hx : x.Endless forest) (hcue : cue.Plain)
    (hn : round.next cue.answer = (.failed e, told)) :
    ∃ r', Goes r r' ∧ Concluded r' me x forest (cue.taken now)
      ⟨k.record (.error e), .script cues, arrivals⟩
      (conclude p (k.record (.error e)) (.error e)) := by
  obtain ⟨r₁, hgoes₁, h₁, hheard⟩ := h.await hx rfl hcue
  have hs : Visit.step p (k.held me (k.options.strategy.line me)) me (cue.taken now) none
      ((Expected.scripted (cue.ask now)).heard (cue.taken now))
      (.refreshing since (.fetching round))
      = some (Visit.endRefresh p (k.held me (k.options.strategy.line me)) me (.error e)
          (Refresh.taken cue.answer told ++
            [.event (Refresh.endEvent since (cue.taken now) (.error e))])) := by
    rw [hheard, Visit.step, Refresh.step, Option.map_some, Refresh.afterPage, hn]
    rfl
  obtain ⟨r₂, hgoes₂, hend⟩ := h₁.endRefresh hk (RefreshStrategy.leave_line _ _) hx rfl hcue.2 hs
    (by simpa using not_asked_of_taken)
  exact ⟨r₂, hgoes₁.trans hgoes₂, hend⟩

/-- A refresh that installs what it has fetched ends. -/
theorem Stands.install {l : Listing} {line : Queue} {before : List Effect} (hk : k.Free)
    (hl : line.leave me = []) (h : Stands r me x forest now d p phase expected)
    (hx : x.Endless forest) (hsource : d.source = .script cues) (hplain : expected.Plain)
    (hs : Visit.step p d.cache me now none (expected.heard now) phase
      = some (Visit.endRefresh p ((k.commit l now).1.held me line) me (k.commit l now).2.1
          (before ++ Refresh.installation k since now l)))
    (hno : ∀ cursor, .asked cursor ∉ before) :
    ∃ r', Goes r r' ∧ Concluded r' me x forest now
      { d with cache := (k.commit l now).1.record (k.commit l now).2.1 }
      (conclude p ((k.commit l now).1.record (k.commit l now).2.1) (k.commit l now).2.1) := by
  refine h.endRefresh (hk.commit l now) hl hx hsource hplain hs fun cursor => ?_
  simpa [Refresh.installation] using hno cursor

/-- With the last page the refresh installs what it has fetched, in shadow mode at one step more,
and ends. -/
theorem Stands.complete {l : Listing} (hk : k.Free)
    (h : Stands r me x forest now
      ⟨k.held me (k.options.strategy.line me), .script cues, arrivals⟩ p
      (.refreshing since (.fetching round)) (.scripted (cue.ask now)))
    (hx : x.Endless forest) (hcue : cue.Plain)
    (hn : round.next cue.answer = (.complete l, told)) :
    ∃ r', Goes r r' ∧ Concluded r' me x forest (cue.taken now)
      ⟨(k.commit l (cue.taken now)).1.record (k.commit l (cue.taken now)).2.1, .script cues,
        arrivals⟩
      (conclude p ((k.commit l (cue.taken now)).1.record (k.commit l (cue.taken now)).2.1)
        (k.commit l (cue.taken now)).2.1) := by
  obtain ⟨r₁, hgoes₁, h₁, hheard⟩ := h.await hx rfl hcue
  generalize cue.taken now = t at h₁ hheard ⊢
  have hstrategy : ∀ line, (k.held me line).options.strategy = k.options.strategy := fun _ => rfl
  cases hst : k.options.strategy with
  | exclusive =>
    rw [hst] at h₁
    have hs : Visit.step p (k.held me (RefreshStrategy.exclusive.line me)) me t none
        ((Expected.scripted (cue.ask now)).heard t) (.refreshing since (.fetching round))
        = some (Visit.endRefresh p ((k.commit l t).1.held me (RefreshStrategy.exclusive.line me)) me
            (k.commit l t).2.1
            (Refresh.taken cue.answer told ++ Refresh.installation k since t l)) := by
      rw [hheard, Visit.step, Refresh.step, Option.map_some, Refresh.afterPage, hn]
      simp only [hstrategy, hst, Cache.install_held]
      rfl
    obtain ⟨r₂, hgoes₂, hend⟩ :=
      h₁.install hk (RefreshStrategy.leave_line _ _) hx rfl hcue.2 hs not_asked_of_taken
    exact ⟨r₂, hgoes₁.trans hgoes₂, hend⟩
  | shadow =>
    rw [hst] at h₁
    have hjoin : Visit.step p (k.held me (RefreshStrategy.shadow.line me)) me t none
        ((Expected.scripted (cue.ask now)).heard t) (.refreshing since (.fetching round))
        = some ⟨k.held me [(me, .write)], .refreshing since (.installing l),
            Refresh.taken cue.answer told⟩ := by
      rw [hheard, Visit.step, Refresh.step, Option.map_some, Refresh.afterPage, hn]
      simp only [hstrategy, hst]
      rfl
    obtain ⟨r₂, hgoes₂, h₂⟩ := h₁.step hx rfl hcue.2 hjoin not_asked_of_taken (by simp)
    have hs : Visit.step p (k.held me [(me, .write)]) me t none none
        (.refreshing since (.installing l))
        = some (Visit.endRefresh p ((k.commit l t).1.held me [(me, .write)]) me (k.commit l t).2.1
            ([] ++ Refresh.installation k since t l)) := by
      have hl : (k.held me [(me, .write)]).accessors.holds me = true := by
        simp [Cache.held, Queue.holds]
      rw [Visit.step, Refresh.step, Refresh.whenHeld, if_pos hl, Cache.install_held]
      rfl
    obtain ⟨r₃, hgoes₃, hend⟩ :=
      h₂.install hk (by simp [Queue.leave]) hx rfl trivial hs (by simp)
    exact ⟨r₃, (hgoes₁.trans hgoes₂).trans hgoes₃, hend⟩

/-- The rest of a refresh, from the request for a page on. -/
theorem Stands.fetch {base : List PageArrival} (hk : k.Free)
    (h : Stands r me x forest now
      ⟨k.held me (k.options.strategy.line me), .script (Cue.next cues (.error scriptExhausted)).2,
        base ++ [⟨now, k.pageRequest round.cursor⟩]⟩
      p (.refreshing since (.fetching round))
      (.scripted ((Cue.next cues (.error scriptExhausted)).1.ask now)))
    (hx : x.Endless forest) (hcues : ∀ cue ∈ cues, cue.Plain) :
    ∃ r', Goes r r' ∧ Concluded r' me x forest (round.fetch now cues).finish
      ⟨(k.renew (round.fetch now cues)).1, .script (round.fetch now cues).cues,
        base ++ (round.fetch now cues).requests.map fun q => ⟨q.1, k.pageRequest q.2⟩⟩
      (conclude p (k.renew (round.fetch now cues)).1 (k.renew (round.fetch now cues)).2) := by
  induction cues generalizing r now round base with
  | nil =>
    have htaken : (Cue.next ([] : List PageCue) (.error scriptExhausted)).1.taken now = now :=
      Nanos.seen_of_le (Nat.le_refl _)
    have hn : round.next (Cue.next ([] : List PageCue) (.error scriptExhausted)).1.answer
        = (.failed scriptExhausted, []) := rfl
    have hfailed := h.failed hk hx ⟨rfl, rfl⟩ hn
    rw [htaken] at hfailed
    exact hfailed
  | cons cue cues ih =>
    have hcue := hcues cue List.mem_cons_self
    rw [Round.fetch]
    rcases hn : round.next cue.answer with ⟨next, told⟩
    cases next with
    | more round' =>
      obtain ⟨r₁, hgoes₁, h₁⟩ := h.more hx hcue hn
      obtain ⟨r₂, hgoes₂, hend⟩ := ih h₁ fun c hc => hcues c (List.mem_cons_of_mem _ hc)
      refine ⟨r₂, hgoes₁.trans hgoes₂, ?_⟩
      rw [List.append_assoc] at hend
      exact hend
    | failed e => exact h.failed hk hx hcue hn
    | complete l => exact h.complete hk hx hcue hn

end Pages

/-! ### A whole visit -/

theorem Stands.refresh {c : Cache} {arrivals : List PageArrival} (hc : c.Free)
    (h : Stands r me x forest now ⟨c.held me [], .script cues, arrivals⟩ p (.queued c.attempts)
      .nothing) (hx : x.Endless forest) (hcues : ∀ cue ∈ cues, cue.Plain)
    (hstale : c.needsRefresh now = true) :
    ∃ r', Goes r r' ∧ Concluded r' me x forest (refreshing p c now cues).finish
      ((refreshing p c now cues).depot c arrivals) (refreshing p c now cues).answer := by
  obtain ⟨r₁, hgoes₁, h₁⟩ := h.begin hc hx hstale
  obtain ⟨r₂, hgoes₂, hend⟩ := h₁.fetch hc hx hcues
  exact ⟨r₂, hgoes₁.trans hgoes₂, hend⟩

/-- A visit that is alone comes to what the cache, the time and the script make of it. -/
theorem Stands.visit {c : Cache} {arrivals : List PageArrival} (hc : c.Free)
    (h : Stands r me x forest now ⟨c, .script cues, arrivals⟩ p .arriving .nothing)
    (hx : x.Endless forest) (hcues : ∀ cue ∈ cues, cue.Plain) :
    ∃ r', Goes r r' ∧ Concluded r' me x forest (alone p c now cues).finish
      ((alone p c now cues).depot c arrivals) (alone p c now cues).answer := by
  have hnone : ∀ answer, (Stay.mk answer c now cues []).depot c arrivals
      = ⟨c, .script cues, arrivals⟩ := fun answer => by simp [Stay.depot]
  have hs : Visit.step p c me now none none .arriving = some (arrive p c me now) := rfl
  have hqueue : ∀ effects, toQueue c me effects = ⟨c.held me [], .queued c.attempts, effects⟩ := by
    intro effects
    rw [toQueue, hc.join_refreshers]
  cases p with
  | staleness =>
    rw [alone, hnone]
    exact h.finish hx rfl trivial hs (by simp [arrive]) rfl
  | count =>
    rw [alone, hnone]
    obtain ⟨r₁, hgoes₁, h₁⟩ := h.step hx rfl trivial hs (by simp [arrive, toReading])
      (by simp [arrive, toReading])
    obtain ⟨r₂, hgoes₂, hend⟩ := h₁.read hc hx rfl
    exact ⟨r₂, hgoes₁.trans hgoes₂, hend⟩
  | refresh =>
    rw [arrive, hqueue] at hs
    obtain ⟨r₁, hgoes₁, h₁⟩ := h.step hx rfl trivial hs (by simp) (by simp)
    cases hf : c.needsRefresh now with
    | true =>
      rw [alone, if_pos hf]
      obtain ⟨r₂, hgoes₂, hend⟩ := h₁.refresh hc hx hcues hf
      exact ⟨r₂, hgoes₁.trans hgoes₂, hend⟩
    | false =>
      rw [alone, if_neg (by simp [hf]), hnone]
      obtain ⟨r₂, hgoes₂, hend⟩ := h₁.spare hc hx hf
      exact ⟨r₂, hgoes₁.trans hgoes₂, hend⟩
  | lookup id =>
    by_cases hid : id = ""
    · rw [alone, if_pos hid, hnone]
      rw [arrive, if_pos hid] at hs
      exact h.finish hx rfl trivial hs (by simp) rfl
    · have hserves : servesStale c = false := by
        simp [servesStale, hc.refreshers_eq, Queue.isFree]
      rw [alone, if_neg hid]
      rw [arrive, if_neg hid, hserves, Bool.not_false, Bool.and_true] at hs
      cases hf : c.needsRefresh now with
      | true =>
        rw [hf, if_pos rfl, hqueue] at hs
        rw [if_pos rfl]
        obtain ⟨r₁, hgoes₁, h₁⟩ := h.step hx rfl trivial hs (by simp) (by simp)
        obtain ⟨r₂, hgoes₂, hend⟩ := h₁.refresh hc hx hcues hf
        exact ⟨r₂, hgoes₁.trans hgoes₂, hend⟩
      | false =>
        rw [hf, if_neg (by simp)] at hs
        rw [if_neg (by simp), hnone]
        obtain ⟨r₁, hgoes₁, h₁⟩ := h.step hx rfl trivial hs (by simp [toReading])
          (by simp [toReading])
        obtain ⟨r₂, hgoes₂, hend⟩ := h₁.read hc hx rfl
        exact ⟨r₂, hgoes₁.trans hgoes₂, hend⟩

end VisitTask

/-! ## Rehearsals of one more visit -/

/-- A rehearsal of one more visit comes to what the cache, the time and the script make of it. -/
theorem Run.Rests.settle_start {r : Run.OfVisits} {c : Cache} {cues : List PageCue}
    {arrivals : List PageArrival} {recipe : Recipe} (h : r.Rests)
    (hshared : r.shared = ⟨c, .script cues, arrivals⟩) (hc : c.Free)
    (hcues : ∀ cue ∈ cues, cue.Plain) (hr : recipe.Endless) (p : Visit.Purpose) :
    ∃ q n, q.tasks = r.tasks + 1 ∧
      VisitTask.Concluded q r.tasks (recipe.contextIn r.stage.forest) (r.stage.forest.add none)
        (Visit.alone p c r.stage.now cues).finish
        ((Visit.alone p c r.stage.now cues).depot c arrivals)
        (Visit.alone p c r.stage.now cues).answer ∧
      ∀ fuel, n ≤ fuel → Run.settle VisitTask.machine fuel
        ({ r with endings := [] }.start recipe { purpose := p }) = q := by
  obtain ⟨r₁, hstart, htasks, halone⟩ :=
    h.start VisitTask.machine hr ({ purpose := p } : VisitTask)
  rw [hshared] at halone
  obtain ⟨q, ⟨told, hgoes⟩, hend⟩ :=
    VisitTask.Stands.visit hc halone (recipe.endless_contextIn _) hcues
  obtain ⟨n, hn⟩ := (Passes.single hstart |>.trans hgoes).settle (hend.toRests.advance_eq _)
  exact ⟨q, n, hgoes.tasks_eq.trans htasks, hend, fun fuel hfuel => (hn fuel hfuel).1⟩

end DriveDelta
