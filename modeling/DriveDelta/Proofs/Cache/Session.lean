import Mathlib.Logic.Function.Basic
import DriveDelta.Cache.Visit

/-!
# Sessions

A session is one cache with all the visits that are ever made to it, taking their turns in any
order.  Nothing is said about who gets the next turn, about the status that the context of a visit
has when it gets one, or about the answers to its requests, so whatever holds of every session holds
under every order of turns, every source of pages and every time of cancellation.

## What is here

* `Stamp`, something that a visit did, and `Session`, which keeps everything that was done in a
  trace;
* `Session.Move`, `Session.step`, and `Session.run`, a run of moves; `Session.run_induction` proves
  what every run keeps from what one step keeps;
* `Round.next_more`, `Round.next_complete` and `Round.next_failed`, what the answer to a request
  does to a round;
* `Refresh.Advance` and `Visit.Advance`, every way in which a refresh and a visit can go on:
  `Refresh.advance_of_step` and `Visit.advance_of_step` say that there is no other.
-/

set_option autoImplicit false

namespace DriveDelta

/-- Something that a visit did, and when. -/
structure Stamp where
  visit : Nat
  time : Nat
  effect : Visit.Effect

/-- A cache and the visits to it, which are numbered. -/
structure Session where
  cache : Cache
  now : Nat := 0
  /-- Where each visit stands; those that are still to be made are arriving. -/
  phase : Nat → Visit.Phase := fun _ => .arriving
  /-- What the visits did, in order. -/
  trace : List Stamp := []

namespace Session

/-- What may happen next. -/
inductive Move where
  /-- A visit gets its turn.  Its context has a status, and perhaps an answer has come in for it. -/
  | turn (visit : Nat) (status : Option CancelReason) (incoming : Option Refresh.Incoming)
  /-- Time passes. -/
  | pass (span : Nat)

/-- The session after a step of a visit. -/
def after (s : Session) (v : Nat) (r : Visit.Step) : Session :=
  { s with
    cache := r.cache
    phase := Function.update s.phase v r.phase
    trace := s.trace ++ r.effects.map (Stamp.mk v s.now) }

/-- One move; none if the visit that gets its turn has to go on waiting. -/
def step (purpose : Nat → Visit.Purpose) (s : Session) : Move → Option Session
  | .turn v status incoming =>
    (Visit.step (purpose v) s.cache v s.now status incoming (s.phase v)).map (s.after v)
  | .pass span => some { s with now := s.now + span }

/-- Moves one after the other. -/
def run (purpose : Nat → Visit.Purpose) : Session → List Move → Option Session
  | s, [] => some s
  | s, m :: ms =>
    match s.step purpose m with
    | some s' => run purpose s' ms
    | none => none

variable {purpose : Nat → Visit.Purpose}

/-- What holds at first, and is kept by each of the moves, holds after all of them. -/
theorem run_induction {P : Session → Prop} {s s' : Session} {ms : List Move}
    (h : s.run purpose ms = some s') (h₀ : P s)
    (hstep : ∀ m ∈ ms, ∀ t t' : Session, P t → t.step purpose m = some t' → P t') : P s' := by
  induction ms generalizing s with
  | nil =>
    rw [run, Option.some_inj] at h
    exact h ▸ h₀
  | cons m ms ih =>
    rw [run] at h
    split at h
    · rename_i t ht
      exact ih h (hstep m List.mem_cons_self s t h₀ ht)
        fun m' hm => hstep m' (List.mem_cons_of_mem _ hm)
    · exact absurd h (by simp)

end Session

/-! ## How a round goes on -/

namespace Round

variable {round round' : Round} {answer : Except Error DeltaPage} {l : Listing}
  {told : List RoundEvent}

/-- A round goes on after a page that has more to follow, or over from the start after its cursor
was rejected. -/
theorem next_more (h : round.next answer = (.more round', told)) :
    (answer = .error .cursorExpired ∧ round.reset = false ∧ round' = start none) ∨
    ∃ page cursor, answer = .ok page ∧ page.hasMore = true ∧ page.cursor = some cursor ∧
      round' = { round with
        cursor := some cursor, items := round.items ++ page.items, pages := round.pages + 1 } := by
  cases answer with
  | error e =>
    cases e with
    | cursorExpired =>
      rw [next] at h
      split at h
      · exact absurd h (by simp)
      · rename_i hr
        exact .inl ⟨rfl, by simpa using hr, (Next.more.inj (Prod.mk.inj h).1).symm⟩
    | _ => simp [next] at h
  | ok page =>
    rw [next, take, Prod.mk.injEq] at h
    split at h
    · exact absurd h.1 (by simp)
    · rename_i hm
      split at h
      · rename_i cursor hc
        exact .inr ⟨page, cursor, rfl, by simpa using hm, hc, (Next.more.inj h.1).symm⟩
      · exact absurd h.1 (by simp)

/-- A round is complete after a page that has nothing to follow. -/
theorem next_complete (h : round.next answer = (.complete l, told)) :
    ∃ page, answer = .ok page ∧ page.hasMore = false ∧
      l = ⟨round.items ++ page.items, page.cursor, round.reset, round.pages + 1⟩ := by
  cases answer with
  | error e =>
    cases e with
    | cursorExpired =>
      rw [next] at h
      split at h <;> exact absurd h (by simp)
    | _ => simp [next] at h
  | ok page =>
    rw [next, take, Prod.mk.injEq] at h
    split at h
    · rename_i hm
      exact ⟨page, rfl, by simpa using hm, (Next.complete.inj h.1).symm⟩
    · split at h <;> exact absurd h.1 (by simp)

/-- A round fails by the error of an answer, or by one of two errors of its own. -/
theorem next_failed {e : Error} (h : round.next answer = (.failed e, told)) :
    answer = .error e ∨ e = expiredInFullListing ∨ e = moreWithoutCursor := by
  cases answer with
  | error e' =>
    cases e' with
    | cursorExpired =>
      rw [next] at h
      split at h
      · exact .inr (.inl (Next.failed.inj (Prod.mk.inj h).1).symm)
      · exact absurd h (by simp)
    | _ => exact .inl (congrArg _ (Next.failed.inj (Prod.mk.inj h).1))
  | ok page =>
    rw [next, take, Prod.mk.injEq] at h
    split at h
    · exact absurd h.1 (by simp)
    · split at h
      · exact absurd h.1 (by simp)
      · exact .inr (.inr (Next.failed.inj h.1).symm)

end Round

/-! ## How a refresh goes on -/

namespace Refresh

/-- What a turn did. -/
def Turn.effects : Turn → List Visit.Effect
  | .waiting _ _ effects => effects
  | .ended _ _ effects => effects

/-- What a refresh takes in with an answer. -/
def taken (answer : Except Error DeltaPage) (told : List RoundEvent) : List Visit.Effect :=
  .received answer :: told.map fun e => .event (.round e)

/-- What a refresh leaves behind when it installs a listing. -/
def installation (c : Cache) (since now : Nat) (l : Listing) : List Visit.Effect :=
  let (c', outcome, merged) := c.commit l now
  [.installed l c'.records, .event (.merged merged), .event (endEvent since now outcome)]

/-- Every way in which the refresh of visit `v` can go on from a stage. -/
inductive Advance (c : Cache) (v since now : Nat) :
    Option CancelReason → Option Incoming → Stage → Turn → Prop
  /-- Its context is done while it waits for a lock. -/
  | abandoned {inc : Option Incoming} {stage : Stage} (reason : CancelReason)
      (hs : ∀ round, stage ≠ .fetching round) :
      Advance c v since now (some reason) inc stage (.ended c (.error (.cancelled reason)) [])
  /-- It has the records to itself and asks for the first page. -/
  | claimed {inc : Option Incoming} (hl : c.accessors.holds v = true) :
      Advance c v since now none inc .claiming
        (.waiting c (.fetching (.start c.cursor)) [.asked c.cursor])
  /-- It has seen the cursor and asks for the first page. -/
  | peeked {inc : Option Incoming} (hl : c.accessors.holds v = true) :
      Advance c v since now none inc .peeking
        (.waiting { c with accessors := c.accessors.leave v } (.fetching (.start c.cursor))
          [.asked c.cursor])
  /-- It asks for the next page. -/
  | continued {status : Option CancelReason} {i : Incoming} {round round' : Round}
      {told : List RoundEvent} (hn : round.next i.answer = (.more round', told))
      (hs : i.status = none) :
      Advance c v since now status (some i) (.fetching round)
        (.waiting c (.fetching round') (taken i.answer told ++ [.asked round'.cursor]))
  /-- Its context is done when it is about to ask for the next page. -/
  | stopped {status : Option CancelReason} {i : Incoming} {round round' : Round}
      {told : List RoundEvent} (reason : CancelReason)
      (hn : round.next i.answer = (.more round', told)) (hs : i.status = some reason) :
      Advance c v since now status (some i) (.fetching round)
        (.ended c (.error (.cancelled reason))
          (taken i.answer told ++ [.event (.refreshFailed (.cancelled reason))]))
  /-- The round fails. -/
  | failed {status : Option CancelReason} {i : Incoming} {round : Round} {e : Error}
      {told : List RoundEvent} (hn : round.next i.answer = (.failed e, told)) :
      Advance c v since now status (some i) (.fetching round)
        (.ended c (.error e) (taken i.answer told ++ [.event (endEvent since now (.error e))]))
  /-- The round is complete and is installed at once. -/
  | completed {status : Option CancelReason} {i : Incoming} {round : Round} {l : Listing}
      {told : List RoundEvent} (hn : round.next i.answer = (.complete l, told))
      (hx : c.options.strategy = .exclusive) :
      Advance c v since now status (some i) (.fetching round)
        (.ended (c.commit l now).1 (c.commit l now).2.1
          (taken i.answer told ++ installation c since now l))
  /-- The round is complete and waits to be installed. -/
  | staged {status : Option CancelReason} {i : Incoming} {round : Round} {l : Listing}
      {told : List RoundEvent} (hn : round.next i.answer = (.complete l, told))
      (hx : c.options.strategy = .shadow) :
      Advance c v since now status (some i) (.fetching round)
        (.waiting { c with accessors := c.accessors.join v .write } (.installing l)
          (taken i.answer told))
  /-- What was fetched before is installed. -/
  | installed {inc : Option Incoming} {l : Listing} (hl : c.accessors.holds v = true) :
      Advance c v since now none inc (.installing l)
        (.ended (c.commit l now).1 (c.commit l now).2.1 (installation c since now l))

theorem whenHeld_eq_some {c : Cache} {v : Nat} {status : Option CancelReason} {go t : Turn}
    (h : whenHeld c v status go = some t) :
    (∃ reason, status = some reason ∧ t = .ended c (.error (.cancelled reason)) []) ∨
      status = none ∧ c.accessors.holds v = true ∧ t = go := by
  rw [whenHeld.eq_def] at h
  cases status with
  | some reason => exact .inl ⟨reason, rfl, (Option.some_inj.1 h).symm⟩
  | none =>
    simp only at h
    split at h
    · rename_i hl
      exact .inr ⟨rfl, hl, (Option.some_inj.1 h).symm⟩
    · exact absurd h (by simp)

/-- A refresh goes on in no other way. -/
theorem advance_of_step {c : Cache} {v since now : Nat} {status : Option CancelReason}
    {inc : Option Incoming} {stage : Stage} {t : Turn}
    (h : step c v since now status inc stage = some t) :
    Advance c v since now status inc stage t := by
  cases stage with
  | claiming =>
    rcases whenHeld_eq_some h with ⟨reason, rfl, rfl⟩ | ⟨rfl, hl, rfl⟩
    · exact .abandoned reason (by simp)
    · exact .claimed hl
  | peeking =>
    rcases whenHeld_eq_some h with ⟨reason, rfl, rfl⟩ | ⟨rfl, hl, rfl⟩
    · exact .abandoned reason (by simp)
    · exact .peeked hl
  | installing l =>
    rcases whenHeld_eq_some h with ⟨reason, rfl, rfl⟩ | ⟨rfl, hl, rfl⟩
    · exact .abandoned reason (by simp)
    · exact .installed hl
  | fetching round =>
    rw [step, Option.map_eq_some_iff] at h
    obtain ⟨i, rfl, rfl⟩ := h
    rw [afterPage]
    rcases hn : round.next i.answer with ⟨next, told⟩
    cases next with
    | more round' =>
      cases hs : i.status with
      | none =>
        simp only [ask]
        exact .continued hn hs
      | some reason =>
        simp only [ask]
        exact .stopped reason hn hs
    | failed e => exact .failed hn
    | complete l =>
      cases hx : c.options.strategy with
      | exclusive =>
        simp only [install, finish, List.append_assoc]
        exact .completed hn hx
      | shadow =>
        simp only
        exact .staged hn hx

end Refresh

/-! ## How a visit goes on -/

namespace Visit

/-- The refresh that had this outcome was carried through, if perhaps past malformed records. -/
def CarriedThrough (outcome : Except Error Unit) : Prop :=
  outcome = .ok () ∨ ∃ es, outcome = .error (.incomplete es)

/-- A listing that is installed is carried through, malformed items or not. -/
theorem carriedThrough_commit (c : Cache) (l : Listing) (now : Nat) :
    CarriedThrough (c.commit l now).2.1 := by
  simp only [Cache.commit]
  generalize Records.merge _ _ = m
  cases m.errors with
  | nil => exact .inl rfl
  | cons e es => exact .inr ⟨e :: es, rfl⟩

/-- A lookup reads once the refresh it relied on was carried through.  Otherwise its answer is the
error of that refresh; all other visits have the outcome for an answer. -/
theorem afterRefresh_cases (p : Purpose) (c : Cache) (v : Nat) (outcome : Except Error Unit)
    (effects : List Effect) :
    (∃ (id : String) (told : List Event), p = .lookup id ∧ CarriedThrough outcome ∧
      afterRefresh p c v outcome effects
        = toReading c v (effects ++ .returned outcome :: told.map .event)) ∨
    (∃ id e, p = .lookup id ∧ outcome = .error e ∧ ¬ CarriedThrough outcome ∧
      afterRefresh p c v outcome effects
        = ⟨c, .finished (.record (.error e)), effects ++ [.returned outcome]⟩) ∨
    (∀ id, p ≠ .lookup id) ∧
      afterRefresh p c v outcome effects
        = ⟨c, .finished (.refreshed outcome), effects ++ [.returned outcome]⟩ := by
  cases p with
  | lookup id =>
    cases outcome with
    | ok => exact .inl ⟨id, [], rfl, .inl rfl, rfl⟩
    | error e =>
      cases e with
      | incomplete es =>
        refine .inl ⟨id, [.malformedSkipped es.length], rfl, .inr ⟨es, rfl⟩, ?_⟩
        simp [afterRefresh]
      | _ => exact .inr (.inl ⟨id, _, rfl, rfl, by simp [CarriedThrough], rfl⟩)
  | _ => exact .inr (.inr ⟨by simp, rfl⟩)

/-- Done with refreshing: in line to read, or at the end. -/
def Phase.Settled (phase : Phase) : Prop :=
  phase = .reading ∨ ∃ answer, phase = .finished answer

theorem Phase.Settled.ne_arriving {phase : Phase} (h : phase.Settled) : phase ≠ .arriving := by
  rcases h with rfl | ⟨answer, rfl⟩ <;> simp

theorem Phase.Settled.ne_queued {phase : Phase} (h : phase.Settled) (seen : Nat) :
    phase ≠ .queued seen := by
  rcases h with rfl | ⟨answer, rfl⟩ <;> simp

theorem Phase.Settled.ne_refreshing {phase : Phase} (h : phase.Settled) (since : Nat)
    (stage : Refresh.Stage) : phase ≠ .refreshing since stage := by
  rcases h with rfl | ⟨answer, rfl⟩ <;> simp

/-- Whatever the outcome, a visit that has done with refreshing has touched nothing but the line of
those who want to read, and either reads or is at its end. -/
theorem afterRefresh_frame (p : Purpose) (c : Cache) (v : Nat) (outcome : Except Error Unit)
    (effects : List Effect) :
    ∃ (line : Queue) (phase : Phase) (told : List Event), phase.Settled ∧
      afterRefresh p c v outcome effects
        = ⟨{ c with accessors := line }, phase,
            effects ++ .returned outcome :: told.map .event⟩ := by
  rcases afterRefresh_cases p c v outcome effects with
    ⟨id, told, -, -, h⟩ | ⟨id, e, -, -, -, h⟩ | ⟨-, h⟩
  · exact ⟨_, _, told, .inl rfl, h⟩
  · exact ⟨c.accessors, _, [], .inr ⟨_, rfl⟩, h⟩
  · exact ⟨c.accessors, _, [], .inr ⟨_, rfl⟩, h⟩

theorem afterRefresh_settled (p : Purpose) (c : Cache) (v : Nat) (outcome : Except Error Unit)
    (effects : List Effect) : (afterRefresh p c v outcome effects).phase.Settled := by
  obtain ⟨line, phase, told, hph, he⟩ := afterRefresh_frame p c v outcome effects
  rwa [he]

/-- The same for a visit whose refresh has ended. -/
theorem endRefresh_frame (p : Purpose) (c : Cache) (v : Nat) (outcome : Except Error Unit)
    (effects : List Effect) :
    ∃ (line : Queue) (phase : Phase) (told : List Event), phase.Settled ∧
      endRefresh p c v outcome effects
        = ⟨{ leave (c.record outcome) v with accessors := line }, phase,
            effects ++ .ended outcome :: .returned outcome :: told.map .event⟩ := by
  obtain ⟨line, phase, told, hph, he⟩ := afterRefresh_frame p (leave (c.record outcome) v) v
    outcome (effects ++ [.ended outcome])
  refine ⟨line, phase, told, hph, ?_⟩
  rw [endRefresh, he, List.append_assoc]
  rfl

/-- Every way in which visit `v` can go on from a phase. -/
inductive Advance (p : Purpose) (c : Cache) (v now : Nat) :
    Option CancelReason → Option Refresh.Incoming → Phase → Step → Prop
  /-- It gets in line to refresh. -/
  | lined {status : Option CancelReason} {inc : Option Refresh.Incoming}
      (hp : p = .refresh ∨ ∃ id, p = .lookup id ∧ id ≠ "" ∧ c.needsRefresh now = true ∧
        servesStale c = false) :
      Advance p c v now status inc .arriving (toQueue c v [.arrived])
  /-- It gets in line to read. -/
  | approached {status : Option CancelReason} {inc : Option Refresh.Incoming}
      (hp : p = .count ∨ ∃ id, p = .lookup id ∧ id ≠ "" ∧
        (c.needsRefresh now = false ∨ servesStale c = true)) :
      Advance p c v now status inc .arriving (toReading c v [.arrived])
  /-- It is at its end at once. -/
  | answered {status : Option CancelReason} {inc : Option Refresh.Incoming} {answer : Answer}
      (hp : p = .lookup "" ∧ answer = .record (.error emptyId) ∨
        p = .staleness ∧ answer = .stale (c.needsRefresh now)) :
      Advance p c v now status inc .arriving ⟨c, .finished answer, [.arrived]⟩
  /-- Its context is done while it is in line to refresh. -/
  | withdrew {inc : Option Refresh.Incoming} {seen : Nat} (reason : CancelReason) :
      Advance p c v now (some reason) inc (.queued seen)
        (afterRefresh p (leave c v) v (.error (.cancelled reason)) [])
  /-- It takes over the outcome of a refresh that ended meanwhile. -/
  | shared {inc : Option Refresh.Incoming} {seen : Nat} (hl : c.refreshers.holds v = true)
      (hne : c.attempts ≠ seen) :
      Advance p c v now none inc (.queued seen)
        (afterRefresh p (leave c v) v c.outcome [.admitted])
  /-- It finds the cache fresh. -/
  | spared {inc : Option Refresh.Incoming} {seen : Nat} (hl : c.refreshers.holds v = true)
      (heq : c.attempts = seen) (hf : c.needsRefresh now = false) :
      Advance p c v now none inc (.queued seen)
        (afterRefresh p (leave c v) v (.ok ()) [.admitted])
  /-- It begins a refresh of its own. -/
  | began {inc : Option Refresh.Incoming} {seen : Nat} (hl : c.refreshers.holds v = true)
      (heq : c.attempts = seen) (hf : c.needsRefresh now = true) :
      Advance p c v now none inc (.queued seen)
        ⟨(Refresh.begin c v).1, .refreshing now (Refresh.begin c v).2,
          [.admitted, .event (.refreshing c.options.strategy)]⟩
  /-- Its refresh goes on. -/
  | proceeded {status : Option CancelReason} {inc : Option Refresh.Incoming} {since : Nat}
      {stage stage' : Refresh.Stage} {c' : Cache} {effects : List Effect}
      (hr : Refresh.Advance c v since now status inc stage (.waiting c' stage' effects)) :
      Advance p c v now status inc (.refreshing since stage)
        ⟨c', .refreshing since stage', effects⟩
  /-- Its refresh ends. -/
  | ended {status : Option CancelReason} {inc : Option Refresh.Incoming} {since : Nat}
      {stage : Refresh.Stage} {c' : Cache} {outcome : Except Error Unit} {effects : List Effect}
      (hr : Refresh.Advance c v since now status inc stage (.ended c' outcome effects)) :
      Advance p c v now status inc (.refreshing since stage) (endRefresh p c' v outcome effects)
  /-- Its context is done while it is in line to read. -/
  | dropped {inc : Option Refresh.Incoming} {id : String} (reason : CancelReason)
      (hp : p = .lookup id) :
      Advance p c v now (some reason) inc .reading
        ⟨leave c v, .finished (.record (.error (.cancelled reason))), []⟩
  /-- It reads. -/
  | read {status : Option CancelReason} {inc : Option Refresh.Incoming}
      (hl : c.accessors.holds v = true) :
      Advance p c v now status inc .reading ⟨leave c v, .finished (read p c), []⟩

theorem advance_of_arrive (p : Purpose) (c : Cache) (v now : Nat) (status : Option CancelReason)
    (inc : Option Refresh.Incoming) :
    Advance p c v now status inc .arriving (arrive p c v now) := by
  cases p with
  | lookup id =>
    rw [arrive]
    split
    · rename_i hid
      exact .answered (.inl ⟨by rw [hid], rfl⟩)
    · rename_i hid
      split
      · rename_i hf
        rw [Bool.and_eq_true, Bool.not_eq_true'] at hf
        exact .lined (.inr ⟨id, rfl, hid, hf⟩)
      · rename_i hf
        refine .approached (.inr ⟨id, rfl, hid, ?_⟩)
        cases hn : c.needsRefresh now with
        | false => exact .inl rfl
        | true => exact .inr (by simpa [hn] using hf)
  | refresh => exact .lined (.inl rfl)
  | count => exact .approached (.inl rfl)
  | staleness => exact .answered (.inr ⟨rfl, rfl⟩)

theorem advance_of_begin {p : Purpose} {c : Cache} {v seen now : Nat}
    {inc : Option Refresh.Incoming} (hl : c.refreshers.holds v = true) :
    Advance p c v now none inc (.queued seen) (begin p c v seen now) := by
  rw [begin]
  split
  · rename_i hne
    exact .shared hl hne
  · rename_i heq
    rw [ne_eq, not_not] at heq
    cases hf : c.needsRefresh now with
    | false => exact .spared hl heq hf
    | true => exact .began hl heq hf

/-- A visit goes on in no other way. -/
theorem advance_of_step {p : Purpose} {c : Cache} {v now : Nat} {status : Option CancelReason}
    {inc : Option Refresh.Incoming} {phase : Phase} {r : Step}
    (h : step p c v now status inc phase = some r) : Advance p c v now status inc phase r := by
  cases phase with
  | arriving =>
    rw [step, Option.some_inj] at h
    exact h ▸ advance_of_arrive p c v now status inc
  | queued seen =>
    cases status with
    | some reason =>
      rw [step, Option.some_inj] at h
      exact h ▸ .withdrew reason
    | none =>
      rw [step] at h
      split at h
      · rename_i hl
        rw [Option.some_inj] at h
        exact h ▸ advance_of_begin hl
      · exact absurd h (by simp)
  | refreshing since stage =>
    rw [step, Option.map_eq_some_iff] at h
    obtain ⟨t, ht, rfl⟩ := h
    cases t with
    | waiting c' stage' effects => exact .proceeded (Refresh.advance_of_step ht)
    | ended c' outcome effects => exact .ended (Refresh.advance_of_step ht)
  | reading =>
    simp only [step.eq_def] at h
    split at h
    · rename_i id reason
      rw [Option.some_inj] at h
      exact h ▸ .dropped reason rfl
    · split at h
      · rename_i hl
        rw [Option.some_inj] at h
        exact h ▸ .read hl
      · exact absurd h (by simp)
  | finished answer => simp [step] at h

end Visit

namespace Session

/-- A move is a step of a visit, or lets time pass. -/
theorem step_cases {purpose : Nat → Visit.Purpose} {s s' : Session} {m : Move}
    (h : s.step purpose m = some s') :
    (∃ v status inc r, m = .turn v status inc ∧
      Visit.Advance (purpose v) s.cache v s.now status inc (s.phase v) r ∧ s' = s.after v r) ∨
    ∃ span, m = .pass span ∧ s' = { s with now := s.now + span } := by
  cases m with
  | turn v status inc =>
    rw [step, Option.map_eq_some_iff] at h
    obtain ⟨r, hr, rfl⟩ := h
    exact .inl ⟨v, status, inc, r, rfl, Visit.advance_of_step hr, rfl⟩
  | pass span => exact .inr ⟨span, rfl, (Option.some_inj.1 h).symm⟩

end Session

end DriveDelta
