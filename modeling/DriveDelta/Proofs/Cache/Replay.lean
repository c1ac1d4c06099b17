import Mathlib.Data.List.Basic
import DriveDelta.Proofs.Cache.Merging
import DriveDelta.Proofs.Cache.Trace

/-!
# The records are a replay of what was installed

The cache keeps no history, but its records have one: they are what merging all the items gives that
were installed since the last full listing.  Refreshes that fail or are cancelled leave no mark.
Each listing in turn is made of the pages that came in for it since it was begun, or begun anew.

## What is here

* `Trace.deeds`, what one visit did, and `Visit.fetched`, the pages it has fetched;
* `Listing.Gathers`, which says what pages a listing is made of, and `Session.Gathered`;
* `Trace.installs`, the listings that were installed, and `Session.Replayed`;
* `Session.records_replay`, all of it for every session.
-/

set_option autoImplicit false

namespace DriveDelta

/-! ## The pages that a visit fetched -/

namespace Trace

/-- What a visit did. -/
def deeds (v : Nat) (trace : List Stamp) : List Visit.Effect :=
  (trace.filter (·.visit == v)).map (·.effect)

theorem deeds_append (v : Nat) (tr tr' : List Stamp) :
    deeds v (tr ++ tr') = deeds v tr ++ deeds v tr' := by
  rw [deeds, List.filter_append, List.map_append]
  rfl

theorem deeds_stamps (v t : Nat) (effects : List Visit.Effect) :
    deeds v (effects.map (Stamp.mk v t)) = effects := by
  rw [deeds, List.filter_eq_self.2 (by simp), List.map_map]
  exact List.map_id effects

theorem deeds_stamps_of_ne {v w : Nat} (h : w ≠ v) (t : Nat) (effects : List Visit.Effect) :
    deeds w (effects.map (Stamp.mk v t)) = [] := by
  rw [deeds, List.filter_eq_nil_iff.2 (by simpa using fun _ _ => h.symm), List.map_nil]

end Trace

namespace Visit

/-- What an effect does to the pages fetched so far: asking for the first page of a full listing
drops them. -/
def gather (pages : List DeltaPage) : Effect → List DeltaPage
  | .asked none => []
  | .received (.ok page) => pages ++ [page]
  | _ => pages

/-- The pages that have come in since a listing was begun, or begun anew. -/
def fetched (effects : List Effect) : List DeltaPage := effects.foldl gather []

theorem fetched_append (effects effects' : List Effect) :
    fetched (effects ++ effects') = effects'.foldl gather (fetched effects) :=
  List.foldl_append

/-- Nothing has been asked for. -/
def Untouched (effects : List Effect) : Prop :=
  ∀ x ∈ effects, (∀ cursor, x ≠ .asked cursor) ∧ ∀ answer, x ≠ .received answer

theorem foldl_gather_event (pages : List DeltaPage) (told : List Event) :
    (told.map Effect.event).foldl gather pages = pages := by
  induction told with
  | nil => rfl
  | cons e told ih => exact ih

theorem Untouched.fetched {effects : List Effect} (h : Untouched effects) :
    fetched effects = [] := by
  rw [Visit.fetched]
  induction effects with
  | nil => rfl
  | cons x effects ih =>
    obtain ⟨ha, hr⟩ := h x List.mem_cons_self
    have hx : gather [] x = [] := by
      cases x with
      | asked cursor => exact absurd rfl (ha cursor)
      | received answer => exact absurd rfl (hr answer)
      | _ => rfl
    rw [List.foldl_cons, hx]
    exact ih fun y hy => h y (List.mem_cons_of_mem _ hy)

end Visit

open Visit (fetched Untouched)

/-- A round in progress holds the pages fetched for it. -/
structure Round.Gathers (round : Round) (effects : List Visit.Effect) : Prop where
  items_eq : round.items = (fetched effects).flatMap (·.items)
  pages_eq : round.pages = (fetched effects).length
  reset_iff : round.reset = true ↔ .asked none ∈ effects

/-- A finished round holds the pages fetched for it, and the cursor of the last of them. -/
structure Listing.Gathers (l : Listing) (effects : List Visit.Effect) : Prop where
  items_eq : l.items = (fetched effects).flatMap (·.items)
  pages_eq : l.pages = (fetched effects).length
  reset_iff : l.reset = true ↔ .asked none ∈ effects
  last : ∃ page, (fetched effects).getLast? = some page ∧ page.hasMore = false ∧
    l.cursor = page.cursor

namespace Refresh

/-- What a refresh has gathered at a stage. -/
def Stage.Gathers (effects : List Visit.Effect) : Stage → Prop
  | .claiming | .peeking => Untouched effects
  | .fetching round => round.Gathers effects
  | .installing l => l.Gathers effects

variable {c c' : Cache} {v since now : Nat} {status : Option CancelReason}
  {inc : Option Incoming} {stage stage' : Stage} {effects deeds : List Visit.Effect}

/-- Asking for the first page begins a round. -/
theorem gathers_start (h : Untouched deeds) (cursor : Option String) :
    (Round.start cursor).Gathers (deeds ++ [.asked cursor]) := by
  have hf : fetched (deeds ++ [.asked cursor]) = [] := by
    rw [Visit.fetched_append, h.fetched]
    cases cursor <;> rfl
  refine ⟨by rw [hf]; rfl, by rw [hf]; rfl, ?_⟩
  cases cursor with
  | none => simp [Round.start]
  | some cursor =>
    have hno : .asked none ∉ deeds := fun hm => (h _ hm).1 none rfl
    simp [Round.start, hno]

theorem fetched_taken (deeds : List Visit.Effect) (answer : Except Error DeltaPage)
    (told : List RoundEvent) (last : List Visit.Effect) :
    fetched (deeds ++ (taken answer told ++ last))
      = last.foldl Visit.gather (Visit.gather (fetched deeds) (.received answer)) := by
  have htold : (told.map fun e => Visit.Effect.event (.round e))
      = (told.map Visit.Event.round).map .event := by rw [List.map_map]; rfl
  rw [Visit.fetched_append, List.foldl_append, taken, List.foldl_cons, htold,
    Visit.foldl_gather_event]

/-- The listing that a refresh comes to has been gathered. -/
theorem Yields.gathers {l : Listing} (h : Yields stage inc l effects) (hg : stage.Gathers deeds) :
    l.Gathers (deeds ++ effects) := by
  cases h with
  | @fetched round i _ told hn =>
    obtain ⟨page, ha, hm, rfl⟩ := Round.next_complete hn
    have hf : Visit.fetched (deeds ++ taken i.answer told) = Visit.fetched deeds ++ [page] := by
      rw [← List.append_nil (taken _ _), fetched_taken, ha]
      rfl
    refine ⟨?_, ?_, ?_, page, ?_, hm, rfl⟩
    · rw [hf, List.flatMap_append, ← hg.items_eq, List.flatMap_singleton]
    · rw [hf, List.length_append, ← hg.pages_eq]
      rfl
    · simpa [taken] using hg.reset_iff
    · rw [hf, List.getLast?_concat]
  | staged =>
    rw [List.append_nil]
    exact hg

/-- A refresh that goes on gathers what comes in. -/
theorem Advance.gathers
    (h : Advance c v since now status inc stage (.waiting c' stage' effects))
    (hg : stage.Gathers deeds) : stage'.Gathers (deeds ++ effects) := by
  cases h with
  | claimed => exact gathers_start hg _
  | peeked => exact gathers_start hg _
  | @continued _ i round round' told hn =>
    rcases Round.next_more hn with ⟨ha, -, rfl⟩ | ⟨page, cursor, ha, -, -, rfl⟩
    · refine ⟨?_, ?_, ?_⟩
      · rw [fetched_taken]
        rfl
      · rw [fetched_taken]
        rfl
      · simp [Round.start]
    · have hf : fetched (deeds ++ (taken i.answer told ++ [.asked (some cursor)]))
          = fetched deeds ++ [page] := by
        rw [fetched_taken, ha]
        rfl
      refine ⟨?_, ?_, ?_⟩
      · rw [hf, List.flatMap_append, ← hg.items_eq, List.flatMap_singleton]
      · rw [hf, List.length_append, ← hg.pages_eq]
        rfl
      · simpa [taken] using hg.reset_iff
  | staged hn => exact (Yields.fetched hn).gathers hg

end Refresh

namespace Visit

/-- What a visit has gathered in a phase. -/
def Phase.Gathers (effects : List Effect) : Phase → Prop
  | .arriving | .queued _ => Untouched effects
  | .refreshing _ stage => stage.Gathers effects
  | .reading | .finished _ => True

variable {p : Purpose} {c : Cache} {v now : Nat} {status : Option CancelReason}
  {inc : Option Refresh.Incoming} {phase : Phase} {r : Step} {deeds : List Effect}

theorem Phase.Settled.gathers (h : phase.Settled) (effects : List Effect) :
    phase.Gathers effects := by
  rcases h with rfl | ⟨answer, rfl⟩ <;> trivial

/-- A visit that goes on gathers what comes in. -/
theorem Advance.gathers (h : Advance p c v now status inc phase r) (hg : phase.Gathers deeds) :
    r.phase.Gathers (deeds ++ r.effects) := by
  have hmore : ∀ effects : List Effect, Untouched deeds → Untouched effects →
      Untouched (deeds ++ effects) := by
    intro effects h₁ h₂ x hx
    exact (List.mem_append.1 hx).elim (h₁ x) (h₂ x)
  cases h with
  | lined => exact hmore _ hg (by simp [toQueue, Untouched])
  | approached => trivial
  | answered => trivial
  | withdrew => exact (afterRefresh_settled _ _ _ _ _).gathers _
  | shared => exact (afterRefresh_settled _ _ _ _ _).gathers _
  | spared => exact (afterRefresh_settled _ _ _ _ _).gathers _
  | began =>
    have hu : Untouched (deeds ++ [.admitted, .event (.refreshing c.options.strategy)]) :=
      hmore _ hg (by simp [Untouched])
    cases hs : c.options.strategy <;> simpa [Refresh.begin, hs, Phase.Gathers] using hs ▸ hu
  | proceeded hr => exact hr.gathers hg
  | ended => exact (afterRefresh_settled _ _ _ _ _).gathers _
  | dropped => trivial
  | read => trivial

end Visit

/-! ## The listings that were installed -/

/-- The listing that an effect installs. -/
def Visit.Effect.installed? : Visit.Effect → Option Listing
  | .installed l _ => some l
  | _ => none

namespace Trace

/-- The listings that were installed, in order. -/
def installs (trace : List Stamp) : List Listing := trace.filterMap (·.effect.installed?)

theorem installs_append (tr tr' : List Stamp) :
    installs (tr ++ tr') = installs tr ++ installs tr' :=
  List.filterMap_append

theorem installs_stamps (v t : Nat) (effects : List Visit.Effect) :
    installs (effects.map (Stamp.mk v t)) = effects.filterMap (·.installed?) := by
  rw [installs, List.filterMap_map]
  rfl

end Trace

theorem Visit.installed?_eq_nil {effects : List Visit.Effect}
    (h : ∀ l rs, .installed l rs ∉ effects) : effects.filterMap (·.installed?) = [] := by
  rw [List.filterMap_eq_nil_iff]
  intro x hx
  cases x with
  | installed l rs => exact absurd hx (h l rs)
  | _ => rfl

/-- What a cache knows comes from these listings, installed one after the other. -/
structure Cache.Content.Replays (k : Cache.Content) (ls : List Listing) : Prop where
  commits_eq : k.commits = ls.length
  empty : ls = [] → k.records = [] ∧ k.cursor = none
  history : ls ≠ [] → ∃ before l rest, ls = before ++ l :: rest ∧ l.reset = true ∧
    (∀ x ∈ rest, x.reset = false) ∧
    k.records = (Records.merge [] ((l :: rest).flatMap (·.items))).records
  cursor_eq : ∀ l, ls.getLast? = some l → k.cursor = l.cursor

/-- One more listing is installed. -/
theorem Cache.Content.Replays.commit {c : Cache} {ls : List Listing} (h : c.content.Replays ls)
    (l : Listing) (hl : l.reset = false → ls ≠ []) (now : Nat) :
    (c.commit l now).1.content.Replays (ls ++ [l]) := by
  refine ⟨?_, fun hnil => absurd hnil (by simp), fun _ => ?_, fun l' hl' => ?_⟩
  · rw [List.length_append, ← h.commits_eq]
    rfl
  · cases hr : l.reset with
    | true =>
      refine ⟨ls, l, [], rfl, hr, by simp, ?_⟩
      simp [Cache.commit, Cache.content, hr]
    | false =>
      obtain ⟨before, l₀, rest, rfl, hreset, hrest, hrecords⟩ := h.history (hl hr)
      refine ⟨before, l₀, rest ++ [l], by simp, hreset, fun x hx => ?_, ?_⟩
      · rcases List.mem_append.1 hx with hx | hx
        · exact hrest x hx
        · rw [List.mem_singleton.1 hx, hr]
      · have hold : c.records = _ := hrecords
        rw [← List.cons_append, List.flatMap_append, Records.merge_append, ← hold]
        simp [Cache.commit, Cache.content, hr]
  · rw [List.getLast?_concat, Option.some_inj] at hl'
    rw [← hl']
    rfl

/-- The cursor is that of the last listing, if there is any. -/
theorem Cache.Content.Replays.cursor_bind {k : Cache.Content} {ls : List Listing}
    (h : k.Replays ls) : k.cursor = ls.getLast?.bind (·.cursor) := by
  cases hl : ls.getLast? with
  | none => exact (h.empty (List.getLast?_eq_none_iff.1 hl)).2
  | some l => exact h.cursor_eq l hl

namespace Refresh

/-- Unless something was installed before, a refresh makes a full listing. -/
def Stage.Based (ls : List Listing) : Stage → Prop
  | .claiming | .peeking => True
  | .fetching round => round.reset = false → ls ≠ []
  | .installing l => l.reset = false → ls ≠ []

variable {c c' : Cache} {v since now : Nat} {status : Option CancelReason}
  {inc : Option Incoming} {stage stage' : Stage} {effects : List Visit.Effect}
  {ls : List Listing}

theorem Stage.Based.mono (h : stage.Based ls) (ls' : List Listing) : stage.Based (ls ++ ls') := by
  have hmono : ls ≠ [] → ls ++ ls' ≠ [] := fun hne hnil => hne (List.append_eq_nil_iff.1 hnil).1
  cases stage with
  | fetching round => exact fun hr => hmono (h hr)
  | installing l => exact fun hr => hmono (h hr)
  | _ => trivial

theorem Yields.based {l : Listing} (h : Yields stage inc l effects) (hb : stage.Based ls) :
    l.reset = false → ls ≠ [] := by
  cases h with
  | fetched hn =>
    obtain ⟨page, -, -, rfl⟩ := Round.next_complete hn
    exact hb
  | staged => exact hb

/-- Only what was installed leaves a cursor, and only with one is the next listing not a full
one. -/
theorem Advance.based
    (h : Advance c v since now status inc stage (.waiting c' stage' effects))
    (hr : c.content.Replays ls) (hb : stage.Based ls) : stage'.Based ls := by
  have hstart : (Round.start c.cursor).reset = false → ls ≠ [] := by
    rintro hreset rfl
    have hnone : c.cursor = none := (hr.empty rfl).2
    rw [hnone] at hreset
    exact absurd hreset (by simp [Round.start])
  cases h with
  | claimed => exact hstart
  | peeked => exact hstart
  | continued hn =>
    rcases Round.next_more hn with ⟨-, -, rfl⟩ | ⟨page, cursor, -, -, -, rfl⟩
    · exact fun hreset => absurd hreset (by simp [Round.start])
    · exact hb
  | staged hn => exact (Yields.fetched hn).based hb

end Refresh

namespace Visit

variable {p : Purpose} {c : Cache} {v now : Nat} {status : Option CancelReason}
  {inc : Option Refresh.Incoming} {phase : Phase} {r : Step} {ls : List Listing}

theorem Advance.based (h : Advance p c v now status inc phase r) (hr : c.content.Replays ls)
    (hb : ∀ since stage, phase = .refreshing since stage → stage.Based ls) :
    ∀ since stage, r.phase = .refreshing since stage → stage.Based ls := by
  intro since stage hph
  rcases h.refreshing_cases hph with ⟨-, -, -, rfl | rfl⟩ | ⟨stage₀, c', effects, hold, hrun⟩
  · trivial
  · trivial
  · exact hrun.based hr (hb since stage₀ hold)

end Visit

/-! ## Every session -/

namespace Session

open Trace

variable {purpose : Nat → Visit.Purpose}

theorem deeds_after (s : Session) (v : Nat) (r : Visit.Step) :
    deeds v (s.after v r).trace = deeds v s.trace ++ r.effects := by
  rw [after, deeds_append, deeds_stamps]

theorem deeds_after_of_ne {w v : Nat} (h : w ≠ v) (s : Session) (r : Visit.Step) :
    deeds w (s.after v r).trace = deeds w s.trace := by
  rw [after, deeds_append, deeds_stamps_of_ne h, List.append_nil]

/-- Every listing, installed or under way, is made of the pages that its visit fetched for it. -/
structure Gathered (s : Session) : Prop where
  phases : ∀ v, (s.phase v).Gathers (deeds v s.trace)
  listings : ∀ v t before l rs rest, s.trace = before ++ ⟨v, t, .installed l rs⟩ :: rest →
    l.Gathers (deeds v before)

theorem gathered_opening (c : Cache) : Gathered (opening c) := by
  refine ⟨fun v => ?_, fun v t before l rs rest h => absurd h (by simp [opening])⟩
  exact fun x hx => absurd hx (by simp [opening, deeds])

theorem Gathered.step {s s' : Session} {m : Move} (h : Gathered s)
    (hs : s.step purpose m = some s') : Gathered s' := by
  rcases step_cases hs with ⟨v, status, inc, r, -, ha, rfl⟩ | ⟨span, -, rfl⟩
  · refine ⟨fun w => ?_, fun w t before l rs rest hsplit => ?_⟩
    · rcases eq_or_ne w v with rfl | hne
      · rw [deeds_after]
        simpa only [after, Function.update_self] using ha.gathers (h.phases w)
      · rw [deeds_after_of_ne hne]
        simpa only [after, Function.update_of_ne hne] using h.phases w
    · rcases after_trace_split hsplit with ⟨rest', hold, -⟩ | ⟨pre, post, heff, rfl, -, rfl, -⟩
      · exact h.listings w t before l rs rest' hold
      · rcases ha.content with
          ⟨hno, -⟩ | ⟨since, stage, l', before, rest', hph, hy, -, -, heff', hno⟩
        · exact absurd (heff ▸ List.mem_append_right _ List.mem_cons_self) (hno l rs)
        · obtain ⟨rfl, hl, -⟩ := (List.append_cons_inj_of_notMem (hy.not_installed _ _)
            (hno _ _)).1 (heff'.symm.trans heff)
          obtain ⟨rfl, -⟩ := Visit.Effect.installed.inj hl
          rw [deeds_append, deeds_stamps]
          have hg := h.phases w
          rw [hph] at hg
          exact hy.gathers hg
  · exact ⟨h.phases, h.listings⟩

/-- What the cache knows comes from the listings that were installed, and the next one builds on
them unless it is a full one. -/
structure Replayed (s : Session) : Prop where
  content : s.cache.content.Replays (installs s.trace)
  based : ∀ v since stage, s.phase v = .refreshing since stage → stage.Based (installs s.trace)

theorem replayed_opening {container : String} {options : CacheOptions} {c : Cache}
    (hc : Cache.new? container options = .ok c) : Replayed (opening c) := by
  rw [Cache.eq_of_new? hc]
  refine ⟨⟨rfl, fun _ => ⟨rfl, rfl⟩, fun hne => absurd rfl hne, fun l hl => ?_⟩,
    fun v since stage h => ?_⟩
  · exact absurd hl (by simp [opening, installs])
  · exact absurd h (by simp [opening])

theorem Replayed.step {s s' : Session} {m : Move} (h : Replayed s)
    (hs : s.step purpose m = some s') : Replayed s' := by
  rcases step_cases hs with ⟨v, status, inc, r, -, ha, rfl⟩ | ⟨span, -, rfl⟩
  · refine ⟨?_, fun w since stage hw => ?_⟩
    · simp only [after, installs_append, installs_stamps]
      rcases ha.content with ⟨hno, hc⟩ | ⟨since, stage, l, before, rest, hph, hy, -, hc, heff, hno⟩
      · rw [Visit.installed?_eq_nil hno, List.append_nil, hc]
        exact h.content
      · have hl : r.effects.filterMap (·.installed?) = [l] := by
          rw [heff, List.filterMap_append, Visit.installed?_eq_nil hy.not_installed,
            List.filterMap_cons, Visit.installed?_eq_nil hno]
          rfl
        rw [hl, hc]
        exact h.content.commit l (hy.based (h.based v since stage hph)) s.now
    · simp only [after, installs_append]
      refine Refresh.Stage.Based.mono ?_ _
      rcases eq_or_ne w v with rfl | hne
      · simp only [after, Function.update_self] at hw
        exact ha.based h.content (h.based w) since stage hw
      · simp only [after, Function.update_of_ne hne] at hw
        exact h.based w since stage hw
  · exact ⟨h.content, h.based⟩

/-- **The records are a replay of what was installed.**  However the visits take their turns,
whatever the answers to their requests, and whatever failed or was cancelled in between:

* the cache has counted the listings that were installed, and before the first it knows nothing;
* the first listing is a full one, so there is a last full one, and the records are what merging its
  items and those of all later listings gives, in order;
* the cursor is that of the last listing;
* each listing has the items of the pages that its visit had fetched since it was begun, or begun
  anew, and the cursor of the last of them, which said that nothing follows; it is a full one if its
  visit asked for a page without a cursor. -/
theorem records_replay {container : String} {options : CacheOptions} {c : Cache} {s : Session}
    {ms : List Move} (hc : Cache.new? container options = .ok c)
    (h : (opening c).run purpose ms = some s) :
    s.cache.content.Replays (installs s.trace) ∧
    ∀ v t before l rs rest, s.trace = before ++ ⟨v, t, .installed l rs⟩ :: rest →
      l.Gathers (deeds v before) := by
  have hrun : Replayed s ∧ Gathered s :=
    run_induction (P := fun s => Replayed s ∧ Gathered s) h
      ⟨replayed_opening hc, gathered_opening c⟩ fun _ _ _ _ ht hs => ⟨ht.1.step hs, ht.2.step hs⟩
  exact ⟨hrun.1.content, hrun.2.listings⟩

/-- A full listing of two items, and a later one that takes one of them back. -/
theorem records_replay_two :
    ∃ c s, Cache.new? "drive" { refreshInterval := Nanos.second } = .ok c ∧
      (opening c).run (fun _ => .refresh)
        [.turn 0 none none, .turn 0 none none, .turn 0 none none,
          .turn 0 none (some
            ⟨.ok { items := [.file "a" "u"], cursor := some "p", hasMore := true }, none⟩),
          .turn 0 none (some ⟨.ok { items := [.file "b" "v"], cursor := some "d" }, none⟩),
          .pass (2 * Nanos.second), .turn 1 none none, .turn 1 none none, .turn 1 none none,
          .turn 1 none (some ⟨.ok { items := [.tombstone "a"], cursor := some "e" }, none⟩)]
        = some s ∧
      s.cache.content.Replays
        [⟨[.file "a" "u", .file "b" "v"], some "d", true, 2⟩,
          ⟨[.tombstone "a"], some "e", false, 1⟩] := by
  have hc : Cache.new? "drive" { refreshInterval := Nanos.second }
      = .ok { container := "drive", options := { refreshInterval := Nanos.second } } := rfl
  obtain ⟨s, hs, hi⟩ : ∃ s,
      (opening { container := "drive", options := { refreshInterval := Nanos.second } }).run
        (fun _ => .refresh)
        [.turn 0 none none, .turn 0 none none, .turn 0 none none,
          .turn 0 none (some
            ⟨.ok { items := [.file "a" "u"], cursor := some "p", hasMore := true }, none⟩),
          .turn 0 none (some ⟨.ok { items := [.file "b" "v"], cursor := some "d" }, none⟩),
          .pass (2 * Nanos.second), .turn 1 none none, .turn 1 none none, .turn 1 none none,
          .turn 1 none (some ⟨.ok { items := [.tombstone "a"], cursor := some "e" }, none⟩)]
        = some s ∧
      installs s.trace = [⟨[.file "a" "u", .file "b" "v"], some "d", true, 2⟩,
        ⟨[.tombstone "a"], some "e", false, 1⟩] :=
    ⟨_, rfl, rfl⟩
  exact ⟨_, s, hc, hs, hi ▸ (records_replay hc hs).1⟩

end Session

end DriveDelta
