import Mathlib.Logic.Relation
import DriveDelta.Proofs.Cache.Server
import DriveDelta.Proofs.Cache.SingleFlight

/-!
# The cache follows the server

A session runs against a server whose files come and go.  As long as a round of pages is being
fetched the server stays as it is, and it answers honestly.  Everything else is open: what changes
between the rounds, how a listing is spread over pages, which requests fail, who refreshes when, and
who is cancelled.  Whenever a listing is installed, the records then agree with the files that the
server had when the last page came in.

The invariant says what the cursor of the cache stands for, and that a round under way, with
whatever the server still owes it, makes up a full listing or exactly the changes since that cursor.

## What is here

* `Server.Knows`, which says that records are right as of their cursor;
* `Server.Owed`, `Round.Follows` and `Listing.Follows`, what a round and a listing hold, with a
  lemma for each way in which a round can go on;
* `World`, a session and its server, and `World.Step`;
* `World.Faithful`, the invariant, and `World.Faithful.step`;
* `World.converges`: after every installation the cache answers as the server would.
-/

set_option autoImplicit false

namespace DriveDelta

/-! ## What rounds and listings hold -/

namespace Server

/-- The records are right as of the moment at which their cursor was given out. -/
def Knows (s : Server) (k : Cache.Content) : Prop :=
  ∀ c, k.cursor = some c → ∃ n, n ≤ s.log.length ∧ s.bookmarks c = some (.position n) ∧
    k.records.Matches (s.filesAt n)

/-- These items are a full listing of the files that there were after the first `m` changes, or the
changes from the cursor of the cache up to then. -/
structure Owed (s : Server) (m : Nat) (k : Cache.Content) (reset : Bool)
    (items : List DeltaItem) : Prop where
  full : reset = true → Lists (s.filesAt m) items
  changes : reset = false → ∃ c n, k.cursor = some c ∧ n ≤ m ∧
    s.bookmarks c = some (.position n) ∧ Tells ((s.log.take m).drop n) items

variable {s s' : Server} {m : Nat} {k : Cache.Content} {reset : Bool}
  {items items' : List DeltaItem}

theorem Owed.congr (h : s.Owed m k reset items)
    (he : items.filter (·.isFile) = items'.filter (·.isFile)) : s.Owed m k reset items' := by
  refine ⟨fun hr => (h.full hr).congr he, fun hr => ?_⟩
  obtain ⟨c, n, hc, hn, hb, ht⟩ := h.changes hr
  exact ⟨c, n, hc, hn, hb, he.symm.trans ht⟩

theorem Knows.extends (h : s.Knows k) (he : s.Extends s') : s'.Knows k := by
  intro c hc
  obtain ⟨n, hn, hb, hm⟩ := h c hc
  refine ⟨n, he.log_eq ▸ hn, he.position c n hb, ?_⟩
  rwa [filesAt_of_log_eq he.log_eq]

theorem Owed.extends (h : s.Owed m k reset items) (he : s.Extends s') :
    s'.Owed m k reset items := by
  refine ⟨fun hr => filesAt_of_log_eq he.log_eq m ▸ h.full hr, fun hr => ?_⟩
  obtain ⟨c, n, hc, hn, hb, ht⟩ := h.changes hr
  exact ⟨c, n, hc, hn, he.position c n hb, he.log_eq ▸ ht⟩

/-- The server with one more change. -/
def push (s : Server) (x : Change) : Server := ⟨s.log ++ [x], s.bookmarks⟩

theorem length_push (s : Server) (x : Change) : (s.push x).log.length = s.log.length + 1 := by
  simp [push]

theorem Knows.push (h : s.Knows k) (x : Change) : (s.push x).Knows k := by
  intro c hc
  obtain ⟨n, hn, hb, hm⟩ := h c hc
  refine ⟨n, ?_, hb, ?_⟩
  · rw [length_push]
    exact Nat.le_succ_of_le hn
  · rwa [Server.push, filesAt_append hn]

theorem Owed.push (h : s.Owed m k reset items) (hm : m ≤ s.log.length) (x : Change) :
    (s.push x).Owed m k reset items := by
  refine ⟨fun hr => filesAt_append hm [x] s.bookmarks ▸ h.full hr, fun hr => ?_⟩
  obtain ⟨c, n, hc, hn, hb, ht⟩ := h.changes hr
  refine ⟨c, n, hc, hn, hb, ?_⟩
  rwa [Server.push, List.take_append_of_le_length hm]

end Server

open Server

/-- A round under way, with whatever the server still owes it, makes up what it was begun for. -/
def Round.Follows (s : Server) (k : Cache.Content) (round : Round) : Prop :=
  ∀ rest, s.Owes round.cursor rest → s.Owed s.log.length k round.reset (round.items ++ rest)

/-- A finished round makes up what it was begun for, as of the moment `m` for which its cursor
stands. -/
structure Listing.Follows (s : Server) (m : Nat) (k : Cache.Content) (l : Listing) : Prop where
  owed : s.Owed m k l.reset l.items
  cursor : ∀ c, l.cursor = some c → s.bookmarks c = some (.position m)

namespace Round

variable {s s' : Server} {k : Cache.Content} {round round' : Round} {l : Listing}
  {answer : Except Error DeltaPage} {told : List RoundEvent}

/-- A full listing may begin at any time. -/
theorem follows_full (s : Server) (k : Cache.Content) : (start none).Follows s k :=
  fun _ hr => ⟨fun _ => hr, fun h => absurd h (by simp [start])⟩

/-- The round that begins at the cursor of the cache. -/
theorem follows_start (h : s.Knows k) : (start k.cursor).Follows s k := by
  cases hc : k.cursor with
  | none => exact follows_full s k
  | some c =>
    intro rest hr
    obtain ⟨n, hn, hb, -⟩ := h c hc
    refine ⟨fun h => absurd h (by simp [start]), fun _ => ⟨c, n, hc, hn, hb, ?_⟩⟩
    simp only [start, Owes, hb] at hr
    rwa [List.take_length]

/-- One more page comes in, or the round begins anew. -/
theorem Follows.more (h : round.Follows s k) (ha : s.Answers round.cursor answer s')
    (hn : round.next answer = (.more round', told)) : round'.Follows s' k := by
  rcases next_more hn with ⟨-, -, rfl⟩ | ⟨page, cursor, rfl, hm, hc, rfl⟩
  · exact follows_full s' k
  · obtain ⟨next, rest, hnext, howed, hrest⟩ := ha.more page rfl hm
    obtain rfl : next = cursor := Option.some_inj.1 (hnext.symm.trans hc)
    intro rest' hr'
    have hold := (h _ howed).extends ha.toExtends
    rw [← List.append_assoc, ← ha.log_eq] at hold
    exact hold.congr (by
      rw [List.filter_append, List.filter_append _ rest', hrest.filter_eq hr'])

/-- The last page comes in. -/
theorem Follows.complete (h : round.Follows s k) (ha : s.Answers round.cursor answer s')
    (hn : round.next answer = (.complete l, told)) : l.Follows s' s'.log.length k := by
  obtain ⟨page, rfl, hm, rfl⟩ := next_complete hn
  obtain ⟨howed, hcursor⟩ := ha.last page rfl hm
  refine ⟨?_, fun c hc => ?_⟩
  · rw [ha.log_eq]
    exact (h _ howed).extends ha.toExtends
  · rw [ha.log_eq]
    exact hcursor c hc

end Round

/-- Installing what the server owed makes the records right. -/
theorem Listing.Follows.commit {s : Server} {m : Nat} {c : Cache} {l : Listing}
    (h : l.Follows s m c.content) (hk : s.Knows c.content) (hm : m ≤ s.log.length)
    (hv : ∀ x ∈ s.log, x.Valid) (now : Nat) :
    (c.commit l now).1.records.Matches (s.filesAt m) ∧ s.Knows (c.commit l now).1.content := by
  have hmatches : (c.commit l now).1.records.Matches (s.filesAt m) := by
    cases hr : l.reset with
    | true =>
      simp only [Cache.commit, hr, if_pos]
      exact Records.matches_lists (h.owed.full hr) fun id url => filesAt_valid hv m
    | false =>
      obtain ⟨cursor, n, hc, hn, hb, ht⟩ := h.owed.changes hr
      obtain ⟨n', -, hb', hold⟩ := hk cursor hc
      obtain rfl : n' = n := by simpa [hb] using hb'.symm
      simp only [Cache.commit, hr]
      rw [← filesAt_drop hn]
      exact hold.tells
        (fun x hx => hv x (List.mem_of_mem_take (List.mem_of_mem_drop hx))) ht
  exact ⟨hmatches, fun cursor hc => ⟨m, hm, h.cursor cursor hc, hmatches⟩⟩

/-- What the refresh at a stage holds is what the server owed it. -/
def Refresh.Stage.Follows (s : Server) (heard : Nat) (k : Cache.Content) : Stage → Prop
  | .claiming | .peeking => True
  | .fetching round => round.Follows s k
  | .installing l => l.Follows s heard k ∧ k.options.strategy = .shadow

theorem Refresh.Stage.Follows.push {s : Server} {heard : Nat} {k : Cache.Content}
    {stage : Refresh.Stage} (h : stage.Follows s heard k) (hm : heard ≤ s.log.length)
    (hf : ∀ round, stage ≠ .fetching round) (x : Change) : stage.Follows (s.push x) heard k := by
  cases stage with
  | fetching round => exact absurd rfl (hf round)
  | installing l => exact ⟨⟨h.1.owed.push hm x, h.1.cursor⟩, h.2⟩
  | _ => trivial

/-! ## Sessions with a server -/

/-- A session and the server that its requests go to. -/
structure World where
  session : Session
  server : Server
  /-- How many changes there had been when the last answer came in. -/
  heard : Nat := 0

namespace World

/-- What may happen next. -/
inductive Step (purpose : Nat → Visit.Purpose) : World → World → Prop
  /-- The files change while no page is being fetched. -/
  | change {w : World} (x : Change) (hx : x.Valid)
      (hf : ∀ v since round, w.session.phase v ≠ .refreshing since (.fetching round)) :
      Step purpose w { w with server := w.server.push x }
  /-- The answer to a request for a page comes in, with any status of the context. -/
  | answer {w : World} {v since : Nat} {round : Round} {status : Option CancelReason}
      {i : Refresh.Incoming} {server : Server} {session : Session}
      (hph : w.session.phase v = .refreshing since (.fetching round))
      (ha : w.server.Answers round.cursor i.answer server)
      (hs : w.session.step purpose (.turn v status (some i)) = some session) :
      Step purpose w ⟨session, server, server.log.length⟩
  /-- Any other move. -/
  | move {w : World} {m : Session.Move} {session : Session}
      (hm : ∀ v status i since round, m = .turn v status (some i) →
        w.session.phase v ≠ .refreshing since (.fetching round))
      (hs : w.session.step purpose m = some session) :
      Step purpose w { w with session }

variable {purpose : Nat → Visit.Purpose} {w w' : World}

/-- Cache and server agree as far as the cursor of the cache goes, and a refresh under way holds
what the server owed it. -/
structure Faithful (w : World) : Prop where
  kept : Session.Kept w.session
  valid : ∀ x ∈ w.server.log, x.Valid
  heard_le : w.heard ≤ w.server.log.length
  knows : w.server.Knows w.session.cache.content
  stages : ∀ v since stage, w.session.phase v = .refreshing since stage →
    stage.Follows w.server w.heard w.session.cache.content

/-- The records agree with the files that there were when the last answer came in. -/
def Agrees (w : World) : Prop :=
  w.session.cache.records.Matches (w.server.filesAt w.heard) ∧
    (w.session.cache.options.strategy = .exclusive → w.heard = w.server.log.length)

theorem Faithful.change (h : Faithful w) {x : Change} (hx : x.Valid)
    (hf : ∀ v since round, w.session.phase v ≠ .refreshing since (.fetching round)) :
    Faithful { w with server := w.server.push x } := by
  refine ⟨h.kept, fun y hy => ?_, ?_, h.knows.push x, fun v since stage hph => ?_⟩
  · rcases List.mem_append.1 hy with hy | hy
    · exact h.valid y hy
    · rwa [List.mem_singleton.1 hy]
  · rw [length_push]
    exact Nat.le_succ_of_le h.heard_le
  · have hnot : ∀ round, stage ≠ .fetching round := by
      rintro round rfl
      exact hf v since round hph
    exact (h.stages v since stage hph).push h.heard_le hnot x

/-- Nobody else refreshes while a visit goes on with its refresh. -/
theorem Faithful.alone (h : Faithful w) {v since : Nat} {stage : Refresh.Stage}
    (hph : w.session.phase v = .refreshing since stage) {r : Visit.Step} {u since' : Nat}
    {stage' : Refresh.Stage} (hu : (w.session.after v r).phase u = .refreshing since' stage') :
    u = v ∧ r.phase = .refreshing since' stage' := by
  rcases eq_or_ne u v with rfl | hne
  · simp only [Session.after, Function.update_self] at hu
    exact ⟨rfl, hu⟩
  · simp only [Session.after, Function.update_of_ne hne] at hu
    exact absurd (h.kept.orderly.refreshing_unique hu hph) hne

/-- An answer comes in. -/
theorem Faithful.answer (h : Faithful w) {v since : Nat} {round : Round}
    {status : Option CancelReason} {i : Refresh.Incoming} {server : Server} {session : Session}
    (hph : w.session.phase v = .refreshing since (.fetching round))
    (ha : w.server.Answers round.cursor i.answer server)
    (hs : w.session.step purpose (.turn v status (some i)) = some session) :
    Faithful ⟨session, server, server.log.length⟩ ∧
      (session.cache.commits ≠ w.session.cache.commits →
        Agrees ⟨session, server, server.log.length⟩) := by
  have hkept := h.kept.step hs
  have hround : round.Follows w.server w.session.cache.content := h.stages v since _ hph
  have hvalid : ∀ x ∈ server.log, x.Valid := by
    rw [ha.log_eq]
    exact h.valid
  have hknows := h.knows.extends ha.toExtends
  rcases Session.step_cases hs with ⟨_, _, _, r, hm, hadv, rfl⟩ | ⟨span, hm, -⟩
  · obtain ⟨rfl, rfl, rfl⟩ := Session.Move.turn.inj hm
    rcases hadv.content with ⟨-, hc⟩ | ⟨_, stage, l, before, rest, hph', hy, hset, hc, -, -⟩
    · refine ⟨⟨hkept, hvalid, Nat.le_refl _, hc ▸ hknows, fun u since' stage' hu => ?_⟩,
        fun hne => absurd (congrArg Cache.Content.commits hc) hne⟩
      obtain ⟨rfl, hr⟩ := h.alone hph hu
      rw [Session.after, hc]
      rcases hadv.refreshing_cases hr with ⟨_, hq, -⟩ | ⟨stage₀, c', effects, hold, hrun⟩
      · exact absurd (hq.symm.trans hph) (by simp)
      · obtain ⟨rfl, rfl⟩ := Visit.Phase.refreshing.inj (hold.symm.trans hph)
        cases hrun with
        | continued hn => exact hround.more ha hn
        | staged hn hx => exact ⟨hround.complete ha hn, hx⟩
    · obtain ⟨rfl, rfl⟩ := Visit.Phase.refreshing.inj (hph'.symm.trans hph)
      cases hy with
      | fetched hn =>
        obtain ⟨hmatches, hknows'⟩ :=
          (hround.complete ha hn).commit hknows (Nat.le_refl _) hvalid w.session.now
        have hrecords : r.cache.records = _ := congrArg Cache.Content.records hc
        refine ⟨⟨hkept, hvalid, Nat.le_refl _, hc ▸ hknows', fun u since' stage' hu => ?_⟩,
          fun _ => ⟨?_, fun _ => rfl⟩⟩
        · exact absurd (h.alone hph hu).2 (hset.ne_refreshing since' stage')
        · simp only [Session.after, hrecords]
          exact hmatches
  · exact absurd hm (by simp)

/-- Any other move is made. -/
theorem Faithful.move (h : Faithful w) {m : Session.Move} {session : Session}
    (hm : ∀ v status i since round, m = .turn v status (some i) →
      w.session.phase v ≠ .refreshing since (.fetching round))
    (hs : w.session.step purpose m = some session) :
    Faithful { w with session } ∧
      (session.cache.commits ≠ w.session.cache.commits → Agrees { w with session }) := by
  have hkept := h.kept.step hs
  rcases Session.step_cases hs with ⟨v, status, inc, r, rfl, hadv, rfl⟩ | ⟨span, -, rfl⟩
  · rcases hadv.content with ⟨-, hc⟩ | ⟨since, stage, l, before, rest, hph, hy, hset, hc, -, -⟩
    · refine ⟨⟨hkept, h.valid, h.heard_le, hc ▸ h.knows, fun u since stage hu => ?_⟩,
        fun hne => absurd (congrArg Cache.Content.commits hc) hne⟩
      rw [Session.after, hc]
      rcases eq_or_ne u v with rfl | hne
      · simp only [Session.after, Function.update_self] at hu
        rcases hadv.refreshing_cases hu with
          ⟨_, -, -, rfl | rfl⟩ | ⟨stage₀, c', effects, hold, hrun⟩
        · trivial
        · trivial
        · cases hrun with
          | claimed => exact Round.follows_start h.knows
          | peeked => exact Round.follows_start h.knows
          | continued | staged => exact absurd hold (hm u status _ since _ rfl)
      · simp only [Session.after, Function.update_of_ne hne] at hu
        exact h.stages u since stage hu
    · cases hy with
      | fetched => exact absurd hph (hm v status _ since _ rfl)
      | staged =>
        obtain ⟨hl, hx⟩ := h.stages v since _ hph
        obtain ⟨hmatches, hknows⟩ := hl.commit h.knows h.heard_le h.valid w.session.now
        have hrecords : r.cache.records = _ := congrArg Cache.Content.records hc
        have hoptions := congrArg Cache.Content.options hc
        refine ⟨⟨hkept, h.valid, h.heard_le, hc ▸ hknows, fun u since' stage' hu => ?_⟩,
          fun _ => ⟨?_, fun he => ?_⟩⟩
        · exact absurd (h.alone hph hu).2 (hset.ne_refreshing since' stage')
        · simp only [Session.after, hrecords]
          exact hmatches
        · -- in exclusive mode nothing waits to be installed
          have hshadow : r.cache.options.strategy = .shadow := by
            rw [← hx]
            exact congrArg CacheOptions.strategy hoptions
          exact absurd (he.symm.trans hshadow) (by simp)
  · exact ⟨⟨hkept, h.valid, h.heard_le, h.knows, h.stages⟩, fun hne => absurd rfl hne⟩

theorem Faithful.step (h : Faithful w) (hs : Step purpose w w') :
    Faithful w' ∧
      (w'.session.cache.commits ≠ w.session.cache.commits → Agrees w') := by
  cases hs with
  | change x hx hf => exact ⟨h.change hx hf, fun hne => absurd rfl hne⟩
  | answer hph ha hs => exact h.answer hph ha hs
  | move hm hs => exact h.move hm hs

theorem faithful_opening {container : String} {options : CacheOptions} {c : Cache}
    (hc : Cache.new? container options = .ok c) {server : Server}
    (hv : ∀ x ∈ server.log, x.Valid) : Faithful { session := Session.opening c, server } := by
  refine ⟨Session.kept_opening hc, hv, Nat.zero_le _, fun cursor h => ?_, fun v since stage h => ?_⟩
  · rw [Cache.eq_of_new? hc] at h
    exact absurd h (by simp [Session.opening, Cache.content])
  · exact absurd h (by simp [Session.opening])

theorem faithful_of_reach {container : String} {options : CacheOptions} {c : Cache}
    (hc : Cache.new? container options = .ok c) {server : Server}
    (hv : ∀ x ∈ server.log, x.Valid)
    (h : Relation.ReflTransGen (Step purpose) { session := Session.opening c, server } w) :
    Faithful w := by
  induction h with
  | refl => exact faithful_opening hc hv
  | tail _ hstep ih => exact (ih.step hstep).1

/-- Moves that bring no answers leave the server alone. -/
theorem reach_of_run {purpose : Nat → Visit.Purpose} {s s' : Session} {ms : List Session.Move}
    (h : s.run purpose ms = some s') (hm : ∀ m ∈ ms, ∀ v status i, m ≠ .turn v status (some i))
    (server : Server) (heard : Nat) :
    Relation.ReflTransGen (Step purpose) ⟨s, server, heard⟩ ⟨s', server, heard⟩ := by
  refine Session.run_induction
    (P := fun t => Relation.ReflTransGen (Step purpose) ⟨s, server, heard⟩ ⟨t, server, heard⟩)
    h .refl fun m hmem t t' ht hs => ht.tail ?_
  refine .move (w := ⟨t, server, heard⟩) (fun v status i _ _ he => ?_) hs
  exact absurd he (hm m hmem v status i)

/-- **The cache follows the server.**  Whatever has happened between a cache and an honest server, a
step that installs a listing leaves the cache with an answer for every id that is the server's own:
the record with its address for a file, and gone or not found for any other id.  The files are those
that the server had when the last page came in.  In exclusive mode that is the step itself. -/
theorem converges {container : String} {options : CacheOptions} {c : Cache}
    (hc : Cache.new? container options = .ok c) {server : Server}
    (hv : ∀ x ∈ server.log, x.Valid)
    (h : Relation.ReflTransGen (Step purpose) { session := Session.opening c, server } w)
    (hs : Step purpose w w')
    (hcommit : w'.session.cache.commits ≠ w.session.cache.commits) :
    (∀ id url, w'.server.filesAt w'.heard id = some url ↔
      ∃ r, w'.session.cache.lookup id = .ok r ∧ r.accessLocator = some url) ∧
    (∀ id, w'.server.filesAt w'.heard id = none →
      w'.session.cache.lookup id = .error (.gone id) ∨
        w'.session.cache.lookup id = .error (.notFound id)) ∧
    (w'.session.cache.options.strategy = .exclusive → w'.heard = w'.server.log.length) := by
  obtain ⟨hmatches, hx⟩ := ((faithful_of_reach hc hv h).step hs).2 hcommit
  refine ⟨fun id url => ?_, fun id hnone => ?_, hx⟩
  · have hid := hmatches.answer id
    cases hu : w'.server.filesAt w'.heard id with
    | some url' =>
      rw [hu] at hid
      simp [Cache.lookup, hid]
    | none =>
      rw [hu] at hid
      rcases hid with hid | hid <;> simp [Cache.lookup, hid]
  · have hid := hmatches.answer id
    rwa [hnone] at hid

/-- A file comes and goes, another one comes, and the cache is filled: it knows the second. -/
theorem converges_after_changes :
    ∃ c server w w', Cache.new? "drive" { refreshInterval := Nanos.second } = .ok c ∧
      server.log = [.put "a" "u", .delete "a"] ∧
      Relation.ReflTransGen (Step fun _ => .refresh) { session := Session.opening c, server } w ∧
      Step (fun _ => .refresh) w w' ∧ w'.server.log = [.put "a" "u", .delete "a", .put "b" "v"] ∧
      (∃ r, w'.session.cache.lookup "b" = .ok r ∧ r.accessLocator = some "v") ∧
      (w'.session.cache.lookup "a" = .error (.gone "a") ∨
        w'.session.cache.lookup "a" = .error (.notFound "a")) := by
  have hc : Cache.new? "drive" { refreshInterval := Nanos.second }
      = .ok { container := "drive", options := { refreshInterval := Nanos.second } } := rfl
  obtain ⟨s, s', round, hs, hph, hround, hs', hcommits⟩ : ∃ s s' round,
      (Session.opening
        { container := "drive", options := { refreshInterval := Nanos.second } }).run
        (fun _ => .refresh) [.turn 0 none none, .turn 0 none none, .turn 0 none none] = some s ∧
      s.phase 0 = .refreshing 0 (.fetching round) ∧ round.cursor = none ∧
      s.step (fun _ => .refresh) (.turn 0 none (some ⟨.ok { items := [.file "b" "v"] }, none⟩))
        = some s' ∧ s'.cache.commits ≠ s.cache.commits :=
    ⟨_, _, _, rfl, rfl, rfl, rfl, by decide⟩
  have hchange : Step (fun _ => .refresh)
      ⟨Session.opening { container := "drive", options := { refreshInterval := Nanos.second } },
        ⟨[.put "a" "u", .delete "a"], fun _ => none⟩, 0⟩ _ :=
    .change (.put "b" "v") (by simp [Change.Valid]) (by simp [Session.opening])
  have hreach := Relation.ReflTransGen.head hchange (reach_of_run hs (by simp) _ 0)
  have hlists : Server.Lists
      (Server.filesAt ⟨[.put "a" "u", .delete "a", .put "b" "v"], fun _ => none⟩ 3)
      [.file "b" "v"] := by
    refine ⟨fun item hm _ => ⟨"b", "v", List.mem_singleton.1 hm, rfl⟩, fun id url hu => ?_⟩
    by_cases hb : id = "b"
    · obtain rfl : "v" = url := by simpa [Server.filesAt, Change.apply, hb] using hu
      simp [hb]
    · have hnone : Server.filesAt ⟨[.put "a" "u", .delete "a", .put "b" "v"], fun _ => none⟩ 3 id
          = none := by
        by_cases ha : id = "a" <;> simp [Server.filesAt, Change.apply, ha, hb]
      exact absurd (hnone.symm.trans hu) (by simp)
  have hstep : Step (fun _ => .refresh)
      ⟨s, ⟨[.put "a" "u", .delete "a", .put "b" "v"], fun _ => none⟩, 0⟩
      ⟨s', ⟨[.put "a" "u", .delete "a", .put "b" "v"], fun _ => none⟩, 3⟩ := by
    refine .answer hph ⟨⟨rfl, fun _ _ hb => hb⟩, fun page hp hm => ?_, fun page hp _ => ?_⟩ hs'
    · cases hp
      exact absurd hm (by simp)
    · cases hp
      refine ⟨?_, by simp⟩
      rw [hround]
      exact hlists
  have hvalid : ∀ x ∈ [Change.put "a" "u", .delete "a"], x.Valid := by
    simp [Change.Valid]
  obtain ⟨hfiles, hnone, -⟩ := converges hc hvalid hreach hstep hcommits
  exact ⟨_, _, _, _, hc, rfl, hreach, hstep, rfl, (hfiles "b" "v").1 rfl, hnone "a" rfl⟩

end World

end DriveDelta
