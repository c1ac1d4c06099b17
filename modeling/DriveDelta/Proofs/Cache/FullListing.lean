import DriveDelta.Proofs.Cache.Success
import DriveDelta.Rehearsal.Pages

/-!
# Full listings of a remote drive

A remote drive knows nothing of full listings.  It is asked for what stands at an address, which is
a link that it gave out before or the address of the first page.  The cache knows nothing of
addresses.  It asks for a page with a cursor or without one, and what it asked for without a cursor
replaces all that was known.

The two agree when nothing but a request without a cursor is for the first page.  The drive can
break this, and only by a link that is empty or that is the address of the first page itself.  A
request with either of them as its cursor fetches a full listing, which the cache then takes for
changes.

## What is here

* `PageRequest.answer`, what becomes of a request, and `PageTask.step_cases`, which says that page
  tasks end with it;
* `Session.RemoteMove` and `Session.runRemote`, sessions whose pages come from a remote drive;
* `PageRequest.address_eq_firstPage`, the requests that are for the first page;
* `Trace.links`, the links that were received, and `Session.Linked`, where cursors come from;
* `Visit.Advance.asked` and `Session.Asking`, why pages are asked for;
* `Session.first_page_opens_full_listing`, for every session over a remote drive;
* `Session.empty_link_keeps_deleted`, an item that stays although a full listing lacks it.
-/

set_option autoImplicit false

namespace DriveDelta

/-! ## Pages of a remote drive -/

/-- The request for a page that a cursor leads to. -/
def Cache.pageRequest (c : Cache) (cursor : Option String) : PageRequest :=
  { container := c.container, cursor, page := c.options.page }

namespace PageRequest

/-- What becomes of a request for a page when the call that it makes has this result.  A request
without an address makes no call. -/
def answer (r : PageRequest) (base : String) (result : Except Error Response) :
    Except Error DeltaPage :=
  match r.address base with
  | .error e => .error e
  | .ok _ => r.result result

/-- A request is for the first page when it has no cursor, or one that is empty, or the address of
that page for a cursor. -/
theorem address_eq_firstPage {r : PageRequest} {base first : String} (hc : r.container ≠ "")
    (hf : DriveAddress.firstPage base r.container r.page = .ok first) :
    r.address base = .ok first ↔
      r.cursor = none ∨ r.cursor = some "" ∨ r.cursor = some first := by
  rw [address, if_neg hc]
  cases hcur : r.cursor with
  | none => simp [hf]
  | some link =>
    by_cases hl : link = ""
    · subst hl
      simp [Option.filter, hf]
    · simp [Option.filter, hl]

/-- A page that can be read is the answer to the request for it. -/
theorem answer_of_decode {r : PageRequest} {base address : String} {body : Bytes} {page : DeltaPage}
    (ha : r.address base = .ok address) (hd : DeltaPage.decode body = .ok page) :
    r.answer base (.ok { status := 200, body }) = .ok page := by
  simp only [answer, ha, result, hd]

/-- A cursor that the remote rejects has expired. -/
theorem answer_of_expired {r : PageRequest} {base address link : String} (problem : String)
    (ha : r.address base = .ok address) (hc : r.cursor = some link) :
    r.answer base (.error (.fatal (some expiredStatus) problem)) = .error .cursorExpired := by
  simp [answer, ha, result, hc]

end PageRequest

namespace PageTask

/-- The request that a page task is for. -/
def request : PageTask → PageRequest
  | .opening q | .calling q _ => q

/-- A call is made only for a request that has an address. -/
def Placed (base : String) : PageTask → Prop
  | .opening _ => True
  | .calling q _ => ∃ address, q.address base = .ok address

/-- A page task goes on with its request, and it ends with what becomes of it. -/
theorem step_cases {g : Glance} {r : Remote} {t : PageTask} {p : Progress Remote PageTask Result}
    (h : t.step g r = some p) (hp : t.Placed r.base) :
    p.shared.base = r.base ∧
      ((∃ t', p.state = .inl t' ∧ t'.request = t.request ∧ t'.Placed r.base) ∨
        ∃ result, p.state = .inr (t.request.answer r.base result)) := by
  cases t with
  | opening q =>
    obtain rfl := (Option.some_inj.1 h).symm
    refine ⟨rfl, ?_⟩
    simp only [begin, request]
    cases ha : q.address r.base with
    | error e => exact .inr ⟨.error e, by simp [PageRequest.answer, ha]⟩
    | ok address => exact .inl ⟨_, rfl, rfl, address, ha⟩
  | calling q task =>
    obtain ⟨address, ha⟩ := hp
    obtain ⟨x, -, rfl⟩ := Option.map_eq_some_iff.1 h
    refine ⟨rfl, ?_⟩
    cases hx : x.state with
    | inl task' => exact .inl ⟨.calling q task', by simp, rfl, address, ha⟩
    | inr result =>
      exact .inr ⟨result.result, by simp [request, PageRequest.answer, ha]⟩

end PageTask

namespace Session

open Trace Visit

variable {purpose : Nat → Purpose} {base : String} {s s' : Session} {v : Nat}

/-- The request that a visit waits for an answer to. -/
def request? (s : Session) (v : Nat) : Option PageRequest :=
  match s.phase v with
  | .refreshing _ (.fetching round) => some (s.cache.pageRequest round.cursor)
  | _ => none

/-- What may happen next when the pages come from a remote drive. -/
inductive RemoteMove where
  /-- A visit gets its turn, with this status of its context. -/
  | turn (visit : Nat) (status : Option CancelReason)
  /-- The call for the page that a visit waits for ends, and its context has this status by then. -/
  | reply (visit : Nat) (result : Except Error Response) (status : Option CancelReason)
  | pass (span : Nat)

/-- The move that this is. -/
def RemoteMove.move (base : String) (s : Session) : RemoteMove → Move
  | .turn v status => .turn v status none
  | .reply v result status =>
    .turn v status ((s.request? v).map fun q => ⟨q.answer base result, status⟩)
  | .pass span => .pass span

/-- Moves one after the other, over the drive behind a base URL. -/
def runRemote (base : String) (purpose : Nat → Purpose) : Session → List RemoteMove → Option Session
  | s, [] => some s
  | s, m :: ms =>
    match s.step purpose (m.move base s) with
    | some s' => runRemote base purpose s' ms
    | none => none

theorem runRemote_append {t : Session} {ms ms' : List RemoteMove}
    (h : s.runRemote base purpose ms = some t) (h' : t.runRemote base purpose ms' = some s') :
    s.runRemote base purpose (ms ++ ms') = some s' := by
  induction ms generalizing s with
  | nil => rwa [← Option.some_inj.1 h] at h'
  | cons m ms ih =>
    rw [runRemote] at h
    split at h
    · rename_i u hu
      rw [List.cons_append, runRemote, hu]
      exact ih h
    · exact absurd h (by simp)

/-- A call for a page ends. -/
theorem runRemote_reply {q : PageRequest} {result : Except Error Response}
    {answer : Except Error DeltaPage} {status : Option CancelReason} (hq : s.request? v = some q)
    (ha : q.answer base result = answer)
    (hs : s.step purpose (.turn v status (some ⟨answer, status⟩)) = some s') :
    s.runRemote base purpose [.reply v result status] = some s' := by
  rw [runRemote, RemoteMove.move, hq, Option.map_some, ha, hs]
  rfl

/-- A session over a remote drive is a session. -/
theorem run_of_runRemote {ms : List RemoteMove} (h : s.runRemote base purpose ms = some s') :
    ∃ moves, s.run purpose moves = some s' := by
  induction ms generalizing s with
  | nil => exact ⟨[], h⟩
  | cons m ms ih =>
    rw [runRemote] at h
    split at h
    · rename_i t ht
      obtain ⟨moves, hm⟩ := ih h
      refine ⟨m.move base s :: moves, ?_⟩
      rw [run, ht]
      exact hm
    · exact absurd h (by simp)

end Session

/-! ## Where cursors come from -/

/-- The link that an effect receives. -/
def Visit.Effect.link? (e : Visit.Effect) : Option String :=
  match e.answer? with
  | some (.ok page) => page.cursor
  | _ => none

namespace Trace

/-- The links that were received, in order. -/
def links (trace : List Stamp) : List String := trace.filterMap (·.effect.link?)

theorem links_append (tr tr' : List Stamp) : links (tr ++ tr') = links tr ++ links tr' :=
  List.filterMap_append

theorem mem_links_of_received {v t : Nat} {effects : List Visit.Effect} {page : DeltaPage}
    {link : String} (hp : .received (.ok page) ∈ effects) (hl : page.cursor = some link) :
    link ∈ links (effects.map (Stamp.mk v t)) :=
  List.mem_filterMap.2 ⟨_, List.mem_map_of_mem hp, hl⟩

/-- What a visit has closed its listing with is a link that was received. -/
theorem mem_links_of_closedBy {tr : List Stamp} {effects : List Visit.Effect} {link : String}
    (h : Visit.ClosedBy (some link) effects) (hsub : ∀ e ∈ effects, ∃ x ∈ tr, x.effect = e) :
    link ∈ links tr := by
  obtain ⟨page, hlast, -, hl⟩ := h
  obtain ⟨e, he, ha⟩ := List.mem_filterMap.1 (List.mem_of_getLast? hlast)
  obtain ⟨x, hx, rfl⟩ := hsub e he
  refine List.mem_filterMap.2 ⟨x, hx, ?_⟩
  rw [Visit.Effect.link?, ha, hl]

end Trace

/-! ## One step -/

/-- What a visit has done just before it asks for another page: it has taken in that its cursor was
rejected, and asks without one, or it has taken in a page, and asks with its link. -/
def Visit.Continues (before : List Visit.Effect) (cursor : Option String) : Prop :=
  (cursor = none ∧ before = [.received (.error .cursorExpired), .event (.round .restarted)]) ∨
    ∃ page link, cursor = some link ∧ .received (.ok page) ∈ before ∧ page.cursor = some link

namespace Refresh

variable {c : Cache} {v since now : Nat} {status : Option CancelReason} {inc : Option Incoming}
  {stage : Stage}

theorem continues_of_next {round round' : Round} {answer : Except Error DeltaPage}
    {told : List RoundEvent} (h : round.next answer = (.more round', told)) :
    Visit.Continues (taken answer told) round'.cursor := by
  rcases Round.next_more h with ⟨rfl, hr, rfl⟩ | ⟨page, link, rfl, -, hl, rfl⟩
  · obtain rfl : told = [.restarted] := by simpa [Round.next, hr, eq_comm] using h
    exact .inl ⟨rfl, rfl⟩
  · exact .inr ⟨page, link, rfl, List.mem_cons_self, hl⟩

/-- A refresh asks for its first page with the cursor of the cache, and for a later one when it has
taken an answer in. -/
theorem Advance.asked {t : Turn} (h : Advance c v since now status inc stage t)
    {before rest : List Visit.Effect} {cursor : Option String}
    (he : t.effects = before ++ .asked cursor :: rest) :
    (stage.IsFirst ∧ before = [] ∧ cursor = c.cursor) ∨ Visit.Continues before cursor := by
  have hone : ∀ {x : Option String} {l : List Visit.Effect}, .asked cursor ∉ l →
      t.effects = l ++ [.asked x] → before = l ∧ cursor = x := by
    intro x l hl heff
    obtain ⟨rfl, hx, -⟩ :=
      (List.append_cons_inj_of_notMem hl List.not_mem_nil).1 (heff.symm.trans he)
    exact ⟨rfl, (Visit.Effect.asked.inj hx).symm⟩
  have hmem : .asked cursor ∈ t.effects := by simp [he]
  cases h with
  | claimed => exact .inl ⟨.inl rfl, hone List.not_mem_nil rfl⟩
  | peeked => exact .inl ⟨.inr rfl, hone List.not_mem_nil rfl⟩
  | continued hn =>
    obtain ⟨rfl, rfl⟩ := hone (by simp [taken]) rfl
    exact .inr (continues_of_next hn)
  | abandoned | stopped | failed | completed | staged | installed =>
    exact absurd hmem (by simp [Turn.effects, taken, installation])

end Refresh

namespace Visit

variable {p : Purpose} {c : Cache} {v now : Nat} {status : Option CancelReason}
  {inc : Option Refresh.Incoming} {phase : Phase} {r : Step}

/-- The same for a visit. -/
theorem Advance.asked (h : Advance p c v now status inc phase r) {before rest : List Effect}
    {cursor : Option String} (he : r.effects = before ++ .asked cursor :: rest) :
    (∃ since stage, phase = .refreshing since stage ∧ stage.IsFirst ∧ before = [] ∧
      cursor = c.cursor) ∨ Continues before cursor := by
  have hmem : .asked cursor ∈ r.effects := by simp [he]
  have hout : ∀ (c' : Cache) (outcome : Except Error Unit) (effects : List Effect),
      .asked cursor ∈ (afterRefresh p c' v outcome effects).effects → .asked cursor ∈ effects := by
    intro c' outcome effects hm
    obtain ⟨line, ph, told, -, heq⟩ := afterRefresh_frame p c' v outcome effects
    simpa [heq] using hm
  cases h with
  | lined | approached | answered | began | dropped | read =>
    exact absurd hmem (by simp [toQueue, toReading])
  | withdrew | shared | spared => exact absurd (hout _ _ _ hmem) (by simp)
  | proceeded hr =>
    rcases hr.asked he with ⟨hf, hb, hc⟩ | hcontinues
    · exact .inl ⟨_, _, rfl, hf, hb, hc⟩
    · exact .inr hcontinues
  | @ended _ _ since stage c' outcome effects hr =>
    -- a refresh that ends asks for nothing
    have hm : .asked cursor ∈ effects := by simpa using hout _ _ _ hmem
    cases hr with
    | abandoned | stopped | failed | completed | installed =>
      exact absurd hm (by simp [Refresh.taken, Refresh.installation])

/-- A cache stays a cache of the same container. -/
theorem Advance.container_eq (h : Advance p c v now status inc phase r) :
    r.cache.container = c.container := by
  have hout : ∀ (c' : Cache) (outcome : Except Error Unit) (effects : List Effect),
      (afterRefresh p c' v outcome effects).cache.container = c'.container := by
    intro c' outcome effects
    rcases afterRefresh_line p c' v outcome effects with ⟨-, he⟩ | ⟨-, he⟩ <;> rw [he]
  cases h with
  | lined | approached | answered | dropped | read => rfl
  | withdrew | shared | spared => exact hout _ _ _
  | began => cases hs : c.options.strategy <;> simp [Refresh.begin, hs]
  | proceeded hr =>
    obtain ⟨line, rfl⟩ := hr.waiting_frame
    rfl
  | @ended _ _ since stage c' outcome effects hr =>
    have hc : c'.container = c.container := by
      rcases hr.ended_cases with ⟨e, -, rfl, -⟩ | ⟨l, before, -, rfl, -⟩ <;> rfl
    rw [endRefresh, hout, Visit.leave, Cache.record, ← hc]
    split <;> rfl

theorem Advance.pageRequest_eq (h : Advance p c v now status inc phase r) :
    r.cache.pageRequest = c.pageRequest := by
  funext cursor
  rw [Cache.pageRequest, Cache.pageRequest, h.container_eq, h.options_eq]

end Visit

theorem Cache.container_ne_of_new? {container : String} {options : CacheOptions} {c : Cache}
    (h : Cache.new? container options = .ok c) : container ≠ "" := by
  rintro rfl
  exact absurd h (by simp [Cache.new?])

/-! ## Every session -/

namespace Session

open Trace Visit

variable {purpose : Nat → Purpose} {base : String} {s s' : Session} {v : Nat} {m : Move}

/-- The cursor of the cache is a link that was received. -/
def Linked (s : Session) : Prop := ∀ link, s.cache.cursor = some link → link ∈ links s.trace

theorem Linked.step (h : Linked s) (hc : Closed s) (hs : s.step purpose m = some s') :
    Linked s' := by
  rcases step_cases hs with ⟨w, status, inc, r, -, ha, rfl⟩ | ⟨span, -, rfl⟩
  · intro link hlink
    rcases ha.content with ⟨-, hk⟩ | ⟨since, stage, l, before, rest, hw, hy, -, hk, heff, -⟩
    · have hcursor : s.cache.cursor = some link :=
        (congrArg Cache.Content.cursor hk).symm.trans hlink
      rw [after, links_append]
      exact List.mem_append_left _ (h link hcursor)
    · have hcursor : l.cursor = some link := (congrArg Cache.Content.cursor hk).symm.trans hlink
      have hclosed : ∀ l, stage = .installing l → ClosedBy l.cursor (deeds w s.trace) :=
        fun l hl => hc w since l (hl ▸ hw)
      refine mem_links_of_closedBy (hcursor ▸ hy.closedBy hclosed) fun e he => ?_
      rcases List.mem_append.1 he with he | he
      · obtain ⟨x, hx, rfl⟩ := List.mem_map.1 he
        exact ⟨x, mem_after_trace.2 (.inl (List.mem_filter.1 hx).1), rfl⟩
      · exact ⟨⟨w, s.now, e⟩, mem_after_trace.2 (.inr ⟨rfl, rfl, by simp [heff, he]⟩), rfl⟩
  · exact h

/-- Visit `v` has asked for nothing yet, and there is no cursor to begin at. -/
def Anew (v : Nat) (before : List Stamp) : Prop :=
  requests (deeds v before) = [] ∧ (installs before).getLast?.bind (·.cursor) = none

/-- The last that visit `v` did was to take in that its cursor was rejected. -/
def Rejected (v : Nat) (before : List Stamp) : Prop :=
  ∃ earlier, deeds v before
    = earlier ++ [.received (.error .cursorExpired), .event (.round .restarted)]

/-- A page is asked for without a cursor at the beginning, when there is none, or directly after one
was rejected; otherwise it is asked for with a link that was received. -/
def Asking (s : Session) : Prop :=
  ∀ v t cursor before rest, s.trace = before ++ ⟨v, t, .asked cursor⟩ :: rest →
    (cursor = none ∧ (Anew v before ∨ Rejected v before)) ∨
      ∃ link ∈ links before, cursor = some link

theorem Asking.step (h : Asking s) (hl : Linked s) (hg : Gathered s) (hr : Replayed s)
    (hs : s.step purpose m = some s') : Asking s' := by
  rcases step_cases hs with ⟨u, status, inc, r, -, ha, rfl⟩ | ⟨span, -, rfl⟩
  · intro w t cursor before rest hsplit
    rcases after_trace_split hsplit with ⟨rest', hold, -⟩ | ⟨pre, post, heff, rfl, rfl, rfl, -⟩
    · exact h w t cursor before rest' hold
    · rcases ha.asked heff with ⟨since, stage, hw, hfirst, rfl, rfl⟩ | hnext
      · rw [List.map_nil, List.append_nil]
        cases hc : s.cache.cursor with
        | none =>
          refine .inl ⟨rfl, .inl ⟨?_, hr.content.cursor_bind.symm.trans hc⟩⟩
          have hgathers := hg.phases w
          rw [hw] at hgathers
          have hu : Untouched (deeds w s.trace) := by
            rcases hfirst with rfl | rfl <;> exact hgathers
          exact requests_eq_nil fun cursor hm => (hu _ hm).1 cursor rfl
        | some link => exact .inr ⟨link, hl link hc, rfl⟩
      · rcases hnext with ⟨rfl, rfl⟩ | ⟨page, link, rfl, hp, hlink⟩
        · refine .inl ⟨rfl, .inr ⟨deeds w s.trace, ?_⟩⟩
          rw [deeds_append, deeds_stamps]
        · refine .inr ⟨link, ?_, rfl⟩
          rw [links_append]
          exact List.mem_append_right _ (mem_links_of_received hp hlink)
  · exact h

/-- What is left after a full listing was installed comes from its items alone. -/
def Restarting (s : Session) : Prop :=
  ∀ v t l rs, ⟨v, t, .installed l rs⟩ ∈ s.trace → l.reset = true →
    rs = (Records.merge [] l.items).records

theorem Restarting.step (h : Restarting s) (hs : s.step purpose m = some s') : Restarting s' := by
  rcases step_cases hs with ⟨u, status, inc, r, -, ha, rfl⟩ | ⟨span, -, rfl⟩
  · intro w t l rs hm hreset
    rcases mem_after_trace.1 hm with hm | ⟨-, -, he⟩
    · exact h w t l rs hm hreset
    · rcases ha.content with ⟨hno, -⟩ | ⟨since, stage, l', before, rest, -, hy, -, -, heff, hno⟩
      · exact absurd he (hno l rs)
      · rw [heff] at he
        rcases List.mem_append.1 he with he | he
        · exact absurd he (hy.not_installed l rs)
        · rcases List.mem_cons.1 he with he | he
          · obtain ⟨rfl, rfl⟩ := Effect.installed.inj he
            simp [Cache.commit, hreset]
          · exact absurd he (hno l rs)
  · exact h

/-- The first page of the listing is asked for in this way only. -/
theorem Asking.of_mem (h : Asking s) {t : Nat} {e : Effect} {before rest : List Stamp}
    (hsplit : s.trace = before ++ ⟨v, t, e⟩ :: rest) {cursor : Option String}
    (hm : .asked cursor ∈ deeds v before) :
    cursor = none ∨ ∃ link ∈ links before, cursor = some link := by
  obtain ⟨x, hx, he⟩ := List.mem_map.1 hm
  obtain ⟨hx, hv⟩ := List.mem_filter.1 hx
  obtain ⟨earlier, later, rfl⟩ := List.append_of_mem hx
  obtain ⟨w, t', e'⟩ := x
  obtain rfl : e' = .asked cursor := he
  rcases h w t' cursor earlier (later ++ ⟨v, t, e⟩ :: rest) (by simp [hsplit]) with
    ⟨hc, -⟩ | ⟨link, hlink, hc⟩
  · exact .inl hc
  · refine .inr ⟨link, ?_, hc⟩
    rw [links_append]
    exact List.mem_append_left _ hlink

/-- All that a session keeps to about its requests: it makes them for the cache that it began
with. -/
structure Requesting (c : Cache) (s : Session) : Prop where
  pageRequest_eq : s.cache.pageRequest = c.pageRequest
  closed : Closed s
  gathered : Gathered s
  replayed : Replayed s
  linked : Linked s
  asking : Asking s
  restarting : Restarting s

theorem requesting_of_run {container : String} {options : CacheOptions} {c : Cache}
    {ms : List Move} (hc : Cache.new? container options = .ok c)
    (h : (opening c).run purpose ms = some s) : Requesting c s := by
  refine run_induction h ⟨rfl, closed_opening c, gathered_opening c, replayed_opening hc, ?_, ?_, ?_⟩
    fun m _ t t' hr hs => ⟨?_, hr.closed.step hs, hr.gathered.step hs, hr.replayed.step hs,
      hr.linked.step hr.closed hs, hr.asking.step hr.linked hr.gathered hr.replayed hs,
      hr.restarting.step hs⟩
  · rw [Cache.eq_of_new? hc]
    exact fun link hl => absurd hl (by simp [opening])
  · exact fun v t cursor before rest hsplit => absurd hsplit (by simp [opening])
  · exact fun v t l rs hm => absurd hm (by simp [opening])
  · rcases step_cases hs with ⟨u, status, inc, r, -, ha, rfl⟩ | ⟨span, -, rfl⟩
    · exact ha.pageRequest_eq.trans hr.pageRequest_eq
    · exact hr.pageRequest_eq

/-- **What the first page opens is a full listing, short of links that lead back to it.**  Over every
remote drive, whatever it answers and however the visits take their turns:

* the first page is asked for when a visit makes its first request and there is no cursor to begin
  at, and directly after a cursor was rejected.  The only other request for it has a link for its
  cursor that the drive had given out and that is empty, or is the address of the first page;
* a listing is made of the pages that its visit has fetched.  If the first page was among what the
  visit asked for, it is a full one, unless that request had such a link for its cursor;
* an id that is not in a full listing is not in the records that it leaves. -/
theorem first_page_opens_full_listing {container : String} {options : CacheOptions} {c : Cache}
    {first : String} {ms : List RemoteMove} (hc : Cache.new? container options = .ok c)
    (hf : DriveAddress.firstPage base container options.page = .ok first)
    (h : (opening c).runRemote base purpose ms = some s) :
    (∀ v t cursor before rest, s.trace = before ++ ⟨v, t, .asked cursor⟩ :: rest →
      (s.cache.pageRequest cursor).address base = .ok first →
      (cursor = none ∧ (Anew v before ∨ Rejected v before)) ∨
        ∃ link ∈ links before, cursor = some link ∧ (link = "" ∨ link = first)) ∧
    ∀ v t l rs before rest, s.trace = before ++ ⟨v, t, .installed l rs⟩ :: rest →
      l.Gathers (deeds v before) ∧
      (∀ cursor, .asked cursor ∈ deeds v before →
        (s.cache.pageRequest cursor).address base = .ok first →
        l.reset = true ∨
          ∃ link ∈ links before, cursor = some link ∧ (link = "" ∨ link = first)) ∧
      (l.reset = true → ∀ id, (∀ item ∈ l.items, item.id ≠ some id) → rs.get? id = none) := by
  obtain ⟨moves, hrun⟩ := run_of_runRemote h
  obtain ⟨hpage, -, hg, -, -, hask, hre⟩ := requesting_of_run hc hrun
  have haddress : ∀ cursor, (s.cache.pageRequest cursor).address base = .ok first →
      cursor = none ∨ cursor = some "" ∨ cursor = some first := by
    intro cursor ha
    rw [hpage, Cache.eq_of_new? hc] at ha
    have hiff := PageRequest.address_eq_firstPage (r := ⟨container, cursor, options.page⟩)
      (Cache.container_ne_of_new? hc) hf
    exact hiff.1 ha
  have hback : ∀ (links : List String) (cursor : Option String),
      (s.cache.pageRequest cursor).address base = .ok first →
      (∃ link ∈ links, cursor = some link) →
      ∃ link ∈ links, cursor = some link ∧ (link = "" ∨ link = first) := by
    rintro links cursor ha ⟨link, hm, rfl⟩
    exact ⟨link, hm, rfl, by simpa using haddress _ ha⟩
  refine ⟨fun v t cursor before rest hsplit ha => ?_, fun v t l rs before rest hsplit => ⟨?_, ?_, ?_⟩⟩
  · exact (hask v t cursor before rest hsplit).imp_right (hback _ cursor ha)
  · exact hg.listings v t before l rs rest hsplit
  · intro cursor hm ha
    rcases hask.of_mem hsplit hm with rfl | hlink
    · exact .inl ((hg.listings v t before l rs rest hsplit).reset_iff.2 hm)
    · exact .inr (hback _ cursor ha hlink)
  · intro hreset id habsent
    rw [hre v t l rs (by simp [hsplit]) hreset, Records.get?_merge_of_absent habsent]
    rfl

/-! ## A drive of two files -/

/-- The body of a page that lists some files and ends with a link to the next round of changes. -/
def pageBody (ids : List String) (link : String) : Bytes :=
  Json.ascii ("\x7b\"value\":[" ++
    String.intercalate "," (ids.map fun id =>
      "\x7b\"id\":\"" ++ id ++ "\",\"file\":1,\"@content.downloadUrl\":\"" ++ id ++ "\"\x7d") ++
    "],\"@odata.deltaLink\":\"" ++ link ++ "\"\x7d")

theorem eq_ok_of_toOption {ε α : Type} {x : Except ε α} {a : α} (h : x.toOption = some a) :
    x = .ok a := by
  cases x with
  | error e => exact absurd h (by simp [Except.toOption])
  | ok b => exact congrArg _ (Option.some_inj.1 h)

theorem firstPage_short :
    DriveAddress.firstPage "x://h" "d" {} = .ok "x://h/drives/d/root/delta" :=
  eq_ok_of_toOption (by decide +kernel)

/-- The first listing has two files.  The drive then rejects the cursor that it gave out, and the
full listing that follows has one of the files only. -/
theorem first_page_opens_full_listing_rejected :
    ∃ c s before rest l rs,
      Cache.new? "d" { refreshInterval := Nanos.second } = .ok c ∧
      DriveAddress.firstPage "x://h" "d" {} = .ok "x://h/drives/d/root/delta" ∧
      (opening c).runRemote "x://h" (fun _ => .refresh)
        [.turn 0 none, .turn 0 none, .turn 0 none,
          .reply 0 (.ok { status := 200, body := pageBody ["a", "b"] "q" }) none,
          .pass (2 * Nanos.second), .turn 1 none, .turn 1 none, .turn 1 none,
          .reply 1 (.error (.fatal (some PageRequest.expiredStatus) "resync")) none,
          .reply 1 (.ok { status := 200, body := pageBody ["a"] "r" }) none] = some s ∧
      s.trace = before ++ ⟨1, 2 * Nanos.second, .installed l rs⟩ :: rest ∧
      l.reset = true ∧ rs.get? "b" = none := by
  have hc : Cache.new? "d" { refreshInterval := Nanos.second }
      = .ok { container := "d", options := { refreshInterval := Nanos.second } } := rfl
  have hf := firstPage_short
  have hfirst : (PageRequest.mk "d" none {}).address "x://h" = .ok "x://h/drives/d/root/delta" := hf
  have hlink : (PageRequest.mk "d" (some "q") {}).address "x://h" = .ok "q" := rfl
  have htwo : DeltaPage.decode (pageBody ["a", "b"] "q")
      = .ok { items := [.file "a" "a", .file "b" "b"], cursor := some "q" } :=
    eq_ok_of_toOption (by decide +kernel)
  have hone : DeltaPage.decode (pageBody ["a"] "r")
      = .ok { items := [.file "a" "a"], cursor := some "r" } :=
    eq_ok_of_toOption (by decide +kernel)
  obtain ⟨t₀, h₀, hq₀, t₁, h₁, t₂, h₂, hq₂, t₃, h₃, hq₃, s, h₄, htr⟩ :
      ∃ t₀, (opening { container := "d", options := { refreshInterval := Nanos.second } }).runRemote
          "x://h" (fun _ => .refresh) [.turn 0 none, .turn 0 none, .turn 0 none] = some t₀ ∧
        t₀.request? 0 = some ⟨"d", none, {}⟩ ∧
      ∃ t₁, t₀.step (fun _ => .refresh)
          (.turn 0 none (some
            ⟨.ok { items := [.file "a" "a", .file "b" "b"], cursor := some "q" }, none⟩))
          = some t₁ ∧
      ∃ t₂, t₁.runRemote "x://h" (fun _ => .refresh)
          [.pass (2 * Nanos.second), .turn 1 none, .turn 1 none, .turn 1 none] = some t₂ ∧
        t₂.request? 1 = some ⟨"d", some "q", {}⟩ ∧
      ∃ t₃, t₂.step (fun _ => .refresh) (.turn 1 none (some ⟨.error .cursorExpired, none⟩))
          = some t₃ ∧ t₃.request? 1 = some ⟨"d", none, {}⟩ ∧
      ∃ s, t₃.step (fun _ => .refresh)
          (.turn 1 none (some ⟨.ok { items := [.file "a" "a"], cursor := some "r" }, none⟩))
          = some s ∧
        s.trace[20]? = some ⟨1, 2 * Nanos.second,
          .installed ⟨[.file "a" "a"], some "r", true, 1⟩
            [("a", { id := "a", accessLocator := some "a" })]⟩ :=
    ⟨_, rfl, rfl, _, rfl, _, rfl, rfl, _, rfl, rfl, _, rfl, rfl⟩
  have hrun : (opening
      { container := "d", options := { refreshInterval := Nanos.second } }).runRemote "x://h"
      (fun _ => .refresh)
      [.turn 0 none, .turn 0 none, .turn 0 none,
        .reply 0 (.ok { status := 200, body := pageBody ["a", "b"] "q" }) none,
        .pass (2 * Nanos.second), .turn 1 none, .turn 1 none, .turn 1 none,
        .reply 1 (.error (.fatal (some PageRequest.expiredStatus) "resync")) none,
        .reply 1 (.ok { status := 200, body := pageBody ["a"] "r" }) none] = some s := by
    have hr₁ := runRemote_reply hq₀ (PageRequest.answer_of_decode hfirst htwo) h₁
    have hr₂ := runRemote_reply hq₂ (PageRequest.answer_of_expired "resync" hlink rfl) h₃
    have hr₃ := runRemote_reply hq₃ (PageRequest.answer_of_decode hfirst hone) h₄
    simpa only [List.cons_append, List.nil_append] using runRemote_append h₀
      (runRemote_append hr₁ (runRemote_append h₂ (runRemote_append hr₂ hr₃)))
  obtain ⟨before, rest, hsplit⟩ := List.append_of_mem (List.mem_of_getElem? htr)
  obtain ⟨-, hlistings⟩ := first_page_opens_full_listing hc hf hrun
  obtain ⟨-, -, habsent⟩ := hlistings _ _ _ _ _ _ hsplit
  exact ⟨_, s, before, rest, _, _, hc, hf, hrun, hsplit, rfl,
    habsent rfl "b" (by simp [DeltaItem.file])⟩

/-- The first listing has two files and ends with an empty link.  The next request has that link for
its cursor and fetches the full listing, which by now has one file only; but it is taken for
changes, so the other file stays. -/
theorem empty_link_keeps_deleted :
    ∃ c s t l rs,
      Cache.new? "d" { refreshInterval := Nanos.second } = .ok c ∧
      DriveAddress.firstPage "x://h" "d" {} = .ok "x://h/drives/d/root/delta" ∧
      (opening c).runRemote "x://h" (fun _ => .refresh)
        [.turn 0 none, .turn 0 none, .turn 0 none,
          .reply 0 (.ok { status := 200, body := pageBody ["a", "b"] "" }) none,
          .pass (2 * Nanos.second), .turn 1 none, .turn 1 none, .turn 1 none,
          .reply 1 (.ok { status := 200, body := pageBody ["a"] "" }) none] = some s ∧
      ⟨1, t, .asked (some "")⟩ ∈ s.trace ∧
      (s.cache.pageRequest (some "")).address "x://h" = .ok "x://h/drives/d/root/delta" ∧
      ⟨1, t, .installed l rs⟩ ∈ s.trace ∧ l.reset = false ∧
      (∀ item ∈ l.items, item.id ≠ some "b") ∧
      rs.get? "b" = some { id := "b", accessLocator := some "b" } := by
  have hf := firstPage_short
  have hfirst : (PageRequest.mk "d" none {}).address "x://h" = .ok "x://h/drives/d/root/delta" := hf
  have hempty : (PageRequest.mk "d" (some "") {}).address "x://h"
      = .ok "x://h/drives/d/root/delta" := hf
  have htwo : DeltaPage.decode (pageBody ["a", "b"] "")
      = .ok { items := [.file "a" "a", .file "b" "b"], cursor := some "" } :=
    eq_ok_of_toOption (by decide +kernel)
  have hone : DeltaPage.decode (pageBody ["a"] "")
      = .ok { items := [.file "a" "a"], cursor := some "" } :=
    eq_ok_of_toOption (by decide +kernel)
  obtain ⟨t₀, h₀, hq₀, t₁, h₁, t₂, h₂, hq₂, s, h₃, hpage, hasked, htr⟩ :
      ∃ t₀, (opening { container := "d", options := { refreshInterval := Nanos.second } }).runRemote
          "x://h" (fun _ => .refresh) [.turn 0 none, .turn 0 none, .turn 0 none] = some t₀ ∧
        t₀.request? 0 = some ⟨"d", none, {}⟩ ∧
      ∃ t₁, t₀.step (fun _ => .refresh)
          (.turn 0 none (some
            ⟨.ok { items := [.file "a" "a", .file "b" "b"], cursor := some "" }, none⟩))
          = some t₁ ∧
      ∃ t₂, t₁.runRemote "x://h" (fun _ => .refresh)
          [.pass (2 * Nanos.second), .turn 1 none, .turn 1 none, .turn 1 none] = some t₂ ∧
        t₂.request? 1 = some ⟨"d", some "", {}⟩ ∧
      ∃ s, t₂.step (fun _ => .refresh)
          (.turn 1 none (some ⟨.ok { items := [.file "a" "a"], cursor := some "" }, none⟩))
          = some s ∧
        s.cache.pageRequest (some "") = ⟨"d", some "", {}⟩ ∧
        s.trace[14]? = some ⟨1, 2 * Nanos.second, .asked (some "")⟩ ∧
        s.trace[17]? = some ⟨1, 2 * Nanos.second, .installed ⟨[.file "a" "a"], some "", false, 1⟩
          [("a", { id := "a", accessLocator := some "a" }),
            ("b", { id := "b", accessLocator := some "b" })]⟩ :=
    ⟨_, rfl, rfl, _, rfl, _, rfl, rfl, _, rfl, rfl, rfl, rfl⟩
  have hr₁ := runRemote_reply hq₀ (PageRequest.answer_of_decode hfirst htwo) h₁
  have hr₂ := runRemote_reply hq₂ (PageRequest.answer_of_decode hempty hone) h₃
  have hrun := runRemote_append h₀ (runRemote_append hr₁ (runRemote_append h₂ hr₂))
  exact ⟨_, s, _, _, _, rfl, hf, by simpa only [List.cons_append, List.nil_append] using hrun,
    List.mem_of_getElem? hasked, hpage ▸ hempty, List.mem_of_getElem? htr, rfl,
    by simp [DeltaItem.file], rfl⟩

end Session

end DriveDelta
