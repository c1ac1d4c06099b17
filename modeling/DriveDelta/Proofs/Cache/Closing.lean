import Mathlib.Data.List.Induction
import DriveDelta.Proofs.Cache.FullListing

/-!
# What closes a round

The last page of a round is told from the others by what it lacks.  A page that carries a link to
the next page as a string has more to follow, and any other that can be read closes the round.  A
drive that ends its rounds as it should puts a link to the next round of changes there.  But that
link is not asked for, so a JSON object of any other kind closes a round, too, as a page without
items, and after a full listing that leaves the cache with what came before it, or nothing.

## What is here

* `DeltaPage.nextLink?` and `DeltaPage.deltaLink?`, the links that a body carries, and
  `DeltaPage.links_of_decode`, what becomes of them;
* `Session.runRemote_induction`, for what holds of every session over a remote drive, and
  `Session.Heard`, which says that pages are what replies held;
* `Round.isComplete_iff`, what closes a round;
* `Session.linkless_page_closes`, for every session over a remote drive;
* `Session.empty_object_drops_records`, a cache that is emptied by a body without links.
-/

set_option autoImplicit false

namespace DriveDelta

/-! ## The links of a body -/

namespace Json

theorem eq_text_of_optionalText {j : Option Json} {s : Option String}
    (h : optionalText? j = some s) : s = text? j := by
  cases j with
  | none => exact (Option.some_inj.1 h).symm
  | some j =>
    cases j with
    | null => exact (Option.some_inj.1 h).symm
    | string pieces =>
      obtain ⟨text, ht, rfl⟩ := Option.map_eq_some_iff.1 h
      exact ht.symm
    | _ => exact absurd h (by simp [optionalText?])

end Json

namespace DeltaPage

open Json

/-- What stands where the two links are expected: that to the next page, and that to the next round
of changes. -/
def places : Json → Option Json × Option Json
  | .object members => (get? members nextLinkKey, get? members deltaLinkKey)
  | .array [_, next, delta] => (some next, some delta)
  | _ => (none, none)

/-- The link to the next page that a body carries as a string. -/
def nextLink? (body : Bytes) : Option String :=
  (Json.parse? body).bind fun j => text? (places j).1

/-- The link to the next round of changes that a body carries as a string. -/
def deltaLink? (body : Bytes) : Option String :=
  (Json.parse? body).bind fun j => text? (places j).2

theorem links_of_ofParts {items next delta : Option Json} {page : DeltaPage}
    (h : ofParts? items next delta = some page) :
    page.cursor = (text? next).or (text? delta) ∧ page.hasMore = (text? next).isSome := by
  have hlinks : ∀ list : List DeltaItem,
      ((optionalText? next).bind fun next => (optionalText? delta).bind fun delta =>
        some (DeltaPage.mk list (next.or delta) next.isSome)) = some page →
      page.cursor = (text? next).or (text? delta) ∧ page.hasMore = (text? next).isSome := by
    intro list h
    simp only [Option.bind_eq_some_iff] at h
    obtain ⟨n, hn, d, hd, hp⟩ := h
    obtain rfl := Option.some_inj.1 hp
    rw [eq_text_of_optionalText hn, eq_text_of_optionalText hd]
    exact ⟨rfl, rfl⟩
  cases items with
  | none => exact hlinks [] h
  | some j =>
    cases j with
    | array vs =>
      obtain ⟨list, -, hlist⟩ := Option.bind_eq_some_iff.1 h
      exact hlinks list hlist
    | _ => exact absurd h (by simp [ofParts?])

theorem links_of_ofJson {j : Json} {page : DeltaPage} (h : ofJson? j = some page) :
    page.cursor = (text? (places j).1).or (text? (places j).2) ∧
      page.hasMore = (text? (places j).1).isSome := by
  rw [ofJson?.eq_def] at h
  split at h
  · split at h
    · exact absurd h (by simp)
    · split at h
      · exact absurd h (by simp)
      · exact links_of_ofParts h
  · exact links_of_ofParts h
  · exact absurd h (by simp)

/-- A page has more to follow if its body carries a link to the next page, and its cursor is that
link, or else the one to the next round of changes. -/
theorem links_of_decode {body : Bytes} {page : DeltaPage} (h : decode body = .ok page) :
    page.cursor = (nextLink? body).or (deltaLink? body) ∧
      page.hasMore = (nextLink? body).isSome := by
  rw [decode] at h
  split at h
  · rename_i page' hp
    obtain ⟨j, hj, hp⟩ := Option.bind_eq_some_iff.1 hp
    obtain rfl := Except.ok.inj h
    rw [nextLink?, deltaLink?, hj]
    exact links_of_ofJson hp
  · exact absurd h (by simp)

end DeltaPage

/-- A page closes a round exactly when it carries no link to the next page. -/
theorem Round.isComplete_iff (round : Round) {body : Bytes} {page : DeltaPage}
    (h : DeltaPage.decode body = .ok page) :
    (∃ l told, round.next (.ok page) = (.complete l, told)) ↔
      DeltaPage.nextLink? body = none := by
  have hm := (DeltaPage.links_of_decode h).2
  constructor
  · rintro ⟨l, told, hn⟩
    obtain ⟨page', hp, hmore, -⟩ := next_complete hn
    obtain rfl := Except.ok.inj hp
    rw [hm] at hmore
    simpa using hmore
  · intro hnone
    rw [hnone, Option.isSome_none] at hm
    simp [next, take, hm]

/-! ## Pages are what replies held -/

/-- A request is answered with a page only when the call succeeds, and its body is that page. -/
theorem PageRequest.decode_of_answer {r : PageRequest} {base : String}
    {result : Except Error Response} {page : DeltaPage} (h : r.answer base result = .ok page) :
    ∃ response, result = .ok response ∧ DeltaPage.decode response.body = .ok page := by
  rw [answer] at h
  split at h
  · exact absurd h (by simp)
  · cases result with
    | error e =>
      rw [PageRequest.result.eq_def] at h
      split at h
      · split at h <;> exact absurd h (by simp)
      · exact absurd h (by simp)
      · rename_i hok
        exact absurd hok (by simp)
    | ok response =>
      refine ⟨response, rfl, ?_⟩
      rw [PageRequest.result] at h
      split at h
      · exact absurd h (by simp)
      · exact h

/-- What a refresh takes in is the answer that has come in for it. -/
theorem Refresh.Advance.received {c : Cache} {v since now : Nat} {status : Option CancelReason}
    {inc : Option Incoming} {stage : Stage} {t : Turn}
    (h : Advance c v since now status inc stage t) {answer : Except Error DeltaPage}
    (hm : .received answer ∈ t.effects) : ∃ i, inc = some i ∧ i.answer = answer := by
  cases h with
  | continued | stopped | failed | completed | staged =>
    exact ⟨_, rfl, by simpa [Turn.effects, taken, installation, eq_comm] using hm⟩
  | abandoned | claimed | peeked | installed =>
    exact absurd hm (by simp [Turn.effects, installation])

theorem Visit.Advance.received {p : Purpose} {c : Cache} {v now : Nat}
    {status : Option CancelReason} {inc : Option Refresh.Incoming} {phase : Phase} {r : Step}
    (h : Advance p c v now status inc phase r) {answer : Except Error DeltaPage}
    (hm : .received answer ∈ r.effects) : ∃ i, inc = some i ∧ i.answer = answer := by
  have hout : ∀ (c' : Cache) (outcome : Except Error Unit) (effects : List Effect),
      .received answer ∈ (afterRefresh p c' v outcome effects).effects →
        .received answer ∈ effects := by
    intro c' outcome effects hm
    obtain ⟨line, ph, told, -, heq⟩ := afterRefresh_frame p c' v outcome effects
    simpa [heq] using hm
  cases h with
  | lined | approached | answered | began | dropped | read =>
    exact absurd hm (by simp [toQueue, toReading])
  | withdrew | shared | spared => exact absurd (hout _ _ _ hm) (by simp)
  | proceeded hr => exact hr.received hm
  | ended hr => exact hr.received (by simpa [Refresh.Turn.effects] using hout _ _ _ hm)

/-- A page that counts for a listing has been received. -/
theorem Visit.received_of_mem_fetched {effects : List Effect} {page : DeltaPage}
    (h : page ∈ fetched effects) : .received (.ok page) ∈ effects := by
  induction effects using List.reverseRecOn with
  | nil => exact absurd h List.not_mem_nil
  | append_singleton effects e ih =>
    have hold : page ∈ fetched effects → .received (.ok page) ∈ effects ++ [e] := fun hp =>
      List.mem_append_left _ (ih hp)
    rw [fetched_append] at h
    cases e with
    | asked cursor =>
      cases cursor with
      | none => exact absurd h List.not_mem_nil
      | some cursor => exact hold h
    | received answer =>
      cases answer with
      | error e => exact hold h
      | ok page' =>
        rcases List.mem_append.1 h with h | h
        · exact hold h
        · rw [List.mem_singleton.1 h]
          simp
    | _ => exact hold h

namespace Session

open Trace Visit

variable {purpose : Nat → Purpose} {base : String} {s s' : Session} {v : Nat}

/-- What holds at first, and is kept by each of the moves, holds after all of them. -/
theorem runRemote_induction {P : Session → Prop} {ms : List RemoteMove}
    (h : s.runRemote base purpose ms = some s') (h₀ : P s)
    (hstep : ∀ m ∈ ms, ∀ t t' : Session, P t → t.step purpose (m.move base t) = some t' → P t') :
    P s' := by
  induction ms generalizing s with
  | nil =>
    rw [runRemote, Option.some_inj] at h
    exact h ▸ h₀
  | cons m ms ih =>
    rw [runRemote] at h
    split at h
    · rename_i t ht
      exact ih h (hstep m List.mem_cons_self s t h₀ ht)
        fun m' hm => hstep m' (List.mem_cons_of_mem _ hm)
    · exact absurd h (by simp)

/-- Every page that a visit has received is what the body of a reply to it held. -/
def Heard (ms : List RemoteMove) (s : Session) : Prop :=
  ∀ v t page, ⟨v, t, .received (.ok page)⟩ ∈ s.trace →
    ∃ response status, .reply v (.ok response) status ∈ ms ∧
      DeltaPage.decode response.body = .ok page

theorem Heard.step {ms : List RemoteMove} {m : RemoteMove} (h : Heard ms s) (hm : m ∈ ms)
    (hs : s.step purpose (m.move base s) = some s') : Heard ms s' := by
  intro w t page hx
  rcases step_cases hs with ⟨u, status, inc, r, hmove, ha, rfl⟩ | ⟨span, -, rfl⟩
  · rcases mem_after_trace.1 hx with hx | ⟨rfl, -, hx⟩
    · exact h w t page hx
    · obtain ⟨i, rfl, hi⟩ := ha.received hx
      cases m with
      | turn u' status' => exact absurd hmove (by simp [RemoteMove.move])
      | pass span => exact absurd hmove (by simp [RemoteMove.move])
      | reply u' result status' =>
        obtain ⟨rfl, -, hinc⟩ := Move.turn.inj hmove
        obtain ⟨q, -, rfl⟩ := Option.map_eq_some_iff.1 hinc
        obtain ⟨response, rfl, hd⟩ := PageRequest.decode_of_answer hi
        exact ⟨response, status', hm, hd⟩
  · exact h w t page hx

/-- **A page without a link to the next page closes the round.**  Over every remote drive, whatever
it answers and however the visits take their turns:

* a page closes the round that it is received in exactly when its body carries no link to the next
  page, whether it carries one to the next round of changes or not;
* a listing is installed only after a reply to its visit whose body was the last page of the
  listing, which had no link to the next page.  The cursor that is kept is the link to the next
  round of changes that this body carries, and there is none if it carries none;
* so on a drive whose pages all carry one link or the other, it is that link that closes every
  listing that is installed. -/
theorem linkless_page_closes {container : String} {options : CacheOptions} {c : Cache}
    {ms : List RemoteMove} (hc : Cache.new? container options = .ok c)
    (h : (opening c).runRemote base purpose ms = some s) :
    (∀ (round : Round) (body : Bytes) (page : DeltaPage), DeltaPage.decode body = .ok page →
      ((∃ l told, round.next (.ok page) = (.complete l, told)) ↔
        DeltaPage.nextLink? body = none)) ∧
    ∀ v t l rs before rest, s.trace = before ++ ⟨v, t, .installed l rs⟩ :: rest →
      ∃ response status page, .reply v (.ok response) status ∈ ms ∧
        DeltaPage.decode response.body = .ok page ∧
        (fetched (deeds v before)).getLast? = some page ∧
        DeltaPage.nextLink? response.body = none ∧
        l.cursor = DeltaPage.deltaLink? response.body ∧
        ((∀ w r status page, .reply w (.ok r) status ∈ ms → DeltaPage.decode r.body = .ok page →
          (DeltaPage.nextLink? r.body).isSome = true ∨
            (DeltaPage.deltaLink? r.body).isSome = true) →
          ∃ link, DeltaPage.deltaLink? response.body = some link ∧ l.cursor = some link) := by
  refine ⟨fun round body page hd => round.isComplete_iff hd, fun v t l rs before rest hsplit => ?_⟩
  obtain ⟨moves, hrun⟩ := run_of_runRemote h
  have hheard : Heard ms s := runRemote_induction h (fun v t page hx => absurd hx List.not_mem_nil)
    fun m hm t t' ht hs => ht.step hm hs
  obtain ⟨page, hlast, hmore, hcursor⟩ :=
    ((requesting_of_run hc hrun).gathered.listings v t before l rs rest hsplit).last
  obtain ⟨⟨w, t', e⟩, hx, he⟩ :=
    List.mem_map.1 (received_of_mem_fetched (List.mem_of_getLast? hlast))
  obtain ⟨hmem, hw⟩ := List.mem_filter.1 hx
  obtain rfl : w = v := by simpa using hw
  obtain rfl : e = .received (.ok page) := he
  obtain ⟨response, status, hm, hd⟩ := hheard w t' page (by simp [hsplit, hmem])
  obtain ⟨hlinks, hnext⟩ := DeltaPage.links_of_decode hd
  have hnone : DeltaPage.nextLink? response.body = none := by
    rw [hnext] at hmore
    simpa using hmore
  rw [hnone, Option.none_or] at hlinks
  refine ⟨response, status, page, hm, hd, hlast, hnone, hcursor.trans hlinks, fun hall => ?_⟩
  rcases hall w response status page hm hd with hsome | hsome
  · rw [hnone] at hsome
    exact absurd hsome (by simp)
  · obtain ⟨link, hlink⟩ := Option.isSome_iff_exists.1 hsome
    exact ⟨link, hlink, (hcursor.trans hlinks).trans hlink⟩

/-! ## Bodies with and without links -/

/-- The body of a page that lists one file and ends with a link to the next page. -/
def earlierBody (id link : String) : Bytes :=
  Json.ascii ("\x7b\"value\":[\x7b\"id\":\"" ++ id ++
    "\",\"file\":1,\"@content.downloadUrl\":\"" ++ id ++
    "\"\x7d],\"@odata.nextLink\":\"" ++ link ++ "\"\x7d")

/-- The body that is an empty object. -/
def emptyBody : Bytes := Json.ascii "\x7b\x7d"

theorem decode_emptyBody : DeltaPage.decode emptyBody = .ok {} :=
  eq_ok_of_toOption (by decide +kernel)

/-- A listing has two pages.  The first has a link to the second, and the second a link to the next
round of changes, which is what closes the listing. -/
theorem linkless_page_closes_two_pages :
    ∃ c ms s before rest l rs response status,
      Cache.new? "d" { refreshInterval := Nanos.second } = .ok c ∧
      ms = [.turn 0 none, .turn 0 none, .turn 0 none,
        .reply 0 (.ok { status := 200, body := earlierBody "a" "n" }) none,
        .reply 0 (.ok { status := 200, body := pageBody ["b"] "q" }) none] ∧
      (opening c).runRemote "x://h" (fun _ => .refresh) ms = some s ∧
      s.trace = before ++ ⟨0, 0, .installed l rs⟩ :: rest ∧ rs.length = 2 ∧
      .reply 0 (.ok response) status ∈ ms ∧ DeltaPage.nextLink? response.body = none ∧
      DeltaPage.deltaLink? response.body = some "q" := by
  have hc : Cache.new? "d" { refreshInterval := Nanos.second }
      = .ok { container := "d", options := { refreshInterval := Nanos.second } } := rfl
  have hfirst : (PageRequest.mk "d" none {}).address "x://h" = .ok "x://h/drives/d/root/delta" :=
    firstPage_short
  have hnext : (PageRequest.mk "d" (some "n") {}).address "x://h" = .ok "n" := rfl
  have hone : DeltaPage.decode (earlierBody "a" "n")
      = .ok { items := [.file "a" "a"], cursor := some "n", hasMore := true } :=
    eq_ok_of_toOption (by decide +kernel)
  have htwo : DeltaPage.decode (pageBody ["b"] "q")
      = .ok { items := [.file "b" "b"], cursor := some "q" } :=
    eq_ok_of_toOption (by decide +kernel)
  obtain ⟨t₀, h₀, hq₀, t₁, h₁, hq₁, s, h₂, htr⟩ :
      ∃ t₀, (opening { container := "d", options := { refreshInterval := Nanos.second } }).runRemote
          "x://h" (fun _ => .refresh) [.turn 0 none, .turn 0 none, .turn 0 none] = some t₀ ∧
        t₀.request? 0 = some ⟨"d", none, {}⟩ ∧
      ∃ t₁, t₀.step (fun _ => .refresh)
          (.turn 0 none (some
            ⟨.ok { items := [.file "a" "a"], cursor := some "n", hasMore := true }, none⟩))
          = some t₁ ∧ t₁.request? 0 = some ⟨"d", some "n", {}⟩ ∧
      ∃ s, t₁.step (fun _ => .refresh)
          (.turn 0 none (some ⟨.ok { items := [.file "b" "b"], cursor := some "q" }, none⟩))
          = some s ∧
        s.trace[9]? = some ⟨0, 0,
          .installed ⟨[.file "a" "a", .file "b" "b"], some "q", true, 2⟩
            [("a", { id := "a", accessLocator := some "a" }),
              ("b", { id := "b", accessLocator := some "b" })]⟩ :=
    ⟨_, rfl, rfl, _, rfl, rfl, _, rfl, rfl⟩
  have hr₁ := runRemote_reply hq₀ (PageRequest.answer_of_decode hfirst hone) h₁
  have hr₂ := runRemote_reply hq₁ (PageRequest.answer_of_decode hnext htwo) h₂
  have hrun := runRemote_append h₀ (runRemote_append hr₁ hr₂)
  obtain ⟨before, rest, hsplit⟩ := List.append_of_mem (List.mem_of_getElem? htr)
  obtain ⟨-, hlistings⟩ := linkless_page_closes hc hrun
  obtain ⟨response, status, page, hm, -, -, hnone, hcursor, -⟩ := hlistings _ _ _ _ _ _ hsplit
  exact ⟨_, _, s, before, rest, _, _, response, status, hc, rfl, hrun, hsplit, rfl, hm, hnone,
    hcursor.symm⟩

/-- A listing of two files is closed by a link, as it should be.  The drive then rejects that link,
and answers the request for the full listing with an empty object.  That body carries no link
whatever, but it closes the listing, which leaves the cache without records and without a cursor. -/
theorem empty_object_drops_records :
    ∃ c s t l,
      Cache.new? "d" { refreshInterval := Nanos.second } = .ok c ∧
      (opening c).runRemote "x://h" (fun _ => .refresh)
        [.turn 0 none, .turn 0 none, .turn 0 none,
          .reply 0 (.ok { status := 200, body := pageBody ["a", "b"] "q" }) none,
          .pass (2 * Nanos.second), .turn 1 none, .turn 1 none, .turn 1 none,
          .reply 1 (.error (.fatal (some PageRequest.expiredStatus) "resync")) none,
          .reply 1 (.ok { status := 200, body := emptyBody }) none] = some s ∧
      DeltaPage.nextLink? emptyBody = none ∧ DeltaPage.deltaLink? emptyBody = none ∧
      (∃ rs, ⟨0, 0, .installed ⟨[.file "a" "a", .file "b" "b"], some "q", true, 1⟩ rs⟩ ∈ s.trace ∧
        rs.length = 2) ∧
      ⟨1, t, .installed l []⟩ ∈ s.trace ∧ s.cache.records = [] ∧ s.cache.cursor = none := by
  have hc : Cache.new? "d" { refreshInterval := Nanos.second }
      = .ok { container := "d", options := { refreshInterval := Nanos.second } } := rfl
  have hf := firstPage_short
  have hfirst : (PageRequest.mk "d" none {}).address "x://h" = .ok "x://h/drives/d/root/delta" := hf
  have hlink : (PageRequest.mk "d" (some "q") {}).address "x://h" = .ok "q" := rfl
  have htwo : DeltaPage.decode (pageBody ["a", "b"] "q")
      = .ok { items := [.file "a" "a", .file "b" "b"], cursor := some "q" } :=
    eq_ok_of_toOption (by decide +kernel)
  obtain ⟨hcursor, hmore⟩ := DeltaPage.links_of_decode decode_emptyBody
  have hnext : DeltaPage.nextLink? emptyBody = none := by simpa using hmore.symm
  have hdelta : DeltaPage.deltaLink? emptyBody = none := by
    rw [hnext, Option.none_or] at hcursor
    exact hcursor.symm
  obtain ⟨t₀, h₀, hq₀, t₁, h₁, t₂, h₂, hq₂, t₃, h₃, hq₃, s, h₄, hold, htr, hrs, hcur⟩ :
      ∃ t₀, (opening { container := "d", options := { refreshInterval := Nanos.second } }).runRemote
          "x://h" (fun _ => .refresh) [.turn 0 none, .turn 0 none, .turn 0 none] = some t₀ ∧
        t₀.request? 0 = some ⟨"d", none, {}⟩ ∧
      ∃ t₁, t₀.step (fun _ => .refresh)
          (.turn 0 none (some
            ⟨.ok { items := [.file "a" "a", .file "b" "b"], cursor := some "q" }, none⟩))
          = some t₁ ∧
      ∃ t₂, t₁.runRemote "x://h" (fun _ => .refresh)
          [.pass (2 * Nanos.second), .turn 1 none, .turn 1 none, .turn 1 none] = some t₂ ∧
        t₂.request? 1 = some ⟨"d", some "q", {}⟩ ∧
      ∃ t₃, t₂.step (fun _ => .refresh) (.turn 1 none (some ⟨.error .cursorExpired, none⟩))
          = some t₃ ∧ t₃.request? 1 = some ⟨"d", none, {}⟩ ∧
      ∃ s, t₃.step (fun _ => .refresh) (.turn 1 none (some ⟨.ok {}, none⟩)) = some s ∧
        s.trace[6]? = some ⟨0, 0,
          .installed ⟨[.file "a" "a", .file "b" "b"], some "q", true, 1⟩
            [("a", { id := "a", accessLocator := some "a" }),
              ("b", { id := "b", accessLocator := some "b" })]⟩ ∧
        s.trace[20]? = some ⟨1, 2 * Nanos.second, .installed ⟨[], none, true, 1⟩ []⟩ ∧
        s.cache.records = [] ∧ s.cache.cursor = none :=
    ⟨_, rfl, rfl, _, rfl, _, rfl, rfl, _, rfl, rfl, _, rfl, rfl, rfl, rfl, rfl⟩
  have hr₁ := runRemote_reply hq₀ (PageRequest.answer_of_decode hfirst htwo) h₁
  have hr₂ := runRemote_reply hq₂ (PageRequest.answer_of_expired "resync" hlink rfl) h₃
  have hr₃ := runRemote_reply hq₃ (PageRequest.answer_of_decode hfirst decode_emptyBody) h₄
  have hrun := runRemote_append h₀ (runRemote_append hr₁ (runRemote_append h₂
    (runRemote_append hr₂ hr₃)))
  exact ⟨_, s, _, _, hc, by simpa only [List.cons_append, List.nil_append] using hrun, hnext,
    hdelta, ⟨_, List.mem_of_getElem? hold, rfl⟩, List.mem_of_getElem? htr, hrs, hcur⟩

end Session

end DriveDelta
