import Mathlib.Data.List.DropRight
import DriveDelta.Proofs.Cache.Failure

/-!
# What an enumeration comes to

A refresh asks for pages until an answer ends it.  What it asks for next, and what it comes to, is
here told from its answers alone: from the cursor that it began with, from the answers that it has
taken in and from the latest of them.  No round is carried along.

## What is here

* `Reply`, an answer with what it finds, and `Refresh.Turn.hear?`, a refresh that is given one;
* `PageAnswer.latest`, the pages that count, and `PageAnswer.verdict`, what an answer leads to;
* `Round.Tells`, which says that a round in progress holds what its answers tell;
* `Refresh.enumeration_follows`: whatever a refresh is answered, it bears the verdict out.
-/

set_option autoImplicit false

namespace DriveDelta

/-! ## The reference -/

/-- An answer to the request for a page. -/
abbrev PageAnswer := Except Error DeltaPage

namespace PageAnswer

/-- Whether the answer rejects the cursor. -/
def isExpiry : PageAnswer → Bool
  | .error .cursorExpired => true
  | _ => false

/-- The pages that have come in since a cursor was last rejected. -/
def latest (answers : List PageAnswer) : List DeltaPage :=
  (answers.rtakeWhile fun a => !a.isExpiry).filterMap Except.toOption

/-- Whether everything is being listed: there was no cursor to begin with, or it was rejected. -/
def IsFull (start : Option String) (answers : List PageAnswer) : Prop :=
  start = none ∨ ∃ a ∈ answers, a.isExpiry

instance (start : Option String) (answers : List PageAnswer) :
    Decidable (IsFull start answers) := inferInstanceAs (Decidable (_ ∨ _))

/-- What an answer leads to. -/
inductive Verdict where
  /-- The next page is asked for. -/
  | asks (cursor : Option String)
  | returns (listing : Listing)
  | fails (error : Error)

/-- What an answer leads to that comes after others. -/
def verdict (start : Option String) (answers : List PageAnswer) : PageAnswer → Verdict
  | .ok page =>
    if page.hasMore then
      match page.cursor with
      | some cursor => .asks (some cursor)
      | none => .fails (.fatal none "delta page reported more results without a cursor")
    else
      .returns {
        items := (latest answers ++ [page]).flatMap (·.items)
        cursor := page.cursor
        reset := IsFull start answers
        pages := (latest answers ++ [page]).length }
  | .error .cursorExpired =>
    if IsFull start answers then
      .fails (.fatal none "delta cursor expired during a full enumeration")
    else .asks none
  | .error e => .fails e

variable {answers : List PageAnswer} {a : PageAnswer} {start : Option String}

theorem latest_append_of_expiry (h : a.isExpiry = true) : latest (answers ++ [a]) = [] := by
  rw [latest, List.rtakeWhile_concat_neg _ _ _ (by simp [h])]
  rfl

theorem latest_append_page (page : DeltaPage) :
    latest (answers ++ [.ok page]) = latest answers ++ [page] := by
  rw [latest, List.rtakeWhile_concat_pos _ _ _ (by rfl), List.filterMap_append]
  rfl

theorem isFull_append : IsFull start (answers ++ [a]) ↔ IsFull start answers ∨ a.isExpiry := by
  simp only [IsFull, List.mem_append, List.mem_singleton, or_and_right, exists_or,
    exists_eq_left, or_assoc]

end PageAnswer

/-! ## A refresh that is given answers -/

/-- An answer to the request for a page, with the cache and the time that it finds. -/
structure Reply where
  cache : Cache
  now : Nat
  answer : PageAnswer

namespace Refresh

namespace Turn

/-- The cursors with which pages were asked for, in order. -/
def calls (t : Turn) : List (Option String) := Visit.requests t.effects

/-- The same turn with what was done before it. -/
def behind (before : List Visit.Effect) : Turn → Turn
  | .waiting c stage effects => .waiting c stage (before ++ effects)
  | .ended c outcome effects => .ended c outcome (before ++ effects)

/-- Give a refresh the answer that it waits for, while its context is not done.  None if it waits
for no answer. -/
def hear? (me since : Nat) (t : Turn) (r : Reply) : Option Turn :=
  match t with
  | .waiting _ (.fetching round) before =>
    (step r.cache me since r.now none (some ⟨r.answer, none⟩) (.fetching round)).map
      (behind before)
  | _ => none

/-- A page has been asked for. -/
def Awaits (t : Turn) : Prop := ∃ c round effects, t = .waiting c (.fetching round) effects

/-- The round is complete: its listing waits to be installed, or has been. -/
def Returns (t : Turn) (l : Listing) : Prop :=
  (∃ c effects, t = .waiting c (.installing l) effects) ∨
    ∃ (c : Cache) (now : Nat) (effects : List Visit.Effect) (records : Records),
      t = .ended (c.commit l now).1 (c.commit l now).2.1 effects ∧ .installed l records ∈ effects

/-- The refresh has ended with an error, and nothing was installed. -/
def Fails (t : Turn) (e : Error) : Prop :=
  ∃ c effects, t = .ended c (.error e) effects ∧ ∀ l records, .installed l records ∉ effects

/-- No step that follows asks for a page. -/
def Quits (t : Turn) : Prop :=
  ∀ c stage effects, t = .waiting c stage effects → ∀ c' me since now status incoming t',
    step c' me since now status incoming stage = some t' → t'.calls = []

/-- What has come of a refresh that had made some calls is what the verdict says. -/
def Bears (t : Turn) (calls : List (Option String)) : PageAnswer.Verdict → Prop
  | .asks cursor => t.Awaits ∧ t.calls = calls ++ [cursor]
  | .returns l => t.Returns l ∧ t.calls = calls ∧ t.Quits
  | .fails e => t.Fails e ∧ t.calls = calls ∧ t.Quits

theorem quits_ended (c : Cache) (outcome : Except Error Unit) (effects : List Visit.Effect) :
    (ended c outcome effects).Quits := by
  intro _ _ _ h
  exact absurd h (by simp)

/-- A refresh that waits to install its listing asks for no page in the step that does. -/
theorem quits_installing (c : Cache) (l : Listing) (effects : List Visit.Effect) :
    (waiting c (.installing l) effects).Quits := by
  intro _ _ _ h _ _ _ _ _ _ _ hstep
  cases h
  cases advance_of_step hstep with
  | abandoned | installed => rfl

end Turn

end Refresh

/-! ## What a refresh has heard -/

/-- A round in progress holds what its answers tell. -/
structure Round.Tells (round : Round) (start : Option String) (answers : List PageAnswer) :
    Prop where
  items_eq : round.items = (PageAnswer.latest answers).flatMap (·.items)
  pages_eq : round.pages = (PageAnswer.latest answers).length
  reset_iff : round.reset = true ↔ PageAnswer.IsFull start answers
  expiries_le : answers.countP (·.isExpiry) ≤ if start.isNone then 0 else 1

namespace Round

open PageAnswer

variable {round round' : Round} {start : Option String} {answers : List PageAnswer}
  {a : PageAnswer} {told : List RoundEvent}

theorem tells_start (start : Option String) : (Round.start start).Tells start [] where
  items_eq := rfl
  pages_eq := rfl
  reset_iff := by cases start <;> simp [Round.start, IsFull]
  expiries_le := Nat.zero_le _

/-- As long as it is no full listing no cursor has been rejected. -/
theorem Tells.count_eq_zero (h : round.Tells start answers) (hr : round.reset = false) :
    start.isNone = false ∧ answers.countP (·.isExpiry) = 0 := by
  have hnot : ¬ IsFull start answers := fun hf => by simp [h.reset_iff.2 hf] at hr
  rw [IsFull, not_or] at hnot
  refine ⟨by simpa [Option.ne_none_iff_isSome] using hnot.1,
    List.countP_eq_zero.2 fun x hx hc => ?_⟩
  exact hnot.2 ⟨x, hx, hc⟩

/-- A round that goes on holds what its answers tell. -/
theorem Tells.more (h : round.Tells start answers) (hn : round.next a = (.more round', told)) :
    round'.Tells start (answers ++ [a]) := by
  rcases next_more hn with ⟨rfl, hr, rfl⟩ | ⟨page, cursor, rfl, -, -, rfl⟩
  · -- the listing is begun over
    obtain ⟨hstart, hcount⟩ := h.count_eq_zero hr
    have hnone : latest (answers ++ [.error .cursorExpired]) = [] := latest_append_of_expiry rfl
    refine ⟨by rw [hnone]; rfl, by rw [hnone]; rfl, ?_, ?_⟩
    · exact ⟨fun _ => isFull_append.2 (.inr rfl), fun _ => rfl⟩
    · rw [List.countP_append, hcount, hstart]
      exact Nat.le_refl 1
  · refine ⟨?_, ?_, ?_, ?_⟩
    · rw [latest_append_page, List.flatMap_append, ← h.items_eq]
      simp
    · rw [latest_append_page, List.length_append, ← h.pages_eq]
      rfl
    · rw [isFull_append, ← h.reset_iff]
      exact ⟨.inl, fun ho => ho.elim id fun he => absurd he (by simp [isExpiry])⟩
    · rw [List.countP_append]
      exact h.expiries_le

/-- What the next answer leads to. -/
theorem Tells.verdict_eq (h : round.Tells start answers) (a : PageAnswer) :
    verdict start answers a =
      match (round.next a).1 with
      | .more round' => .asks round'.cursor
      | .complete l => .returns l
      | .failed e => .fails e := by
  cases a with
  | error e =>
    cases e with
    | cursorExpired =>
      rw [verdict, next]
      by_cases hf : IsFull start answers
      · rw [if_pos hf, if_pos (h.reset_iff.2 hf)]
        rfl
      · rw [if_neg hf, if_neg (mt h.reset_iff.1 hf)]
        rfl
    | _ => rfl
  | ok page =>
    rw [verdict, next, take]
    cases hm : page.hasMore with
    | false =>
      have hreset : decide (IsFull start answers) = round.reset :=
        Bool.eq_iff_iff.2 (decide_eq_true_iff.trans h.reset_iff.symm)
      simp [h.items_eq, h.pages_eq, hreset]
    | true =>
      cases hc : page.cursor with
      | none => rfl
      | some cursor => rfl

end Round

namespace Refresh

open PageAnswer

variable {me since : Nat} {start : Option String} {answers : List PageAnswer} {t t' : Turn}

/-- A refresh that waits for an answer, having heard others and installed nothing. -/
def Turn.HasHeard (t : Turn) (start : Option String) (answers : List PageAnswer) : Prop :=
  ∃ c round effects, t = .waiting c (.fetching round) effects ∧ round.Tells start answers ∧
    ∀ l records, .installed l records ∉ effects

/-- A refresh that is about to ask for its first page. -/
theorem hasHeard_ask (c : Cache) (since now : Nat) (start : Option String) :
    (ask c since now none (.start start) []).HasHeard start [] :=
  ⟨c, .start start, [.asked start], rfl, Round.tells_start start, by simp⟩

/-- What follows an answer that is taken in is all that is asked for with it. -/
theorem requests_taken (a : PageAnswer) (told : List RoundEvent) (last : List Visit.Effect) :
    Visit.requests (taken a told ++ last) = Visit.requests last := by
  have htaken : Visit.requests (taken a told) = [] :=
    Visit.requests_eq_nil fun cursor hm => by simp [taken] at hm
  rw [Visit.requests_append, htaken, List.nil_append]

theorem requests_installation (c : Cache) (since now : Nat) (l : Listing) :
    Visit.requests (installation c since now l) = [] :=
  Visit.requests_eq_nil fun cursor hm => by simp [installation] at hm

theorem Turn.calls_behind (before : List Visit.Effect) (t : Turn) :
    (t.behind before).calls = Visit.requests before ++ t.calls := by
  cases t <;> exact Visit.requests_append ..

/-- **One answer.**  A refresh that waits for an answer takes it in, and what comes of it is what
the answers so far and this one tell. -/
theorem Turn.HasHeard.hear (h : t.HasHeard start answers) (me since : Nat) (r : Reply) :
    ∃ t', t.hear? me since r = some t' ∧ t'.Bears t.calls (verdict start answers r.answer) ∧
      (t'.Awaits → t'.HasHeard start (answers ++ [r.answer])) := by
  obtain ⟨c, round, before, rfl, htells, hbefore⟩ := h
  obtain ⟨t', ht'⟩ : ∃ t', step r.cache me since r.now none (some ⟨r.answer, none⟩)
    (.fetching round) = some t' := ⟨_, rfl⟩
  refine ⟨t'.behind before, by simp [hear?, ht'], ?_⟩
  have hnone {told : List RoundEvent} {x : Visit.Effect}
      (hx : ∀ l records, x ≠ .installed l records) (l : Listing) (records : Records) :
      .installed l records ∉ before ++ (taken r.answer told ++ [x]) := by
    have htaken : .installed l records ∉ taken r.answer told := by simp [taken]
    simp [hbefore l records, htaken, (hx l records).symm]
  have hcalls : t'.calls = [] →
      (t'.behind before).calls = (waiting c (.fetching round) before).calls := by
    intro hn
    rw [calls_behind, hn, List.append_nil]
    rfl
  cases advance_of_step ht' with
  | continued hn hs =>
    rw [htells.verdict_eq, hn]
    refine ⟨⟨⟨_, _, _, rfl⟩, ?_⟩, fun _ => ⟨_, _, _, rfl, htells.more hn, hnone (by simp)⟩⟩
    rw [calls_behind, calls, effects, requests_taken]
    rfl
  | stopped reason hn hs => exact absurd hs (by simp)
  | failed hn =>
    rw [htells.verdict_eq, hn]
    refine ⟨⟨⟨_, _, rfl, hnone (by simp)⟩, hcalls ?_, quits_ended _ _ _⟩, ?_⟩
    · exact requests_taken ..
    · rintro ⟨_, _, _, hw⟩
      exact absurd hw (by simp [behind])
  | completed hn hx =>
    rename_i l told
    rw [htells.verdict_eq, hn]
    refine ⟨⟨.inr ⟨_, _, _, (r.cache.commit l r.now).1.records, rfl, ?_⟩, hcalls ?_,
      quits_ended _ _ _⟩, ?_⟩
    · exact List.mem_append_right _ (List.mem_append_right _ List.mem_cons_self)
    · exact (requests_taken ..).trans (requests_installation ..)
    · rintro ⟨_, _, _, hw⟩
      exact absurd hw (by simp [behind])
  | staged hn hx =>
    rw [htells.verdict_eq, hn]
    refine ⟨⟨.inl ⟨_, _, rfl⟩, hcalls ?_, quits_installing _ _ _⟩, ?_⟩
    · exact (congrArg Visit.requests (List.append_nil _).symm).trans (requests_taken _ _ [])
    · rintro ⟨_, _, _, hw⟩
      exact absurd hw (by simp [behind])

/-- A refresh that waits for one more answer has heard all that came before. -/
theorem Turn.HasHeard.hearAll (h : t.HasHeard start []) {replies : List Reply}
    (hrun : replies.foldlM (hear? me since) t = some t') (ht' : t'.Awaits) :
    t'.HasHeard start (replies.map (·.answer)) := by
  induction replies using List.reverseRecOn generalizing t' with
  | nil => exact Option.some_inj.1 hrun ▸ h
  | append_singleton replies r ih =>
    rw [List.foldlM_append] at hrun
    obtain ⟨t₁, hrun₁, hr⟩ := Option.bind_eq_some_iff.1 hrun
    replace hr : t₁.hear? me since r = some t' := by simpa using hr
    have hwaits : t₁.Awaits := by
      unfold hear? at hr
      split at hr
      · exact ⟨_, _, _, rfl⟩
      · exact absurd hr (by simp)
    obtain ⟨t₂, ht₂, -, hnext⟩ := (ih hrun₁ hwaits).hear me since r
    obtain rfl : t₂ = t' := Option.some_inj.1 (ht₂.symm.trans hr)
    rw [List.map_append]
    exact hnext ht'

/-! ## Enumerations -/

/-- **An enumeration follows its reference.**  Take a refresh that begins to ask for pages, from any
cursor, and whose context is not done.  Its first request has that cursor.  Give it any answers one
after the other, each when the cache and the clock are as they may be by then.  While it waits for
one more, it has absorbed at most one rejected cursor, and none if it began without one; and
whatever the next answer is, the refresh takes it in, and then asks for the next page with the
cursor that the verdict names, or has come to the listing or the error that it names, and asks for
nothing more. -/
theorem enumeration_follows (c : Cache) (me since now : Nat) (start : Option String) :
    (ask c since now none (.start start) []).calls = [start] ∧
    ∀ (replies : List Reply) (t : Turn),
      replies.foldlM (Turn.hear? me since) (ask c since now none (.start start) []) = some t →
      t.Awaits →
      (replies.map (·.answer)).countP (·.isExpiry) ≤ (if start.isNone then 0 else 1) ∧
      ∀ r : Reply, ∃ t', t.hear? me since r = some t' ∧
        t'.Bears t.calls (verdict start (replies.map (·.answer)) r.answer) := by
  refine ⟨rfl, fun replies t hrun ht => ?_⟩
  have hheard := (hasHeard_ask c since now start).hearAll hrun ht
  refine ⟨?_, fun r => ?_⟩
  · obtain ⟨_, _, _, _, htells, -⟩ := hheard
    exact htells.expiries_le
  · obtain ⟨t', ht', hbears, -⟩ := hheard.hear me since r
    exact ⟨t', ht', hbears⟩

/-- The answer to a page of a new cache, given at once. -/
def promptly (answer : PageAnswer) : Reply where
  cache := { container := "drive", options := { refreshInterval := Nanos.second } }
  now := 0
  answer

/-- Its saved cursor is rejected after one page, so the enumeration begins over. -/
def interrupted : List Reply :=
  [promptly (.ok { items := [.folder "old"], cursor := some "more", hasMore := true }),
    promptly (.error .cursorExpired),
    promptly (.ok { items := [.folder "a"], cursor := some "next", hasMore := true })]

/-- Two pages come after a restart, and the listing is made of these. -/
theorem enumeration_follows_restarted :
    ∃ t t', interrupted.foldlM (Turn.hear? 0 0)
        (ask (promptly (.ok {})).cache 0 0 none (.start (some "saved")) []) = some t ∧
      t.calls = [some "saved", some "more", none, some "next"] ∧
      t.hear? 0 0 (promptly (.ok { items := [.folder "b"], cursor := some "end" })) = some t' ∧
      t'.Returns ⟨[.folder "a", .folder "b"], some "end", true, 2⟩ := by
  obtain ⟨t, hrun, hwaits, hcalls⟩ : ∃ t, interrupted.foldlM (Turn.hear? 0 0)
      (ask (promptly (.ok {})).cache 0 0 none (.start (some "saved")) []) = some t ∧ t.Awaits ∧
      t.calls = [some "saved", some "more", none, some "next"] :=
    ⟨_, rfl, ⟨_, _, _, rfl⟩, rfl⟩
  obtain ⟨-, hbears⟩ :=
    (enumeration_follows (promptly (.ok {})).cache 0 0 0 (some "saved")).2 _ t hrun hwaits
  obtain ⟨t', ht', hreturns, -⟩ :=
    hbears (promptly (.ok { items := [.folder "b"], cursor := some "end" }))
  exact ⟨t, t', hrun, hcalls, ht', hreturns⟩

end Refresh

end DriveDelta
