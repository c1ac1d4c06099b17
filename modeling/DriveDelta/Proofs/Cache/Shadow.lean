import DriveDelta.Proofs.Cache.Freshness

/-!
# Readers of a cache in shadow mode

On one thread a visit that gets its turn goes on until it has to wait, and only then another one
does.  In shadow mode nobody keeps the records over a wait: a refresh gives them back in the turn in
which it got them.  So whenever a visit gets its turn nobody holds or wants the records, and a
lookup that finds some, while another visit refreshes, has read them by the end of its turn.

## What is here

* `Session.Poll`, a turn that goes on until the visit has to wait, and `Session.OneThread`, turns
  one after the other;
* `Session.Clear`, that nobody wants the records, which every turn keeps (`Session.Poll.clear`);
* `Session.poll_reader`, the turn of a reader that is let through;
* `Session.shadow_lookup_at_once`, what becomes of a lookup while another visit refreshes.
-/

set_option autoImplicit false

namespace DriveDelta

namespace Queue

variable {q : Queue} {want : Nat → Option Access} {v : Nat} {a : Access}

theorem Serves.eq_nil (h : q.Serves want) (hno : ∀ w, want w = none) : q = [] := by
  refine List.eq_nil_iff_forall_not_mem.2 ?_
  rintro ⟨w, b⟩ hx
  exact absurd ((h.mem_iff w b).1 hx) (by simp [hno w])

/-- Who is the only one in line has the lock. -/
theorem Serves.holds_of_alone (h : q.Serves want) (ho : ∀ w, w ≠ v → want w = none)
    (hv : want v = some a) : q.holds v = true := by
  have hmem : (v, a) ∈ q := (h.mem_iff v a).2 hv
  have hall : ∀ x ∈ q, x = (v, a) := by
    rintro ⟨w, b⟩ hx
    have hw := (h.mem_iff w b).1 hx
    rcases eq_or_ne w v with rfl | hne
    · rw [Option.some_inj.1 (hw.symm.trans hv)]
    · exact absurd hw (by simp [ho w hne])
  cases a with
  | read => exact holds_of_readers (fun x hx => by rw [hall x hx]) hmem
  | write =>
    refine holds_iff.2 (.inl ?_)
    cases q with
    | nil => exact absurd hmem List.not_mem_nil
    | cons x q => rw [List.head?_cons, hall x List.mem_cons_self]

end Queue

/-- In shadow mode, who has what it wants from the records goes on. -/
theorem Visit.step_isSome {p : Purpose} {c : Cache} {v now : Nat} {phase : Phase} {a : Access}
    (hph : phase.access .shadow = some a) (hl : c.accessors.holds v = true) :
    (step p c v now none none phase).isSome = true := by
  cases phase with
  | reading => simp [step.eq_def, hl]
  | refreshing since stage =>
    cases stage with
    | fetching round => exact absurd hph (by simp [Phase.access, Refresh.Stage.access])
    | _ => simp [step, Refresh.step, Refresh.whenHeld, hl]
  | _ => exact absurd hph (by simp [Phase.access])

namespace Session

open Trace Visit

variable {purpose : Nat → Purpose} {s s' s'' : Session} {v w : Nat}

/-! ## One thread -/

/-- A visit has its turn, and goes on until it has to wait.  Each of its steps finds its context in
some state, and may find an answer. -/
inductive Poll (purpose : Nat → Purpose) (v : Nat) :
    Session → List (Option CancelReason × Option Refresh.Incoming) → Session → Prop
  | rest {s : Session} (h : s.step purpose (.turn v none none) = none) : Poll purpose v s [] s
  | step {s s' s'' : Session} {status : Option CancelReason} {inc : Option Refresh.Incoming}
      {l : List (Option CancelReason × Option Refresh.Incoming)}
      (h : s.step purpose (.turn v status inc) = some s') (hl : Poll purpose v s' l s'') :
      Poll purpose v s ((status, inc) :: l) s''

/-- Visits have their turns, and time passes between them. -/
inductive OneThread (purpose : Nat → Purpose) (s : Session) : Session → Prop
  | start : OneThread purpose s s
  | poll {s' s'' : Session} {v : Nat} {l : List (Option CancelReason × Option Refresh.Incoming)}
      (h : OneThread purpose s s') (hp : Poll purpose v s' l s'') : OneThread purpose s s''
  | pass {s' s'' : Session} (span : Nat) (h : OneThread purpose s s')
      (hp : s'.step purpose (.pass span) = some s'') : OneThread purpose s s''

theorem Poll.keeps {P : Session → Prop} {l : List (Option CancelReason × Option Refresh.Incoming)}
    (h : Poll purpose v s l s') (h₀ : P s)
    (hstep : ∀ m t t', P t → Session.step purpose t m = some t' → P t') : P s' := by
  induction h with
  | rest => exact h₀
  | step h _ ih => exact ih (hstep _ _ _ h₀ h)

/-- What every move keeps is kept on one thread. -/
theorem OneThread.keeps {P : Session → Prop} (h : OneThread purpose s s') (h₀ : P s)
    (hstep : ∀ m t t', P t → Session.step purpose t m = some t' → P t') : P s' := by
  induction h with
  | start => exact h₀
  | poll _ hp ih => exact hp.keeps ih hstep
  | pass _ _ hp ih => exact hstep _ _ _ ih hp

/-! ## Nobody keeps the records -/

/-- Nobody holds or wants the records. -/
def Clear (s : Session) : Prop := ∀ v, (s.phase v).access .shadow = none

theorem Clear.accessors_eq_nil (h : Clear s) (hg : Guarded s)
    (hs : s.cache.options.strategy = .shadow) : s.cache.accessors = [] :=
  hg.serves.eq_nil fun v => hs.symm ▸ h v

/-- A visit that is the only one to want the records has let go of them when it has to wait. -/
theorem Poll.clear {l : List (Option CancelReason × Option Refresh.Incoming)}
    (h : Poll purpose v s l s') (hg : Guarded s) (hs : s.cache.options.strategy = .shadow)
    (ho : ∀ w, w ≠ v → (s.phase w).access .shadow = none) : Clear s' := by
  induction h with
  | @rest s hrest =>
    intro w
    rcases eq_or_ne w v with rfl | hne
    · cases ha : (s.phase w).access .shadow with
      | none => rfl
      | some a =>
        -- it would have what it wants, and go on
        have hl : s.cache.accessors.holds w = true :=
          hg.serves.holds_of_alone (fun u hu => hs.symm ▸ ho u hu) (hs.symm ▸ ha)
        have hgo : (Visit.step (purpose w) s.cache w s.now none none (s.phase w)).isSome = true :=
          step_isSome ha hl
        obtain ⟨r, hr⟩ := Option.isSome_iff_exists.1 hgo
        rw [Session.step, hr] at hrest
        exact absurd hrest (by simp)
    · exact ho w hne
  | @step s t _ _ _ _ hstep _ ih =>
    refine ih (hg.step hstep) (options_of_step hstep ▸ hs) fun w hne => ?_
    rcases step_cases hstep with ⟨u, status, inc, r, hm, -, rfl⟩ | ⟨span, hm, -⟩
    · obtain rfl : v = u := (Move.turn.inj hm).1
      rw [phase_after_of_ne hne]
      exact ho w hne
    · exact absurd hm (by simp)

/-- What is known of a session on one thread in shadow mode. -/
structure Shadowed (s : Session) : Prop where
  kept : Kept s
  told : Told s
  guarded : Guarded s
  dating : Dating s
  shadow : s.cache.options.strategy = .shadow

theorem Shadowed.step {m : Move} (h : Shadowed s) (hs : s.step purpose m = some s') :
    Shadowed s' :=
  ⟨h.kept.step hs, h.told.step h.kept hs, h.guarded.step hs, h.dating.step hs,
    options_of_step hs ▸ h.shadow⟩

/-- While there are records and somebody has the lock of refreshers, readers are let through. -/
theorem Shadowed.servesStale (h : Shadowed s) (hr : s.cache.records ≠ [])
    (hw : s.cache.refreshers.holds w = true) : servesStale s.cache = true := by
  have hbusy : s.cache.refreshers.isFree = false := by
    cases hq : s.cache.refreshers with
    | nil => exact absurd (hq ▸ hw) (by simp [Queue.holds, Queue.holdsBehindReaders])
    | cons x q => rfl
  have hpopulated : s.cache.populated = !s.cache.records.isEmpty := h.dating.booked.populated_eq
  rw [Visit.servesStale, h.shadow, hpopulated, hbusy]
  simpa using hr

/-- On one thread, nobody holds or wants the records whenever a visit gets its turn. -/
theorem OneThread.clear (h : OneThread purpose s s') (hs : Shadowed s) (hc : Clear s) :
    Shadowed s' ∧ Clear s' := by
  induction h with
  | start => exact ⟨hs, hc⟩
  | poll _ hp ih =>
    exact ⟨hp.keeps ih.1 fun _ _ _ ht => ht.step,
      hp.clear ih.1.guarded ih.1.shadow fun w _ => ih.2 w⟩
  | pass _ _ hp ih =>
    refine ⟨ih.1.step hp, fun w => ?_⟩
    obtain rfl := Option.some_inj.1 hp
    exact ih.2 w

theorem shadowed_opening {container : String} {options : CacheOptions} {c : Cache}
    (hc : Cache.new? container options = .ok c) (hs : options.strategy = .shadow) :
    Shadowed (opening c) := by
  refine ⟨kept_opening hc, told_opening c, guarded_opening hc, dating_opening hc, ?_⟩
  rw [Cache.eq_of_new? hc]
  exact hs

/-! ## The turn of a reader -/

/-- A visit at its end stays there. -/
theorem step_of_finished {answer : Answer} (hv : s.phase v = .finished answer)
    (status : Option CancelReason) (inc : Option Refresh.Incoming) :
    s.step purpose (.turn v status inc) = none := by
  rw [Session.step, hv]
  rfl

/-- Where a lookup stands once it has read in the turn in which it came. -/
def served (s : Session) (v : Nat) (id : String) : Session :=
  (s.after v (toReading s.cache v [.arrived])).after v
    ⟨s.cache, .finished (.record (s.cache.lookup id)), []⟩

variable {id : String}

theorem phase_served (s : Session) (v : Nat) (id : String) :
    (s.served v id).phase v = .finished (.record (s.cache.lookup id)) :=
  phase_after_self _ _ _

theorem deeds_served (s : Session) (v : Nat) (id : String) :
    deeds v (s.served v id).trace = deeds v s.trace ++ [.arrived] := by
  rw [served, deeds_after, deeds_after, List.append_nil]
  rfl

/-- A lookup whose first step is to get in line to read while nobody holds or wants the records has
them then, and reads at its second step. -/
theorem step_reading (hp : purpose v = .lookup id) (hfree : s.cache.accessors = [])
    (hout : ∀ x ∈ s.cache.refreshers, x.1 ≠ v) (inc : Option Refresh.Incoming) :
    (s.after v (toReading s.cache v [.arrived])).step purpose (.turn v none inc)
      = some (s.served v id) := by
  have hl : (s.cache.accessors.join v .read).holds v = true := by
    rw [hfree]
    simp [Queue.join, Queue.holds, Queue.holdsBehindReaders]
  have hline : (s.cache.accessors.join v .read).leave v = s.cache.accessors := by
    rw [hfree]
    simp [Queue.join, Queue.leave]
  have hleave : leave { s.cache with accessors := s.cache.accessors.join v .read } v
      = s.cache := by
    rw [leave, Queue.leave_eq_self hout, hline]
  have hstep : Visit.step (.lookup id) (toReading s.cache v [.arrived]).cache v s.now none inc
      .reading = some ⟨s.cache, .finished (.record (s.cache.lookup id)), []⟩ := by
    simp only [Visit.step, toReading, if_pos hl, hleave]
    rfl
  rw [Session.step, phase_after_self, hp]
  show (Visit.step (.lookup id) (toReading s.cache v [.arrived]).cache v s.now none inc
    .reading).map _ = _
  rw [hstep]
  rfl

/-- These two steps are its turn, and while its context is live it has no other. -/
theorem poll_served (hv : s.phase v = .arriving) (hp : purpose v = .lookup id)
    (harrive : arrive (.lookup id) s.cache v s.now = toReading s.cache v [.arrived])
    (hfree : s.cache.accessors = []) (hout : ∀ x ∈ s.cache.refreshers, x.1 ≠ v) :
    Poll purpose v s [(none, none), (none, none)] (s.served v id) ∧
      ∀ l s', (∀ x ∈ l, x.1 = none) → Poll purpose v s l s' → s' = s.served v id := by
  have hfirst : ∀ status inc, s.step purpose (.turn v status inc)
      = some (s.after v (toReading s.cache v [.arrived])) := by
    intro status inc
    rw [Session.step, hv, hp, Visit.step, harrive]
    rfl
  have hsecond : ∀ inc, (s.after v (toReading s.cache v [.arrived])).step purpose (.turn v none inc)
      = some (s.served v id) := fun inc => step_reading hp hfree hout inc
  have hend : ∀ status inc, (s.served v id).step purpose (.turn v status inc) = none :=
    step_of_finished (phase_served s v id)
  refine ⟨.step (hfirst _ _) (.step (hsecond _) (.rest (hend _ _))), fun l s' hlive h => ?_⟩
  cases h with
  | rest hrest => exact absurd ((hfirst _ _).symm.trans hrest) (by simp)
  | @step _ t _ status inc _ ht h =>
    obtain rfl := Option.some_inj.1 ((hfirst status inc).symm.trans ht)
    cases h with
    | rest hrest => exact absurd ((hsecond _).symm.trans hrest) (by simp)
    | @step _ t' _ status' inc' _ ht' h =>
      obtain rfl : status' = none := hlive (status', inc') (by simp)
      obtain rfl := Option.some_inj.1 ((hsecond inc').symm.trans ht')
      cases h with
      | rest => rfl
      | step ht'' => exact absurd ((hend _ _).symm.trans ht'') (by simp)

/-- A visit at its end has done all that it will do. -/
theorem OneThread.finished {answer : Answer} (h : OneThread purpose s s')
    (hv : s.phase v = .finished answer) :
    s'.phase v = .finished answer ∧ deeds v s'.trace = deeds v s.trace := by
  refine h.keeps (P := fun t => t.phase v = .finished answer ∧ deeds v t.trace = deeds v s.trace)
    ⟨hv, rfl⟩ fun m t t' ⟨ht, hd⟩ hs => ?_
  rcases step_cases hs with ⟨u, status, inc, r, -, ha, rfl⟩ | ⟨span, -, rfl⟩
  · rcases eq_or_ne v u with rfl | hne
    · rw [ht] at ha
      cases ha
    · rw [phase_after_of_ne hne, deeds_after_of_ne hne]
      exact ⟨ht, hd⟩
  · exact ⟨ht, hd⟩

/-- **Readers of a cache in shadow mode never wait for a refresh.**  On one thread, however the
visits take their turns, whatever the answers to their requests and whenever contexts are done: a
lookup that comes while there are records and another visit has the lock of refreshers

* ends in its first turn as long as its context is live, for which there is but one way;
* ends at the time at which it came, has asked for no page, and leaves the cache as it was;
* is answered from the records, which are those that the last installation left, whatever has been
  fetched since; and
* whatever becomes of the refresh later, that remains its answer, and it does nothing more. -/
theorem shadow_lookup_at_once {container : String} {options : CacheOptions} {c : Cache}
    (hc : Cache.new? container options = .ok c) (hshadow : options.strategy = .shadow)
    (h : OneThread purpose (opening c) s) (hv : s.phase v = .arriving)
    (hp : purpose v = .lookup id) (hid : id ≠ "") (hrecords : s.cache.records ≠ [])
    (hw : s.cache.refreshers.holds w = true) :
    (∃ t, Latest s.trace t s.cache.records) ∧
    ∃ s', Poll purpose v s [(none, none), (none, none)] s' ∧
      (∀ l s'', (∀ x ∈ l, x.1 = none) → Poll purpose v s l s'' → s'' = s') ∧
      s'.now = s.now ∧ s'.cache = s.cache ∧ deeds v s'.trace = [.arrived] ∧
      s'.phase v = .finished (.record (s.cache.records.answer id)) ∧
      ∀ s'', OneThread purpose s' s'' →
        s''.phase v = .finished (.record (s.cache.records.answer id)) ∧
          deeds v s''.trace = [.arrived] := by
  obtain ⟨hs, hclear⟩ := h.clear (shadowed_opening hc hshadow) fun _ => rfl
  have hfree := hclear.accessors_eq_nil hs.guarded hs.shadow
  have hout : ∀ x ∈ s.cache.refreshers, x.1 ≠ v :=
    hs.kept.orderly.serves.ne_of_mem (by rw [hv]; rfl)
  have harrive : arrive (.lookup id) s.cache v s.now = toReading s.cache v [.arrived] := by
    rw [arrive, if_neg hid, hs.servesStale hrecords hw, Bool.not_true, Bool.and_false]
    rfl
  obtain ⟨hpoll, honly⟩ := poll_served hv hp harrive hfree hout
  have hdeeds : deeds v (s.served v id).trace = [.arrived] := by
    have hnone : deeds v s.trace = [] := by
      rw [deeds, List.filter_eq_nil_iff.2 fun x hx => by simpa using hs.told.arriving v hv x hx]
      rfl
    rw [deeds_served, hnone, List.nil_append]
  obtain ⟨t, ht⟩ := Option.isSome_iff_exists.1 (hs.dating.booked.isSome_of_records hrecords)
  refine ⟨⟨t, hs.dating.latest t ht⟩, s.served v id, hpoll, honly, rfl, rfl, hdeeds,
    phase_served s v id, fun s'' hlater => ?_⟩
  obtain ⟨hphase, hd⟩ := hlater.finished (phase_served s v id)
  exact ⟨hphase, hd.trans hdeeds⟩

/-- A file is listed, and two seconds later another visit asks for the changes.  It has got a page
that says that the file is gone, and waits for the next one, when a lookup comes; it is told where
the file was. -/
theorem shadow_lookup_at_once_refetched :
    ∃ c s s', Cache.new? "drive" { refreshInterval := Nanos.second, strategy := .shadow } = .ok c ∧
      OneThread (fun _ => .lookup "a") (opening c) s ∧ s.cache.needsRefresh s.now = true ∧
      s.cache.refreshers.holds 1 = true ∧
      (deeds 1 s.trace)[4]? = some (.received
        (.ok { items := [.tombstone "a"], cursor := some "e", hasMore := true })) ∧
      Poll (fun _ => .lookup "a") 2 s [(none, none), (none, none)] s' ∧
      s'.phase 2 = .finished (.record (.ok { id := "a", accessLocator := some "u" })) := by
  obtain ⟨c, s, hc, hs, hv, hstale, hw, hfetched, hrecords⟩ : ∃ c s,
      Cache.new? "drive" { refreshInterval := Nanos.second, strategy := .shadow } = .ok c ∧
      OneThread (fun _ => .lookup "a") (opening c) s ∧ s.phase 2 = .arriving ∧
      s.cache.needsRefresh s.now = true ∧ s.cache.refreshers.holds 1 = true ∧
      (deeds 1 s.trace)[4]? = some (.received
        (.ok { items := [.tombstone "a"], cursor := some "e", hasMore := true })) ∧
      s.cache.records = [("a", { id := "a", accessLocator := some "u" })] :=
    ⟨_, _, rfl,
      .poll (v := 1)
        (l := [(none, some ⟨.ok ⟨[.tombstone "a"], some "e", true⟩, none⟩)])
        (.poll (v := 1) (l := [(none, none), (none, none), (none, none)])
          (.pass (2 * Nanos.second)
            (.poll (v := 0)
              (l := [(none, some ⟨.ok ⟨[.file "a" "u"], some "d", false⟩, none⟩), (none, none),
                (none, none)])
              (.poll (v := 0) (l := [(none, none), (none, none), (none, none)]) .start
                (.step rfl (.step rfl (.step rfl (.rest rfl)))))
              (.step rfl (.step rfl (.step rfl (.rest rfl)))))
            rfl)
          (.step rfl (.step rfl (.step rfl (.rest rfl)))))
        (.step rfl (.rest rfl)),
      rfl, rfl, rfl, rfl, rfl⟩
  obtain ⟨-, s', hpoll, -, -, -, -, hphase, -⟩ :=
    shadow_lookup_at_once hc rfl hs hv rfl (by decide) (by simp [hrecords]) hw
  refine ⟨c, s, s', hc, hs, hstale, hw, hfetched, hpoll, ?_⟩
  rw [hphase, hrecords]
  rfl

end Session

end DriveDelta
