import DriveDelta.Proofs.Cache.Failure

/-!
# Records that can be relied on

Records get into a cache by merging only.  Whatever the items, merging files each record under its
own id, never two under the same, and never gives a tombstone or a file without an address anything
to download.  So a record that is served can be downloaded, and what a lookup answers tells exactly
what the records know of an id.

## What is here

* `Record.Fits` and `Records.InOrder`, what merging keeps, with `Records.InOrder.merge`;
* `Record.Serves` and `Records.Tells`, what a lookup may answer, with `Records.InOrder.tells`;
* `Session.Dismissed`, all that ever happens to a visit with an empty id;
* `Session.lookups_tell_records`, all of it for every session.
-/

set_option autoImplicit false

namespace DriveDelta

/-! ## What merging keeps -/

/-- This record may stand under this id. -/
structure Record.Fits (r : Record) (id : String) : Prop where
  id_eq : r.id = id
  named : id ≠ ""
  tombstone : r.tombstoned = true → r.accessLocator = none
  address : r.accessLocator ≠ some ""

/-- No item, however malformed, stands for a record that does not fit. -/
theorem Record.fits_of_ofItem {item : DeltaItem} {r : Record} (h : Record.ofItem? item = .ok r) :
    r.Fits r.id := by
  rw [Record.ofItem?] at h
  split at h
  · exact absurd h (by simp)
  · split at h
    · exact absurd h (by simp)
    · rename_i id hid
      have hne : id ≠ "" := by simpa using (Option.filter_eq_some_iff.1 hid).2
      split at h
      · rw [← Except.ok.inj h]
        exact ⟨rfl, hne, by simp, by simp⟩
      · rw [← Except.ok.inj h]
        refine ⟨rfl, hne, by simp, ?_⟩
        intro hurl
        exact absurd (Option.filter_eq_some_iff.1 hurl).2 (by simp)

namespace Records

/-- Every record fits its place, and no two are under the same id. -/
structure InOrder (rs : Records) : Prop where
  nodup : (rs.map Prod.fst).Nodup
  fits : ∀ e ∈ rs, e.2.Fits e.1

variable {rs : Records} {id : String} {r : Record}

theorem inOrder_nil : InOrder [] := ⟨List.nodup_nil, by simp⟩

theorem mem_of_get? (h : rs.get? id = some r) : (id, r) ∈ rs := by
  induction rs with
  | nil => exact absurd h (by simp [get?])
  | cons e rs ih =>
    obtain ⟨k, x⟩ := e
    rw [get?_cons] at h
    split at h
    · rename_i hk
      rw [hk, Option.some_inj.1 h]
      exact List.mem_cons_self
    · exact List.mem_cons_of_mem _ (ih h)

theorem mem_put {e : String × Record} (h : e ∈ rs.put id r) : e = (id, r) ∨ e ∈ rs := by
  induction rs with
  | nil => exact .inl (List.mem_singleton.1 h)
  | cons x rs ih =>
    rw [put] at h
    split at h
    · exact (List.mem_cons.1 h).imp_right (List.mem_cons_of_mem _)
    · rcases List.mem_cons.1 h with he | h
      · exact .inr (he ▸ List.mem_cons_self)
      · exact (ih h).imp_right (List.mem_cons_of_mem _)

/-- Replacing a record keeps its place. -/
theorem keys_put (rs : Records) (id : String) (r : Record) :
    (rs.put id r).map Prod.fst =
      if id ∈ rs.map Prod.fst then rs.map Prod.fst else rs.map Prod.fst ++ [id] := by
  induction rs with
  | nil => simp [put]
  | cons e rs ih =>
    rw [put]
    split
    · rename_i he
      simp [beq_iff_eq.1 he]
    · rename_i he
      have hne : id ≠ e.1 := by simpa using he
      rw [List.map_cons, ih, List.map_cons]
      by_cases hm : id ∈ rs.map Prod.fst
      · rw [if_pos hm, if_pos (List.mem_cons_of_mem _ hm)]
      · rw [if_neg hm, if_neg (by simp [hne, hm]), List.cons_append]

theorem InOrder.put (h : rs.InOrder) (hr : r.Fits id) : (rs.put id r).InOrder := by
  refine ⟨?_, ?_⟩
  · rw [keys_put]
    split
    · exact h.nodup
    · rename_i hno
      refine List.nodup_append.2 ⟨h.nodup, by simp, ?_⟩
      intro k hk k' hk' he
      rw [List.mem_singleton.1 hk'] at he
      exact hno (he ▸ hk)
  · intro e he
    rcases mem_put he with he | he
    · rw [he]
      exact hr
    · exact h.fits e he

theorem InOrder.apply (h : rs.InOrder) (item : DeltaItem) : (rs.apply item).InOrder := by
  rw [Records.apply]
  split
  · rename_i r hr
    exact h.put (Record.fits_of_ofItem hr)
  · exact h

theorem InOrder.merge (h : rs.InOrder) (items : List DeltaItem) :
    (Records.merge rs items).records.InOrder := by
  rw [merge_records]
  induction items generalizing rs with
  | nil => exact h
  | cons item items ih => exact ih (h.apply item)

/-! ## What the records say -/

end Records

/-- A record that can be downloaded, for this id. -/
structure Record.Serves (r : Record) (id : String) : Prop where
  id_eq : r.id = id
  alive : r.tombstoned = false
  address : ∃ url, url ≠ "" ∧ r.accessLocator = some url

namespace Records

variable {rs : Records} {id : String}

/-- What records may say about an id. -/
structure Tells (rs : Records) (id : String) (result : Except Error Record) : Prop where
  total : (∃ r, result = .ok r) ∨ result = .error (.gone id) ∨ result = .error (.notFound id)
  served : ∀ r, result = .ok r → rs.get? id = some r ∧ r.Serves id
  gone : result = .error (.gone id) ↔ ∃ r, rs.get? id = some r ∧ r.tombstoned = true
  notFound : result = .error (.notFound id) ↔
    rs.get? id = none ∨ ∃ r, rs.get? id = some r ∧ r.accessLocator = none ∧ r.tombstoned = false

/-- Records that are in order are read as they are. -/
theorem InOrder.tells (h : rs.InOrder) (id : String) : rs.Tells id (rs.answer id) := by
  rw [answer]
  cases hr : rs.get? id with
  | none => exact ⟨by simp, by simp, by simp [hr], by simp [hr]⟩
  | some r =>
    have hfits : r.Fits id := h.fits _ (mem_of_get? hr)
    cases ht : r.tombstoned with
    | true => exact ⟨by simp [ht], by simp [ht], by simp [ht, hr], by simp [ht, hr]⟩
    | false =>
      cases hl : r.accessLocator with
      | none =>
        have ha : r.isAvailable = false := by rw [Record.isAvailable, hl, Option.isSome_none,
          Bool.and_false]
        exact ⟨by simp [ht, ha], by simp [ht, ha], by simp [ht, ha, hr], by simp [ht, ha, hr, hl]⟩
      | some url =>
        have ha : r.isAvailable = true := by rw [Record.isAvailable, hl, ht]; rfl
        have hserves : r.Serves id :=
          ⟨hfits.id_eq, ht, url, fun he => hfits.address (he ▸ hl), hl⟩
        refine ⟨by simp [ht, ha], ?_, by simp [ht, ha, hr], by simp [ht, ha, hr, hl]⟩
        intro r' hr'
        obtain rfl : r = r' := by simpa [ht, ha] using hr'
        exact ⟨hr, hserves⟩

end Records

/-! ## One step -/

namespace Visit

variable {p : Purpose} {c : Cache} {v now : Nat} {status : Option CancelReason}
  {inc : Option Refresh.Incoming} {phase : Phase} {r : Step}

/-- Every step leaves the records in order: what is installed is merged into what there is, or into
nothing. -/
theorem Advance.inOrder (h : Advance p c v now status inc phase r) (hc : c.records.InOrder) :
    r.cache.records.InOrder := by
  rcases h.content with ⟨-, hk⟩ | ⟨_, _, l, _, _, -, -, -, hk, -⟩
  · rw [show r.cache.records = c.records from congrArg Cache.Content.records hk]
    exact hc
  · rw [show r.cache.records = (c.commit l now).1.records from congrArg Cache.Content.records hk,
      Cache.commit]
    cases l.reset with
    | true => exact Records.inOrder_nil.merge l.items
    | false => exact hc.merge l.items

/-- Nothing but reading the records ends a visit with a record. -/
theorem Advance.record_of_finished (h : Advance p c v now status inc phase r) {x : Record}
    (hx : r.phase = .finished (.record (.ok x))) :
    ∃ id, p = .lookup id ∧ c.records.answer id = .ok x := by
  -- After a refresh a visit reads the records or ends with an error, so it is no way to a record.
  have hout : ∀ (c : Cache) (outcome : Except Error Unit) (effects : List Effect),
      (afterRefresh p c v outcome effects).phase ≠ .finished (.record (.ok x)) := by
    intro c outcome effects
    rcases afterRefresh_cases p c v outcome effects with
      ⟨_, _, -, -, he⟩ | ⟨_, _, -, -, -, he⟩ | ⟨-, he⟩ <;> rw [he] <;> simp [toReading]
  cases h with
  | lined | approached | began | proceeded | dropped =>
    exact absurd hx (by simp [toQueue, toReading])
  | answered hp =>
    rcases hp with ⟨-, rfl⟩ | ⟨-, rfl⟩ <;> exact absurd hx (by simp)
  | withdrew | shared | spared | ended => exact absurd hx (hout _ _ _)
  | read =>
    cases p with
    | lookup id => exact ⟨id, rfl, by simpa [Visit.read, Cache.lookup] using hx⟩
    | _ => exact absurd hx (by simp [Visit.read])

end Visit

/-! ## Every session -/

namespace Session

open Visit Trace

variable {purpose : Nat → Purpose} {s s' : Session} {v : Nat} {m : Move}

/-- Every record that a lookup has ended with can be downloaded. -/
def Serves (purpose : Nat → Purpose) (s : Session) : Prop :=
  ∀ v r, s.phase v = .finished (.record (.ok r)) → ∃ id, purpose v = .lookup id ∧ r.Serves id

theorem Serves.step (h : Serves purpose s) (ho : s.cache.records.InOrder)
    (hs : s.step purpose m = some s') : Serves purpose s' := by
  rcases step_cases hs with ⟨u, status, inc, r, -, ha, rfl⟩ | ⟨span, -, rfl⟩
  · intro v x hx
    rcases eq_or_ne v u with rfl | hne
    · rw [phase_after_self] at hx
      obtain ⟨id, hp, hans⟩ := ha.record_of_finished hx
      exact ⟨id, hp, ((ho.tells id).served x hans).2⟩
    · rw [phase_after_of_ne hne] at hx
      exact h v x hx
  · exact h

/-- A visit that has not been made yet, or was turned away when it was: it never asked for a page
or did anything else. -/
def Dismissed (v : Nat) (s : Session) : Prop :=
  (s.phase v = .arriving ∧ deeds v s.trace = []) ∨
    s.phase v = .finished (.record (.error (.invalidArgument "item id is empty"))) ∧
      deeds v s.trace = [.arrived]

/-- A lookup without an id is turned away, and the session is as it was. -/
theorem step_of_emptyId (hp : purpose v = .lookup "") (hv : s.phase v = .arriving)
    (status : Option CancelReason) (inc : Option Refresh.Incoming) :
    s.step purpose (.turn v status inc) = some { s with
      phase := Function.update s.phase v
        (.finished (.record (.error (.invalidArgument "item id is empty"))))
      trace := s.trace ++ [⟨v, s.now, .arrived⟩] } := by
  rw [Session.step, hp, hv, Visit.step, arrive, if_pos rfl, Option.map_some, after, emptyId,
    List.map_singleton]

theorem Dismissed.step (h : Dismissed v s) (hp : purpose v = .lookup "")
    (hs : s.step purpose m = some s') : Dismissed v s' := by
  rcases step_cases hs with ⟨u, status, inc, r, rfl, -, rfl⟩ | ⟨span, -, rfl⟩
  · rcases eq_or_ne v u with rfl | hne
    · rcases h with ⟨hv, hd⟩ | ⟨hv, -⟩
      · rw [step_of_emptyId hp hv, Option.some_inj] at hs
        rw [← hs]
        refine .inr ⟨Function.update_self .., ?_⟩
        rw [deeds_append, hd, List.nil_append, ← deeds_stamps v s.now [.arrived]]
        rfl
      · rw [Session.step, hv, Visit.step] at hs
        exact absurd hs (by simp)
    · rw [Dismissed, phase_after_of_ne hne, deeds_after_of_ne hne]
      exact h
  · exact h

/-- A lookup that has the lock on the records takes away what they say. -/
theorem step_of_reading {id : String} (hp : purpose v = .lookup id) (hv : s.phase v = .reading)
    (hl : s.cache.accessors.holds v = true) (inc : Option Refresh.Incoming) :
    s.step purpose (.turn v none inc) =
      some (s.after v ⟨leave s.cache v, .finished (.record (s.cache.records.answer id)), []⟩) := by
  simp [Session.step, hp, hv, Visit.step, hl, Visit.read, Cache.lookup]

/-- **Lookups tell what the records know, and the records can be relied on.**  However the visits to
a cache take their turns, whatever the answers to their requests, whenever contexts are done:

* every record stands under its own id, which is not empty; a tombstone has no locator, and no
  locator is empty;
* a lookup with a live context that has come to the records takes away what they tell of its id:
  that it is gone exactly if there is a tombstone, that it was not found exactly if there is no
  record or one with neither locator nor tombstone, and otherwise a record that can be downloaded;
  the records stay as they are;
* no lookup has ever ended with any other record;
* a lookup with an empty id is turned away at once, whatever its context, and never asks for a page
  nor changes the cache. -/
theorem lookups_tell_records {container : String} {options : CacheOptions} {c : Cache}
    {ms : List Move} (hc : Cache.new? container options = .ok c)
    (h : (opening c).run purpose ms = some s) :
    s.cache.records.InOrder ∧
    (∀ v id inc, purpose v = .lookup id → s.phase v = .reading →
      (s.cache.accessors.holds v = false → s.step purpose (.turn v none inc) = none) ∧
      (s.cache.accessors.holds v = true → ∃ s' result,
        s.step purpose (.turn v none inc) = some s' ∧ s'.phase v = .finished (.record result) ∧
        s'.cache.content = s.cache.content ∧ s.cache.records.Tells id result)) ∧
    Serves purpose s ∧
    ∀ v, purpose v = .lookup "" →
      Dismissed v s ∧
      (s.phase v = .arriving → ∀ status inc, s.step purpose (.turn v status inc) = some { s with
        phase := Function.update s.phase v
          (.finished (.record (.error (.invalidArgument "item id is empty"))))
        trace := s.trace ++ [⟨v, s.now, .arrived⟩] }) := by
  obtain ⟨horder, hserves⟩ : s.cache.records.InOrder ∧ Serves purpose s := by
    refine run_induction (P := fun t => t.cache.records.InOrder ∧ Serves purpose t) h ?_ ?_
    · rw [Cache.eq_of_new? hc]
      refine ⟨Records.inOrder_nil, ?_⟩
      intro v r hv
      exact absurd hv (by simp [opening])
    · rintro m - t t' ⟨ho, hserves⟩ ht
      refine ⟨?_, hserves.step ho ht⟩
      rcases step_cases ht with ⟨v, status, inc, r, -, ha, rfl⟩ | ⟨span, -, rfl⟩
      · exact ha.inOrder ho
      · exact ho
  refine ⟨horder, ?_, hserves, ?_⟩
  · intro v id inc hp hv
    refine ⟨?_, ?_⟩
    · intro hl
      simp [Session.step, hp, hv, Visit.step, hl]
    · intro hl
      exact ⟨_, _, step_of_reading hp hv hl inc, phase_after_self .., rfl, horder.tells id⟩
  · intro v hp
    refine ⟨?_, step_of_emptyId hp⟩
    refine run_induction h (.inl ⟨rfl, rfl⟩) ?_
    intro m _ t t' ht hs
    exact ht.step hp hs

/-- A refresh finds a file, a tombstone, a file without an address and one without an id.  The
lookups of the first three are told so, and one with an empty id was turned away. -/
theorem lookups_tell_records_malformed :
    ∃ c s, Cache.new? "drive" { refreshInterval := Nanos.second } = .ok c ∧
      (opening c).run ([.lookup "a", .lookup "b", .lookup "t", .lookup ""].getD · .refresh)
        [.turn 0 none none, .turn 0 none none, .turn 0 none none,
          .turn 0 none (some ⟨.ok { items := [.file "a" "u", .tombstone "b", .file "t" "",
            { isFile := true }] }, none⟩),
          .turn 1 none none, .turn 2 none none, .turn 3 none none] = some s ∧
      (∃ s', s.step ([.lookup "a", .lookup "b", .lookup "t", .lookup ""].getD · .refresh)
          (.turn 0 none none) = some s' ∧
        s'.phase 0 = .finished (.record (.ok { id := "a", accessLocator := some "u" }))) ∧
      (∃ s', s.step ([.lookup "a", .lookup "b", .lookup "t", .lookup ""].getD · .refresh)
          (.turn 1 none none) = some s' ∧ s'.phase 1 = .finished (.record (.error (.gone "b")))) ∧
      (∃ s', s.step ([.lookup "a", .lookup "b", .lookup "t", .lookup ""].getD · .refresh)
          (.turn 2 none none) = some s' ∧
        s'.phase 2 = .finished (.record (.error (.notFound "t")))) ∧
      Dismissed 3 s := by
  have hc : Cache.new? "drive" { refreshInterval := Nanos.second } = .ok
      { container := "drive", options := { refreshInterval := Nanos.second } } := rfl
  obtain ⟨s, hs, h₀, h₁, h₂, hl₀, hl₁, hl₂, hget₀, hget₁, hget₂⟩ :
      ∃ s, (opening { container := "drive", options := { refreshInterval := Nanos.second } }).run
          ([.lookup "a", .lookup "b", .lookup "t", .lookup ""].getD · .refresh)
          [.turn 0 none none, .turn 0 none none, .turn 0 none none,
            .turn 0 none (some ⟨.ok { items := [.file "a" "u", .tombstone "b", .file "t" "",
              { isFile := true }] }, none⟩),
            .turn 1 none none, .turn 2 none none, .turn 3 none none] = some s ∧
        s.phase 0 = .reading ∧ s.phase 1 = .reading ∧ s.phase 2 = .reading ∧
        s.cache.accessors.holds 0 = true ∧ s.cache.accessors.holds 1 = true ∧
        s.cache.accessors.holds 2 = true ∧
        s.cache.records.get? "a" = some { id := "a", accessLocator := some "u" } ∧
        s.cache.records.get? "b" = some { id := "b", tombstoned := true } ∧
        s.cache.records.get? "t" = some { id := "t" } :=
    ⟨_, rfl, rfl, rfl, rfl, rfl, rfl, rfl, rfl, rfl, rfl⟩
  obtain ⟨-, hread, -, hempty⟩ := lookups_tell_records hc hs
  obtain ⟨s₀, result₀, hs₀, hv₀, -, ht₀⟩ := (hread 0 "a" none rfl h₀).2 hl₀
  obtain ⟨s₁, result₁, hs₁, hv₁, -, ht₁⟩ := (hread 1 "b" none rfl h₁).2 hl₁
  obtain ⟨s₂, result₂, hs₂, hv₂, -, ht₂⟩ := (hread 2 "t" none rfl h₂).2 hl₂
  have hfound : result₀ = .ok { id := "a", accessLocator := some "u" } := by
    rcases ht₀.total with ⟨r, hr⟩ | hr | hr
    · rw [hr, ← Option.some.inj (((ht₀.served r hr).1).symm.trans hget₀)]
    · obtain ⟨r, hr, htomb⟩ := ht₀.gone.1 hr
      rw [← Option.some.inj (hget₀.symm.trans hr)] at htomb
      exact absurd htomb (by decide)
    · rcases ht₀.notFound.1 hr with hr | ⟨r, hr, hnone, -⟩
      · exact absurd (hget₀.symm.trans hr) (by simp)
      · rw [← Option.some.inj (hget₀.symm.trans hr)] at hnone
        exact absurd hnone (by decide)
  have hgone : result₁ = .error (.gone "b") := ht₁.gone.2 ⟨_, hget₁, rfl⟩
  have hnone : result₂ = .error (.notFound "t") := ht₂.notFound.2 (.inr ⟨_, hget₂, rfl, rfl⟩)
  exact ⟨_, s, hc, hs, ⟨s₀, hs₀, by rw [hv₀, hfound]⟩, ⟨s₁, hs₁, by rw [hv₁, hgone]⟩,
    ⟨s₂, hs₂, by rw [hv₂, hnone]⟩, (hempty 3 rfl).1⟩

end Session

end DriveDelta
