import DriveDelta.Proofs.Rehearsal.Parts

/-!
# A part follows the whole

A part of a rehearsal makes its steps when the whole one does, and is left behind by the steps of
the others.  What is compared is how both stand once everybody who can has stepped out of the line:
the others have turns in between, after which the line is looked through once more.

## What is here

* `Run.InStep`, what is said about the two clocks, and `Run.Finished`, where the part is over and
  the others go on;
* `Run.FollowedBy`, with `Run.FollowedBy.advance` for one step and `Run.FollowedBy.settle` for all
  of them;
* `Run.FollowedBy.isOver`: when the whole rehearsal is over, so is the part.
-/

set_option autoImplicit false

namespace DriveDelta

/-- A member that is no kept task. -/
def Member.Apart {σ τ ρ ω : Type} {m : Machine σ τ ρ} (P : Part m ω) (ch : Choice) :
    Member τ → Prop
  | .later me _ recipe body => ch.keep me = false ∧ P.own (Stage.options recipe) body = false
  | .active me context body => ch.keep me = false ∧ P.own context.options body = false
  | .cancelAfter .. | .cancelAt .. => True

namespace Run

variable {σ τ ρ ω : Type} {m : Machine σ τ ρ} {P : Part m ω} {ch : Choice} {g : Links}
  {r r' q q' : Run σ τ ρ} {x y : Member τ}

/-! ## Clocks -/

/-- A point in time that a clock skips, when nothing is due in between. -/
theorem due_iff {now t a : Nat} (hle : now ≤ t) (ht : Nanos.tick t = t)
    (hfree : now < Nanos.tick a → t < Nanos.tick a) : a ≤ now ↔ a ≤ t := by
  constructor
  · exact fun ha => Nat.le_trans ha hle
  · intro ha
    have htick : Nanos.tick a ≤ t := ht ▸ Nanos.tick_mono ha
    have hnow : ¬now < Nanos.tick a := fun h => absurd (hfree h) (Nat.not_lt.2 htick)
    exact Nat.le_trans (Nanos.le_tick a) (Nat.not_lt.1 hnow)

/-- A member of the part that cannot go on cannot do so later either, until a time comes that it
waits for. -/
theorem isAble_moveTo {t : Nat} (hinv : P.inv q.shared) (hy : y.Owned P) (hle : q.stage.now ≤ t)
    (ht : Nanos.tick t = t)
    (hfree : ∀ a ∈ y.alarms m, q.stage.now < Nanos.tick a → t < Nanos.tick a) :
    ({ q with stage := q.stage.moveTo t } : Run σ τ ρ).isAble m y = q.isAble m y := by
  cases y with
  | later me start recipe body =>
    rw [isAble_later, isAble_later, decide_eq_decide]
    exact (due_iff hle ht (hfree start (by simp [Member.alarms]))).symm
  | active me context body =>
    have hstatus : (q.stage.moveTo t).status context = q.stage.status context := by
      simp only [Stage.status, Context.status, Stage.moveTo]
      cases hd : context.deadline with
      | none => rfl
      | some d =>
        have hdue := due_iff hle ht (hfree d (by simp [Member.alarms, hd]))
        exact if_congr Iff.rfl rfl (if_congr hdue.symm rfl rfl)
    rw [isAble_active, isAble_active]
    show (m.step ⟨me, t, context, (q.stage.moveTo t).status context⟩ q.shared body).isSome = _
    rw [hstatus]
    exact P.waits (g := ⟨me, q.stage.now, context, q.stage.status context⟩) hinv hy fun a ha =>
      due_iff hle ht (hfree a (List.mem_append_right _ ha))
  | cancelAfter token span => rw [isAble_cancelAfter, isAble_cancelAfter]
  | cancelAt token due =>
    rw [isAble_cancelAt, isAble_cancelAt, decide_eq_decide]
    exact (due_iff hle ht (hfree due (by simp [Member.alarms]))).symm

/-- The clocks show the same, or the part waits and nothing is due in it that its clock has not
seen. -/
inductive InStep (m : Machine σ τ ρ) (r q : Run σ τ ρ) : Prop where
  | together (h : q.stage.now = r.stage.now)
  | behind (ht : q.turn = none) (hready : q.ready = []) (hle : q.stage.now ≤ r.stage.now)
    (hfree : ∀ y ∈ q.line, ∀ a ∈ y.alarms m,
      q.stage.now < Nanos.tick a → r.stage.now < Nanos.tick a)

theorem InStep.le (h : InStep m r q) : q.stage.now ≤ r.stage.now := by
  cases h with
  | together h => exact Nat.le_of_eq h
  | behind _ _ hle _ => exact hle

theorem InStep.free (h : InStep m r q) {a : Nat} (hy : y ∈ q.line) (ha : a ∈ y.alarms m)
    (hlt : q.stage.now < Nanos.tick a) : r.stage.now < Nanos.tick a := by
  cases h with
  | together h => exact h ▸ hlt
  | behind _ _ _ hfree => exact hfree y hy a ha hlt

theorem InStep.now_eq_of_turn (h : InStep m r q) (hy : q.turn = some y) :
    q.stage.now = r.stage.now := by
  cases h with
  | together h => exact h
  | behind ht => exact absurd (hy.symm.trans ht) (by simp)

theorem InStep.now_eq_of_ready {ready : List (Member τ)} (h : InStep m r q)
    (hy : q.ready = y :: ready) : q.stage.now = r.stage.now := by
  cases h with
  | together h => exact h
  | behind _ hready => exact absurd (hy.symm.trans hready) (by simp)

namespace Beside

theorem mem_line (h : Beside P ch g r q) :
    y ∈ q.line ↔ ∃ x ∈ r.line, x.image ch g = some y := by
  rw [h.line_eq, List.mem_filterMap]

/-- Whoever waits in the part can go on when it can in the whole. -/
theorem isAble_of_inStep (h : Beside P ch g r q) (hc : InStep m r q)
    (ht : Nanos.tick r.stage.now = r.stage.now) (hx : x ∈ r.line) (himg : x.image ch g = some y) :
    q.isAble m y = r.isAble m x := by
  have hfit : x.Fits P ch g := h.fits x (List.mem_append_right _ hx)
  have hnow : Beside P ch g r { q with stage := q.stage.moveTo r.stage.now } := { h with }
  have hy : y ∈ q.line := h.mem_line.2 ⟨x, hx, himg⟩
  rw [← isAble_moveTo h.inv_right (hfit.owned himg) hc.le ht fun a ha => hc.free hy ha]
  exact hnow.isAble_eq hfit himg rfl

end Beside

/-! ## Everybody has stepped out of the line -/

/-- How a rehearsal stands once everybody who can has stepped out of the line; while somebody has
the turn, nobody does. -/
def assembled (m : Machine σ τ ρ) (r : Run σ τ ρ) : Run σ τ ρ :=
  if r.turn.isNone then r.gather m else r

theorem assembled_of_none (ht : r.turn = none) : r.assembled m = r.gather m := by
  rw [assembled, ht]
  rfl

theorem assembled_of_some (ht : r.turn = some x) : r.assembled m = r := by
  rw [assembled, ht]
  rfl

@[simp] theorem turn_assembled (m : Machine σ τ ρ) (r : Run σ τ ρ) :
    (r.assembled m).turn = r.turn := by
  rw [assembled]
  split <;> rfl

@[simp] theorem stage_assembled (m : Machine σ τ ρ) (r : Run σ τ ρ) :
    (r.assembled m).stage = r.stage := by
  rw [assembled]
  split <;> rfl

theorem members_assembled (m : Machine σ τ ρ) (r : Run σ τ ρ) :
    (r.assembled m).members.Perm r.members := by
  rw [assembled]
  split
  · exact members_gather m r
  · exact .refl _

theorem frame_assembled (m : Machine σ τ ρ) (r : Run σ τ ρ) :
    (r.assembled m).leader = r.leader ∧ (r.assembled m).shared = r.shared ∧
      (r.assembled m).endings = r.endings := by
  rw [assembled]
  split <;> exact ⟨rfl, rfl, rfl⟩

/-! ## The part is over -/

/-- The part has nothing left to do, and the others go on. -/
structure Finished (P : Part m ω) (ch : Choice) (r q : Run σ τ ρ) : Prop where
  isOver : q.isOver = true
  unled : r.leader = none
  inv : P.inv r.shared
  view_eq : P.view q.shared = P.view r.shared
  endings_eq : told id q.endings = told ch.rank (r.endings.filter (ch.keep ·.me))
  apart : ∀ x ∈ r.members, x.Apart P ch

namespace Finished

theorem of_members (h : Finished P ch r q) (hunled : r'.leader = r.leader)
    (hshared : r'.shared = r.shared) (hendings : r'.endings = r.endings)
    (hmem : ∀ x ∈ r'.members, x.Apart P ch) : Finished P ch r' q :=
  ⟨h.isOver, hunled.trans h.unled, hshared ▸ h.inv, hshared ▸ h.view_eq, hendings ▸ h.endings_eq,
    hmem⟩

theorem play (h : Finished P ch r q) (hx : r.turn = some x) (hp : r.play m x = some r') :
    Finished P ch r' q := by
  have hmembers := members_of_turn hx
  have hself := h.apart x (hmembers ▸ List.mem_cons_self)
  have hrest : ∀ z ∈ r.ready ++ r.line, z.Apart P ch :=
    fun z hz => h.apart z (hmembers ▸ List.mem_cons_of_mem _ hz)
  cases played_of_play hp with
  | started =>
    refine h.of_members rfl rfl rfl fun z hz => ?_
    rcases mem_members_started hz with rfl | ⟨span, rfl⟩ | hz
    · exact hself
    · trivial
    · exact hrest z hz
  | lost => exact h.of_members rfl rfl rfl hrest
  | goesOn hstep hs =>
    obtain ⟨hinv, -, hown⟩ := P.keeps h.inv hstep
    have hview := h.view_eq.trans (P.apart h.inv hself.2 hstep).symm
    refine ⟨h.isOver, h.unled, hinv, hview, h.endings_eq, fun z hz => ?_⟩
    rcases List.mem_cons.1 hz with rfl | hz
    · exact ⟨hself.1, (hown _ hs).trans hself.2⟩
    · exact hrest z hz
  | ends hstep =>
    obtain ⟨hinv, -, -⟩ := P.keeps h.inv hstep
    have hview := h.view_eq.trans (P.apart h.inv hself.2 hstep).symm
    refine ⟨h.isOver, h.unled, hinv, hview, ?_, hrest⟩
    simpa [List.filter_append, hself.1] using h.endings_eq
  | waits =>
    refine h.of_members rfl rfl rfl fun z hz => ?_
    rw [members_of_none rfl, ← List.append_assoc, List.mem_append, List.mem_singleton] at hz
    rcases hz with hz | rfl
    · exact hrest z hz
    · trivial
  | cancels => exact h.of_members rfl rfl rfl hrest

theorem advance (h : Finished P ch r q) (ha : r.Advances m r') : Finished P ch r' q := by
  have hgather (t : Stage) : ∀ x ∈ (({ r with stage := t } : Run σ τ ρ).gather m).members,
      x.Apart P ch := fun x hx =>
    h.apart x ((members_gather m { r with stage := t }).mem_iff.1 hx)
  cases ha with
  | played hx hp => exact h.play hx hp
  | @blocked x hx hp =>
    refine h.of_members rfl rfl rfl fun z hz => h.apart z ?_
    rw [members_of_none rfl, ← List.append_assoc, List.mem_append, List.mem_singleton] at hz
    rw [members_of_turn hx, List.mem_cons]
    exact hz.symm
  | @called x ready ht hover hready =>
    refine h.of_members rfl rfl rfl fun z hz => hgather r.stage z ?_
    have hmembers : (r.gather m).members = x :: ready ++ (r.gather m).line := by
      rw [members_of_none (r := r.gather m) ht, hready]
    exact hmembers ▸ hz
  | @jumped t ht hover hready hunable hnext =>
    exact h.of_members rfl rfl rfl (hgather _)

end Finished

/-- Where the part is over, nobody who takes part in the whole is kept. -/
theorem Beside.finished (h : Beside P ch g r q) (hover : ∀ y ∈ q.members, y.isTask = false) :
    ∀ x ∈ r.members, x.Apart P ch := by
  intro x hx
  have hfit := h.fits x hx
  have himg : x.isTask = true → x.image ch g = none := by
    intro htask
    cases himg : x.image ch g with
    | none => rfl
    | some y =>
      have hy : y ∈ q.members := by
        rw [h.members_eq, List.mem_filterMap]
        exact ⟨x, hx, himg⟩
      exact absurd ((Member.isTask_of_image himg).symm.trans (hover y hy)) (by simp [htask])
  cases x with
  | later me start recipe body =>
    have hkeep : ch.keep me = false := by
      cases hkeep : ch.keep me with
      | false => rfl
      | true => simp [Member.image, hkeep, Member.isTask] at himg
    exact ⟨hkeep, hfit.trans hkeep⟩
  | active me context body =>
    have hkeep : ch.keep me = false := by
      rw [← hfit.2, Option.map_eq_none_iff.1 (himg rfl)]
      rfl
    exact ⟨hkeep, hfit.1.trans hkeep⟩
  | _ => trivial

/-! ## The part follows -/

/-- A rehearsal follows another one as its part. -/
inductive FollowedBy (P : Part m ω) (ch : Choice) (r q : Run σ τ ρ) : Prop where
  | beside {g : Links} (h : Beside P ch g (r.assembled m) (q.assembled m))
    (hc : InStep m (r.assembled m) (q.assembled m)) (ht : Nanos.tick r.stage.now = r.stage.now)
  | finished (h : Finished P ch r q)

namespace FollowedBy

theorem view_eq (h : FollowedBy P ch r q) : P.view q.shared = P.view r.shared := by
  cases h with
  | beside h =>
    have hview := h.view_eq
    rwa [(frame_assembled m r).2.1, (frame_assembled m q).2.1] at hview
  | finished h => exact h.view_eq

theorem endings_eq (h : FollowedBy P ch r q) :
    told id q.endings = told ch.rank (r.endings.filter (ch.keep ·.me)) := by
  cases h with
  | beside h =>
    have hendings := h.endings_eq
    rwa [(frame_assembled m r).2.2, (frame_assembled m q).2.2] at hendings
  | finished h => exact h.endings_eq

/-- When the whole rehearsal is over, so is the part. -/
theorem isOver (h : FollowedBy P ch r q) (hr : r.isOver = true) : q.isOver = true := by
  cases h with
  | finished h => exact h.isOver
  | beside h =>
    obtain ⟨ht, hall⟩ := isOver_iff.1 hr
    have hturn : q.turn = none := by
      have hturn := h.turn_eq
      rwa [turn_assembled, turn_assembled, ht] at hturn
    refine isOver_iff.2 ⟨hturn, fun y hy => ?_⟩
    have hy' := (members_assembled m q).mem_iff.2 hy
    rw [h.members_eq, List.mem_filterMap] at hy'
    obtain ⟨x, hx, himg⟩ := hy'
    rw [Member.isTask_of_image himg]
    exact hall x ((members_assembled m r).mem_iff.1 hx)

theorem finished_of_isOver (h : FollowedBy P ch r q) (hover : q.isOver = true) :
    Finished P ch r q := by
  have hview := h.view_eq
  have hendings := h.endings_eq
  cases h with
  | finished h => exact h
  | beside h =>
    have hframe := frame_assembled m r
    refine ⟨hover, hframe.1 ▸ h.unled_left, hframe.2.1 ▸ h.inv_left, hview, hendings,
      fun x hx => ?_⟩
    refine h.finished (fun y hy => ?_) x ((members_assembled m r).mem_iff.2 hx)
    exact (isOver_iff.1 hover).2 y ((members_assembled m q).mem_iff.1 hy)

/-- What stands alike at one time does so once everybody has stepped out of the line. -/
theorem of_together (h : Beside P ch g r q) (hnow : q.stage.now = r.stage.now)
    (ht : Nanos.tick r.stage.now = r.stage.now) (hturn : q.turn.isNone = r.turn.isNone) :
    FollowedBy P ch r q := by
  refine .beside (g := g) ?_ (.together (by simp [hnow])) ht
  rw [assembled, assembled, hturn]
  split
  · exact h.gather fun x hx y himg =>
      h.isAble_eq (h.fits x (List.mem_append_right _ hx)) himg hnow
  · exact h

/-- Nobody in the part steps out of the line when the others have had a turn. -/
theorem of_left (h : Beside P ch g r (q.assembled m)) (hc : InStep m r (q.assembled m))
    (ht : Nanos.tick r.stage.now = r.stage.now) (hq : q.turn = none) : FollowedBy P ch r q := by
  have hself : (q.assembled m).gather m = q.assembled m := by
    have hunled : q.leader = none := (frame_assembled m q).1 ▸ h.unled_right
    rw [assembled_of_none hq, gather_gather m hunled]
  cases hr : r.turn with
  | some x =>
    rw [← assembled_of_some (m := m) hr] at h hc
    exact .beside h hc ht
  | none =>
    have hgather := h.gather fun x hx y himg => h.isAble_of_inStep hc ht hx himg
    rw [hself, ← assembled_of_none hr] at hgather
    refine .beside hgather ?_ ht
    cases hc with
    | together hnow => exact .together (by simpa using hnow)
    | behind hturn hready hle hfree =>
      exact .behind hturn hready (by simpa using hle) fun y hy a ha hlt => by
        simpa using hfree y hy a ha hlt

/-- Looking through the line once more changes nothing. -/
theorem gather_left (h : FollowedBy P ch r q) (hunled : r.leader = none) (hr : r.turn = none) :
    FollowedBy P ch (r.gather m) q := by
  have hself : (r.gather m).assembled m = r.assembled m := by
    rw [assembled_of_none (r := r.gather m) hr, gather_gather m hunled, assembled_of_none hr]
  cases h with
  | beside h hc ht => exact .beside (hself ▸ h) (hself ▸ hc) ht
  | finished h =>
    exact .finished (h.of_members rfl rfl rfl fun x hx =>
      h.apart x ((members_gather m r).mem_iff.1 hx))

/-! ### The steps of the whole -/

/-- Somebody plays. -/
theorem played (h : Beside P ch g r (q.assembled m)) (hc : InStep m r (q.assembled m))
    (ht : Nanos.tick r.stage.now = r.stage.now) (hx : r.turn = some x)
    (hp : r.play m x = some r') :
    FollowedBy P ch r' q ∨ ∃ q', q.advance m = some q' ∧ FollowedBy P ch r' q' := by
  have hturn : q.turn = x.image ch g := by
    rw [← turn_assembled m, h.turn_eq, hx]
    rfl
  have hnow := now_of_play hp
  cases himg : x.image ch g with
  | none =>
    refine .inl (of_left (h.play_left hx himg hp) ?_ (hnow ▸ ht) (hturn.trans himg))
    cases hc with
    | together hsame => exact .together (hnow ▸ hsame)
    | behind hturn hready hle hfree => exact .behind hturn hready (hnow ▸ hle) (hnow ▸ hfree)
  | some y =>
    have hy : q.turn = some y := hturn.trans himg
    rw [assembled_of_some hy] at h hc
    have hsame := hc.now_eq_of_turn hy
    obtain ⟨q', g', hq', h', hturn'⟩ := h.play_both hx himg hsame hp
    refine .inr ⟨q', by rw [advance_of_turn hy, hq']; rfl, of_together h' ?_ (hnow ▸ ht) hturn'⟩
    rw [now_of_play hq', hsame, hnow]

/-- Somebody has to wait. -/
theorem blocked (h : Beside P ch g r (q.assembled m)) (hc : InStep m r (q.assembled m))
    (ht : Nanos.tick r.stage.now = r.stage.now) (hx : r.turn = some x)
    (hp : r.isAble m x = false) :
    FollowedBy P ch { r with turn := none, line := r.line ++ [x] } q ∨
      ∃ q', q.advance m = some q' ∧
        FollowedBy P ch { r with turn := none, line := r.line ++ [x] } q' := by
  have hself : x ∈ r.members := members_of_turn hx ▸ List.mem_cons_self
  have hturn : q.turn = x.image ch g := by
    rw [← turn_assembled m, h.turn_eq, hx]
    rfl
  cases himg : x.image ch g with
  | none =>
    have hwait := (h.leave_left hx himg).wait_left himg (h.token_lt x hself) (h.fits x hself)
    refine .inl (of_left hwait ?_ ht (hturn.trans himg))
    cases hc with
    | together hsame => exact .together hsame
    | behind hturn hready hle hfree => exact .behind hturn hready hle hfree
  | some y =>
    have hy : q.turn = some y := hturn.trans himg
    rw [assembled_of_some hy] at h hc
    have hsame := hc.now_eq_of_turn hy
    have hblocked : q.play m y = none := by
      have hable := h.isAble_eq (h.fits x hself) himg hsame
      rw [hp, isAble] at hable
      exact Option.isSome_eq_false_iff.1 hable |> Option.isNone_iff_eq_none.1
    have hwait := (h.leave hx).wait (h.token_lt x hself) (h.fits x hself)
    rw [himg] at hwait
    exact .inr ⟨_, by rw [advance_of_turn hy, hblocked]; rfl, of_together hwait hsame ht rfl⟩

/-- Somebody gets the turn. -/
theorem called {ready : List (Member τ)} (h : Beside P ch g (r.gather m) (q.assembled m))
    (hc : InStep m r (q.assembled m)) (ht : Nanos.tick r.stage.now = r.stage.now)
    (hr : r.turn = none) (hover : q.isOver = false) (hready : (r.gather m).ready = x :: ready) :
    FollowedBy P ch { r.gather m with turn := some x, ready } q ∨
      ∃ q', q.advance m = some q' ∧
        FollowedBy P ch { r.gather m with turn := some x, ready } q' := by
  have hq : q.turn = none := by
    rw [← turn_assembled m, h.turn_eq]
    exact congrArg (Option.bind · _) hr
  have hmembers : ∀ z ∈ ({ r.gather m with turn := some x, ready } : Run σ τ ρ).members,
      z ∈ (r.gather m).members := by
    intro z hz
    rw [members_of_none (r := r.gather m) hr, hready]
    exact hz
  have hline := h.ready_eq
  rw [hready] at hline
  cases himg : x.image ch g with
  | none =>
    rw [List.filterMap_cons_none himg] at hline
    have hleft : Beside P ch g { r.gather m with turn := some x, ready } (q.assembled m) :=
      { h with
        token_lt := fun z hz => h.token_lt z (hmembers z hz)
        fits := fun z hz => h.fits z (hmembers z hz)
        turn_eq := by rw [turn_assembled, hq]; exact himg.symm
        ready_eq := hline }
    refine .inl (of_left hleft ?_ ht hq)
    cases hc with
    | together hsame => exact .together hsame
    | behind hturn hready hle hfree => exact .behind hturn hready hle hfree
  | some y =>
    rw [List.filterMap_cons_some himg] at hline
    have hsame : q.stage.now = r.stage.now := by simpa using hc.now_eq_of_ready hline
    rw [assembled_of_none hq] at h hline
    refine .inr ⟨_, advance_called hq hover hline, of_together (g := g) ?_ hsame ht rfl⟩
    exact { h with
      token_lt := fun z hz => h.token_lt z (hmembers z hz)
      fits := fun z hz => h.fits z (hmembers z hz)
      turn_eq := himg.symm
      ready_eq := rfl }

/-- The clock of the whole jumps.  That of the part does when somebody in the part waits for this
time. -/
theorem jumped {t : Nat} (h : Beside P ch g r q) (hc : InStep m r q) (hr : r.turn = none)
    (hq : q.turn = none) (hover : q.isOver = false) (hready : (q.gather m).ready = [])
    (hnext : r.nextTime m = some t) :
    FollowedBy P ch (({ r with stage := r.stage.moveTo t } : Run σ τ ρ).gather m) q ∨
      ∃ q', q.advance m = some q' ∧
        FollowedBy P ch (({ r with stage := r.stage.moveTo t } : Run σ τ ρ).gather m) q' := by
  obtain ⟨⟨hlt, x, hx, a, ha, hat⟩, hfirst⟩ := nextTime_eq_some.1 hnext
  have htick : Nanos.tick t = t := hat ▸ Nanos.tick_tick a
  obtain ⟨hnobody, -, hself⟩ := gather_of_ready_eq_nil h.unled_right hready
  have hqlt : q.stage.now < t := Nat.lt_of_le_of_lt hc.le hlt
  -- nothing is due in the part before that
  have hahead : ∀ y ∈ q.line, ∀ b ∈ y.alarms m, q.stage.now < Nanos.tick b → t ≤ Nanos.tick b := by
    intro y hy b hb hb'
    obtain ⟨z, hz, himg⟩ := h.mem_line.1 hy
    exact hfirst z hz b (Member.alarms_of_image himg ▸ hb) (hc.free hy hb hb')
  have hmoved : Beside P ch g { r with stage := r.stage.moveTo t } q := { h with }
  by_cases hdue : ∃ y ∈ q.line, ∃ b ∈ y.alarms m, Nanos.tick b = t
  · have hjump :
        q.advance m = some (({ q with stage := q.stage.moveTo t } : Run σ τ ρ).gather m) := by
      rw [advance_of_ready_eq_nil h.unled_right hq hover hready,
        nextTime_eq_some.2 ⟨⟨hqlt, hdue⟩, hahead⟩]
      rfl
    refine .inr ⟨_, hjump, ?_⟩
    have hboth : Beside P ch g { r with stage := r.stage.moveTo t }
        { q with stage := q.stage.moveTo t } := { h with }
    refine of_together (hboth.gather fun x hx y himg => ?_) rfl htick
      (congrArg Option.isNone (hq.trans hr.symm))
    exact hboth.isAble_eq (hboth.fits x (List.mem_append_right _ hx)) himg rfl
  · have hassembled : q.assembled m = q := by rw [assembled_of_none hq, hself]
    have hbehind : InStep m { r with stage := r.stage.moveTo t } q := by
      refine .behind hq hnobody (Nat.le_of_lt hqlt) fun y hy b hb hb' => ?_
      exact Nat.lt_of_le_of_ne (hahead y hy b hb hb') fun heq => hdue ⟨y, hy, b, hb, heq.symm⟩
    refine .inl (gather_left (of_left (hassembled.symm ▸ hmoved) (hassembled.symm ▸ hbehind)
      htick hq) h.unled_left hr)

/-- **A step of the whole is a step of the part, or none.** -/
theorem advance (h : FollowedBy P ch r q) (ha : r.advance m = some r') :
    FollowedBy P ch r' q ∨ ∃ q', q.advance m = some q' ∧ FollowedBy P ch r' q' := by
  have hunled : r.leader = none := by
    cases h with
    | beside h => exact (frame_assembled m r).1 ▸ h.unled_left
    | finished h => exact h.unled
  have hsteps := advances_of_advance hunled ha
  cases hover : q.isOver with
  | true => exact .inl (.finished ((h.finished_of_isOver hover).advance hsteps))
  | false =>
    cases h with
    | finished h => exact absurd (hover.symm.trans h.isOver) (by simp)
    | beside h hc ht =>
      cases hsteps with
      | played hx hp =>
        rw [assembled_of_some hx] at h hc
        exact played h hc ht hx hp
      | blocked hx hp =>
        rw [assembled_of_some hx] at h hc
        exact blocked h hc ht hx hp
      | called hr _ hready =>
        rw [assembled_of_none hr] at h hc
        refine called h ?_ ht hr hover hready
        cases hc with
        | together hsame => exact .together hsame
        | behind hturn hready hle hfree => exact .behind hturn hready hle hfree
      | jumped hr _ hnobody hunable hnext =>
        rw [assembled_of_none hr, gather_eq_self hunled hunable] at h hc
        have hq : q.turn = none := by
          rw [← turn_assembled m, h.turn_eq, hr]
          rfl
        have hready := h.ready_eq
        rw [hnobody, assembled_of_none hq] at hready
        have hself := (gather_of_ready_eq_nil (by
          rw [← (frame_assembled m q).1]; exact h.unled_right) hready).2.2
        rw [assembled_of_none hq, hself] at h hc
        exact jumped h hc hr hq hover hready hnext

/-- **The part follows the whole through all of its steps.** -/
theorem settle (h : FollowedBy P ch r q) (fuel : Nat) :
    ∃ fuel' ≤ fuel, FollowedBy P ch (r.settle m fuel) (q.settle m fuel') := by
  induction fuel generalizing r q with
  | zero => exact ⟨0, Nat.le_refl _, h⟩
  | succ fuel ih =>
    rw [Run.settle]
    cases ha : r.advance m with
    | none => exact ⟨0, Nat.zero_le _, h⟩
    | some r' =>
      rcases h.advance ha with h' | ⟨q', hq', h'⟩
      · obtain ⟨fuel', hle, hs⟩ := ih h'
        exact ⟨fuel', Nat.le_succ_of_le hle, hs⟩
      · obtain ⟨fuel', hle, hs⟩ := ih h'
        refine ⟨fuel' + 1, Nat.succ_le_succ hle, ?_⟩
        rw [Run.settle, hq']
        exact hs

end FollowedBy

end Run

end DriveDelta
