import DriveDelta.Proofs.Rehearsal.Steps
import Mathlib.Data.List.Basic
import Mathlib.Logic.Function.Basic

/-!
# Parts of a rehearsal

Some of the tasks of a rehearsal may share something that the others leave alone.  Then these tasks
make up a part of it, and the part is itself a rehearsal: the one that these tasks would have had
without the others.  The others give the clock more times to stop at, and turns in between, but they
decide neither in which order the tasks of the part go on nor when.

The rehearsal of the part is compared with the whole one while it runs.  Whenever a member of the
part plays, both make a step; when the clock jumps to a time that somebody in the part waits for,
both do; and all other steps of the whole rehearsal leave the part as it is.  In between the clock
of the part may lag behind, but only over times that nobody in the part waits for.

## What is here

* `Part`, what makes some of the tasks of a machine a part, and `Choice`, which of the tasks of a
  rehearsal are in it;
* `Links` and `Linked`, which tokens of the whole rehearsal are which tokens of the part;
* `Run.Beside`: the part of a rehearsal stands as another rehearsal does, with what the turn of a
  member does to that (`Run.Beside.play_left`, `Run.Beside.play_both`).
-/

set_option autoImplicit false

namespace DriveDelta

/-! ## Parts -/

/-- Two glances that show the same, whoever has them. -/
structure Glance.Alike (g g' : Glance) : Prop where
  now_eq : g'.now = g.now
  status_eq : g'.status = g.status
  options_eq : g'.context.options = g.context.options

/-- A part of what the tasks of a machine share, and the tasks that share it: what they do depends
on the part alone, and the other tasks leave it alone. -/
structure Part {σ τ ρ : Type} (m : Machine σ τ ρ) (ω : Type) where
  /-- Whether a task with these options shares the part. -/
  own : CallOptions → τ → Bool
  /-- What always holds of what is shared. -/
  inv : σ → Prop
  view : σ → ω
  keeps : ∀ {g : Glance} {s : σ} {t : τ} {p : Progress σ τ ρ}, inv s → m.step g s t = some p →
    inv p.shared ∧ p.cancels = false ∧
      ∀ t', p.state = .inl t' → own g.context.options t' = own g.context.options t
  apart : ∀ {g : Glance} {s : σ} {t : τ} {p : Progress σ τ ρ}, inv s →
    own g.context.options t = false → m.step g s t = some p → view p.shared = view s
  alike : ∀ {g g' : Glance} {s s' : σ} {t : τ}, inv s → inv s' → view s' = view s →
    own g.context.options t = true → g.Alike g' →
      (m.step g' s' t).map (fun p => (view p.shared, p.state)) =
        (m.step g s t).map fun p => (view p.shared, p.state)
  /-- Whether such a task can go on changes only at times that it waits for. -/
  waits : ∀ {g : Glance} {s : σ} {t : τ} {now' : Nat}, inv s → own g.context.options t = true →
    (∀ a ∈ m.alarms t, a ≤ g.now ↔ a ≤ now') →
      (m.step { g with now := now' } s t).isSome = (m.step g s t).isSome

/-- Which tasks of a rehearsal are kept, by their numbers, and the numbers that these have among
themselves. -/
structure Choice where
  keep : Nat → Bool
  rank : Nat → Nat

/-- The tokens of the kept tasks, and the tokens that these have without the others. -/
abbrev Links : Type := Nat → Option Nat

/-- The linked tokens of two forests are cancelled alike. -/
structure Linked (g : Links) (f f' : Forest) : Prop where
  lt : ∀ {t u}, g t = some u → t < f.size ∧ u < f'.size
  inj : ∀ {t t' u}, g t = some u → g t' = some u → t = t'
  cancelled_eq : ∀ {t u}, g t = some u → f'.isCancelled u = f.isCancelled t
  flat_left : f.Flat
  flat_right : f'.Flat

namespace Linked

variable {g : Links} {f f' : Forest} {t u : Nat}

theorem eq_none (h : Linked g f f') (ht : f.size ≤ t) : g t = none := by
  cases hg : g t with
  | none => rfl
  | some u => exact absurd (h.lt hg).1 (Nat.not_lt.2 ht)

theorem cancel (h : Linked g f f') (ht : g t = some u) : Linked g (f.cancel t) (f'.cancel u) := by
  refine ⟨fun hg => by simpa using h.lt hg, h.inj, fun {t' u'} hg => ?_, h.flat_left.cancel t,
    h.flat_right.cancel u⟩
  have hsame : u' = u ↔ t' = t := by
    constructor
    · rintro rfl
      exact h.inj hg ht
    · rintro rfl
      exact Option.some_inj.1 (hg.symm.trans ht)
  rw [h.flat_left.isCancelled_cancel, h.flat_right.isCancelled_cancel, h.cancelled_eq hg]
  simp only [hsame, (h.lt ht).1, (h.lt ht).2]

theorem cancel_left (h : Linked g f f') (ht : g t = none) : Linked g (f.cancel t) f' := by
  refine ⟨fun hg => by simpa using h.lt hg, h.inj, fun {t' u'} hg => ?_, h.flat_left.cancel t,
    h.flat_right⟩
  have hne : t' ≠ t := by
    rintro rfl
    exact absurd (hg.symm.trans ht) (by simp)
  rw [h.flat_left.isCancelled_cancel, h.cancelled_eq hg]
  simp [hne]

/-- A new token in both. -/
theorem add (h : Linked g f f') :
    Linked (Function.update g f.size (some f'.size)) (f.add none) (f'.add none) := by
  have hcases {t u : Nat} (hg : Function.update g f.size (some f'.size) t = some u) :
      (t = f.size ∧ u = f'.size) ∨ t ≠ f.size ∧ g t = some u := by
    by_cases ht : t = f.size
    · subst ht
      rw [Function.update_self] at hg
      exact .inl ⟨rfl, (Option.some_inj.1 hg).symm⟩
    · rw [Function.update_of_ne ht] at hg
      exact .inr ⟨ht, hg⟩
  refine ⟨fun {t u} hg => ?_, fun {t t' u} hg hg' => ?_, fun {t u} hg => ?_, h.flat_left.add,
    h.flat_right.add⟩
  · rw [Forest.size_add, Forest.size_add]
    rcases hcases hg with ⟨rfl, rfl⟩ | ⟨-, hg⟩
    · exact ⟨Nat.lt_succ_self _, Nat.lt_succ_self _⟩
    · exact ⟨Nat.lt_succ_of_lt (h.lt hg).1, Nat.lt_succ_of_lt (h.lt hg).2⟩
  · rcases hcases hg with ⟨rfl, rfl⟩ | ⟨-, hg⟩ <;> rcases hcases hg' with ⟨rfl, hu⟩ | ⟨-, hg'⟩
    · rfl
    · exact absurd (h.lt hg').2 (Nat.lt_irrefl _)
    · exact absurd (hu ▸ (h.lt hg).2) (Nat.lt_irrefl _)
    · exact h.inj hg hg'
  · rw [Forest.isCancelled_add_none, Forest.isCancelled_add_none]
    rcases hcases hg with ⟨rfl, rfl⟩ | ⟨-, hg⟩
    · rw [Forest.isCancelled_of_le (Nat.le_refl _), Forest.isCancelled_of_le (Nat.le_refl _)]
    · exact h.cancelled_eq hg

/-- A new token that is not linked. -/
theorem add_left (h : Linked g f f') : Linked g (f.add none) f' :=
  ⟨fun hg => ⟨Nat.lt_succ_of_lt (h.lt hg).1, (h.lt hg).2⟩, h.inj,
    fun hg => by rw [Forest.isCancelled_add_none]; exact h.cancelled_eq hg, h.flat_left.add,
    h.flat_right⟩

/-- The same recipe makes a context in both. -/
theorem opened {s s' : Stage} (h : Linked g s.forest s'.forest) (recipe : Recipe) :
    Linked (Function.update g s.forest.size (some s'.forest.size)) (s.opened recipe).forest
      (s'.opened recipe).forest := by
  rw [Stage.opened, Stage.opened]
  split
  · exact h.add.cancel (Function.update_self _ _ _)
  · exact h.add

theorem opened_left {s : Stage} (h : Linked g s.forest f') (recipe : Recipe) :
    Linked g (s.opened recipe).forest f' := by
  rw [Stage.opened]
  split
  · exact h.add_left.cancel_left (h.eq_none (Nat.le_refl _))
  · exact h.add_left

end Linked

/-! ## Members -/

namespace Member

variable {σ τ ρ ω : Type} {m : Machine σ τ ρ}

/-- The token of a member that has one. -/
def token? : Member τ → Option Nat
  | later .. => none
  | active _ context _ => some context.token
  | cancelAfter token _ | cancelAt token _ => some token

/-- What a member is without the others, if it is kept. -/
def image (ch : Choice) (g : Links) : Member τ → Option (Member τ)
  | later me start recipe body =>
    if ch.keep me then some (later (ch.rank me) start recipe body) else none
  | active me context body =>
    (g context.token).map fun u => active (ch.rank me) { context with token := u } body
  | cancelAfter token span => (g token).map (cancelAfter · span)
  | cancelAt token due => (g token).map (cancelAt · due)

/-- The tasks that share a part are those that are kept, and their tokens are those that are
linked. -/
def Fits (P : Part m ω) (ch : Choice) (g : Links) : Member τ → Prop
  | later me _ recipe body => P.own (Stage.options recipe) body = ch.keep me
  | active me context body =>
    P.own context.options body = ch.keep me ∧ (g context.token).isSome = ch.keep me
  | cancelAfter .. | cancelAt .. => True

variable {P : Part m ω} {ch : Choice} {g : Links} {x y : Member τ}

theorem image_later {me start : Nat} {recipe : Recipe} {body : τ}
    (h : (later me start recipe body).image ch g = some y) :
    ch.keep me = true ∧ y = later (ch.rank me) start recipe body := by
  rw [image] at h
  split at h
  · rename_i hkeep
    exact ⟨hkeep, (Option.some_inj.1 h).symm⟩
  · exact absurd h (by simp)

theorem image_active {me : Nat} {context : Context} {body : τ}
    (h : (active me context body).image ch g = some y) :
    ∃ u, g context.token = some u ∧ y = active (ch.rank me) { context with token := u } body := by
  obtain ⟨u, hu, rfl⟩ := Option.map_eq_some_iff.1 h
  exact ⟨u, hu, rfl⟩

theorem isToStart_of_image (h : x.image ch g = some y) : y.isToStart = x.isToStart := by
  cases x with
  | later =>
    obtain ⟨-, rfl⟩ := image_later h
    rfl
  | active =>
    obtain ⟨u, -, rfl⟩ := image_active h
    rfl
  | _ =>
    obtain ⟨u, -, rfl⟩ := Option.map_eq_some_iff.1 h
    rfl

theorem isTask_of_image (h : x.image ch g = some y) : y.isTask = x.isTask := by
  cases x with
  | later =>
    obtain ⟨-, rfl⟩ := image_later h
    rfl
  | active =>
    obtain ⟨u, -, rfl⟩ := image_active h
    rfl
  | _ =>
    obtain ⟨u, -, rfl⟩ := Option.map_eq_some_iff.1 h
    rfl

theorem alarms_of_image (h : x.image ch g = some y) : y.alarms m = x.alarms m := by
  cases x with
  | later =>
    obtain ⟨-, rfl⟩ := image_later h
    rfl
  | active =>
    obtain ⟨u, -, rfl⟩ := image_active h
    rfl
  | _ =>
    obtain ⟨u, -, rfl⟩ := Option.map_eq_some_iff.1 h
    rfl

/-- A link for a token that nobody has yet changes nobody. -/
theorem image_update {size : Nat} {v : Option Nat} (h : ∀ t ∈ x.token?, t < size) :
    x.image ch (Function.update g size v) = x.image ch g := by
  have hother (t : Nat) (ht : t ∈ x.token?) : Function.update g size v t = g t :=
    Function.update_of_ne (Nat.ne_of_lt (h t ht)) _ _
  cases x with
  | later => rfl
  | active me context body => rw [image, image, hother _ rfl]
  | cancelAfter token span => rw [image, image, hother _ rfl]
  | cancelAt token due => rw [image, image, hother _ rfl]

theorem Fits.update {size : Nat} {v : Option Nat} (h : x.Fits P ch g)
    (ht : ∀ t ∈ x.token?, t < size) : x.Fits P ch (Function.update g size v) := by
  cases x with
  | active me context body =>
    have hother : Function.update g size v context.token = g context.token :=
      Function.update_of_ne (Nat.ne_of_lt (ht _ rfl)) _ _
    rw [Fits, hother]
    exact h
  | _ => exact h

/-- A task that shares the part owns it. -/
def Owned (P : Part m ω) : Member τ → Prop
  | active _ context body => P.own context.options body = true
  | _ => True

theorem Fits.owned (h : x.Fits P ch g) (himg : x.image ch g = some y) : y.Owned P := by
  cases x with
  | later =>
    obtain ⟨-, rfl⟩ := image_later himg
    trivial
  | active me context body =>
    obtain ⟨u, hu, rfl⟩ := image_active himg
    have hkeep : ch.keep me = true := by rw [← h.2, hu]; rfl
    exact h.1.trans hkeep
  | _ =>
    obtain ⟨u, -, rfl⟩ := Option.map_eq_some_iff.1 himg
    trivial

end Member

/-- A filter before and the same filter after. -/
theorem List.filterMap_filter_comm {α β : Type} {f : α → Option β} {p : α → Bool} {p' : β → Bool}
    {l : List α} (h : ∀ x ∈ l, ∀ y, f x = some y → p' y = p x) :
    (l.filter p).filterMap f = (l.filterMap f).filter p' := by
  induction l with
  | nil => rfl
  | cons x l ih =>
    rw [List.forall_mem_cons] at h
    cases hx : f x with
    | none => cases hp : p x <;> simp [hx, hp, ih h.2]
    | some y =>
      have hy := h.1 y hx
      cases hp : p x <;> simp [hx, hp, hy, ih h.2]

namespace Run

variable {σ τ ρ ω : Type} {m : Machine σ τ ρ}

/-- How tasks ended and when, with the numbers that they are told by. -/
def told (number : Nat → Nat) (es : List (Ending ρ)) : List (Nat × ρ × Nat) :=
  es.map fun e => (number e.me, e.result, e.finish)

theorem told_append (number : Nat → Nat) (es es' : List (Ending ρ)) :
    told number (es ++ es') = told number es ++ told number es' := List.map_append

/-! ## A rehearsal beside its part -/

/-- The kept tasks of a rehearsal stand as all of another one do.  Nothing is said about the
clocks. -/
structure Beside (P : Part m ω) (ch : Choice) (g : Links) (r q : Run σ τ ρ) : Prop where
  unled_left : r.leader = none
  unled_right : q.leader = none
  inv_left : P.inv r.shared
  inv_right : P.inv q.shared
  view_eq : P.view q.shared = P.view r.shared
  linked : Linked g r.stage.forest q.stage.forest
  token_lt : ∀ x ∈ r.members, ∀ t ∈ x.token?, t < r.stage.forest.size
  fits : ∀ x ∈ r.members, x.Fits P ch g
  turn_eq : q.turn = r.turn.bind (·.image ch g)
  ready_eq : q.ready = r.ready.filterMap (·.image ch g)
  line_eq : q.line = r.line.filterMap (·.image ch g)
  endings_eq : told id q.endings = told ch.rank (r.endings.filter (ch.keep ·.me))

variable {P : Part m ω} {ch : Choice} {g : Links} {r r' q q' : Run σ τ ρ} {x y : Member τ}

namespace Beside

theorem members_eq (h : Beside P ch g r q) : q.members = r.members.filterMap (·.image ch g) := by
  rw [members, members, List.filterMap_append, List.filterMap_append, ← h.ready_eq, ← h.line_eq,
    h.turn_eq]
  cases r.turn with
  | none => rfl
  | some x => cases hx : x.image ch g <;> simp [hx]

/-- A kept task sees the same in both. -/
theorem alike (h : Beside P ch g r q) (me : Nat) {context : Context} {u : Nat}
    (hu : g context.token = some u) (hnow : q.stage.now = r.stage.now) :
    Glance.Alike ⟨me, r.stage.now, context, r.stage.status context⟩
      ⟨ch.rank me, q.stage.now, { context with token := u },
        q.stage.status { context with token := u }⟩ := by
  refine ⟨hnow, ?_, rfl⟩
  simp only [Stage.status, Context.status, h.linked.cancelled_eq hu, hnow]

theorem step_eq (h : Beside P ch g r q) {me : Nat} {context : Context} {body : τ} {u : Nat}
    (hfit : (Member.active me context body).Fits P ch g) (hu : g context.token = some u)
    (hnow : q.stage.now = r.stage.now) :
    (m.step ⟨ch.rank me, q.stage.now, { context with token := u },
        q.stage.status { context with token := u }⟩ q.shared body).map
        (fun p => (P.view p.shared, p.state)) =
      (m.step ⟨me, r.stage.now, context, r.stage.status context⟩ r.shared body).map
        fun p => (P.view p.shared, p.state) := by
  have hkeep : ch.keep me = true := by rw [← hfit.2, hu]; rfl
  exact P.alike h.inv_left h.inv_right h.view_eq (hfit.1.trans hkeep) (h.alike me hu hnow)

theorem isAble_eq (h : Beside P ch g r q) (hfit : x.Fits P ch g) (himg : x.image ch g = some y)
    (hnow : q.stage.now = r.stage.now) : q.isAble m y = r.isAble m x := by
  cases x with
  | later =>
    obtain ⟨-, rfl⟩ := Member.image_later himg
    rw [isAble_later, isAble_later, hnow]
  | active me context body =>
    obtain ⟨u, hu, rfl⟩ := Member.image_active himg
    have hsome := congrArg Option.isSome (h.step_eq hfit hu hnow)
    rwa [Option.isSome_map, Option.isSome_map, ← isAble_active, ← isAble_active] at hsome
  | cancelAfter =>
    obtain ⟨u, -, rfl⟩ := Option.map_eq_some_iff.1 himg
    rw [isAble_cancelAfter, isAble_cancelAfter]
  | cancelAt =>
    obtain ⟨u, -, rfl⟩ := Option.map_eq_some_iff.1 himg
    rw [isAble_cancelAt, isAble_cancelAt, hnow]

/-- Those who can go on step out of the line in both. -/
theorem gather (h : Beside P ch g r q)
    (hable : ∀ x ∈ r.line, ∀ y, x.image ch g = some y → q.isAble m y = r.isAble m x) :
    Beside P ch g (r.gather m) (q.gather m) := by
  have hline : (r.line.filter (r.isAble m)).filterMap (·.image ch g) =
      q.line.filter (q.isAble m) := by
    rw [h.line_eq]
    exact List.filterMap_filter_comm hable
  have hready (f f' : Member τ → Bool)
      (hf : ∀ x y : Member τ, x.image ch g = some y → f' y = f x) :
      ((r.line.filter (r.isAble m)).filter f).filterMap (·.image ch g) =
        (q.line.filter (q.isAble m)).filter f' := by
    rw [← hline]
    exact List.filterMap_filter_comm fun x _ y hxy => hf x y hxy
  have hwaits := hready (!·.isToStart) (!·.isToStart) fun x y hxy => by
    rw [Member.isToStart_of_image hxy]
  have hstarts := hready (·.isToStart) (·.isToStart) fun x y => Member.isToStart_of_image
  have hmem (x : Member τ) : x ∈ (r.gather m).members ↔ x ∈ r.members :=
    (members_gather m r).mem_iff
  rw [gather_of_unled m h.unled_left] at hmem ⊢
  rw [gather_of_unled m h.unled_right]
  refine { h with
    token_lt := fun x hx => h.token_lt x ((hmem x).1 hx)
    fits := fun x hx => h.fits x ((hmem x).1 hx)
    ready_eq := ?_
    line_eq := ?_ }
  · simp only [List.filterMap_append, ← h.ready_eq, hwaits, hstarts]
  · show q.line.filter (!q.isAble m ·) =
      (r.line.filter (!r.isAble m ·)).filterMap (·.image ch g)
    rw [h.line_eq]
    exact (List.filterMap_filter_comm fun x hx y hxy => by rw [hable x hx y hxy]).symm

/-! ### Turns of the others -/

/-- A member may leave. -/
theorem leave (h : Beside P ch g r q) (hx : r.turn = some x) :
    Beside P ch g { r with turn := none } { q with turn := none } :=
  have hrest : ∀ z ∈ r.ready ++ r.line, z ∈ r.members :=
    fun _ hz => members_of_turn hx ▸ List.mem_cons_of_mem _ hz
  { h with
    token_lt := fun z hz => h.token_lt z (hrest z hz)
    fits := fun z hz => h.fits z (hrest z hz)
    turn_eq := rfl }

theorem leave_left (h : Beside P ch g r q) (hx : r.turn = some x) (himg : x.image ch g = none) :
    Beside P ch g { r with turn := none } q := by
  have hturn : q.turn = none := by rw [h.turn_eq, hx]; exact himg
  exact { h.leave hx with turn_eq := hturn }

/-- A member may step into the line. -/
theorem wait (h : Beside P ch g { r with turn := none } { q with turn := none })
    (htoken : ∀ t ∈ x.token?, t < r.stage.forest.size) (hfit : x.Fits P ch g) :
    Beside P ch g { r with turn := none, line := r.line ++ [x] }
      { q with turn := none, line := q.line ++ (x.image ch g).toList } := by
  have hmem : ∀ z ∈ ({ r with turn := none, line := r.line ++ [x] } : Run σ τ ρ).members,
      z = x ∨ z ∈ r.ready ++ r.line := by
    intro z hz
    rw [members_of_none rfl, ← List.append_assoc, List.mem_append, List.mem_singleton] at hz
    exact hz.symm
  refine { h with token_lt := fun z hz => ?_, fits := fun z hz => ?_, line_eq := ?_ }
  · rcases hmem z hz with rfl | hz
    · exact htoken
    · exact h.token_lt z hz
  · rcases hmem z hz with rfl | hz
    · exact hfit
    · exact h.fits z hz
  · rw [List.filterMap_append, ← h.line_eq]
    cases himg : x.image ch g <;> simp [himg]

theorem wait_left (h : Beside P ch g { r with turn := none } q) (himg : x.image ch g = none)
    (htoken : ∀ t ∈ x.token?, t < r.stage.forest.size) (hfit : x.Fits P ch g) :
    Beside P ch g { r with turn := none, line := r.line ++ [x] } q := by
  have hwait := wait (q := q) { h with turn_eq := rfl } htoken hfit
  rw [himg, Option.toList_none, List.append_nil] at hwait
  exact { hwait with turn_eq := h.turn_eq }

/-- A token that is not linked may be cancelled. -/
theorem cancel_left {token : Nat} (h : Beside P ch g { r with turn := none } q)
    (htoken : g token = none) : Beside P ch g (r.cancel token) q :=
  { h with
    linked := h.linked.cancel_left htoken
    token_lt := fun z hz t ht => by
      simpa [cancel, Stage.cancel] using h.token_lt z hz t ht }

theorem token_lt_started (h : ∀ z ∈ r.ready ++ r.line, ∀ t ∈ z.token?, t < r.stage.forest.size)
    (me : Nat) (recipe : Recipe) (deadline : Option Nat) (body : τ) :
    ∀ z ∈ (r.started me recipe deadline body).members, ∀ t ∈ z.token?,
      t < (r.started me recipe deadline body).stage.forest.size := by
  intro z hz t ht
  show t < (r.stage.opened recipe).forest.size
  rw [Stage.size_opened]
  rcases mem_members_started hz with rfl | ⟨span, rfl⟩ | hz
  · exact Nat.lt_succ_of_le (Nat.le_of_eq (Option.some_inj.1 ht).symm)
  · exact Nat.lt_succ_of_le (Nat.le_of_eq (Option.some_inj.1 ht).symm)
  · exact Nat.lt_succ_of_lt (h z hz t ht)

/-- A task that is not kept starts. -/
theorem start_left {me start : Nat} {recipe : Recipe} {body : τ}
    (h : Beside P ch g { r with turn := none } q)
    (hfit : (Member.later me start recipe body).Fits P ch g)
    (himg : (Member.later me start recipe body).image ch g = none)
    (hp : r.play m (.later me start recipe body) = some r') : Beside P ch g r' q := by
  have hkeep : ch.keep me = false := by
    cases hkeep : ch.keep me with
    | false => rfl
    | true => simp [Member.image, hkeep] at himg
  have hfresh : g r.stage.forest.size = none := h.linked.eq_none (Nat.le_refl _)
  have hdue : start ≤ r.stage.now := by simpa using isAble_of_play hp
  rw [play_later m r recipe body hdue] at hp
  obtain rfl := Option.some_inj.1 hp
  cases recipe.deadline? r.stage.now with
  | none => exact { h with }
  | some deadline =>
    refine { h with
      linked := h.linked.opened_left recipe
      token_lt := token_lt_started h.token_lt me recipe deadline body
      fits := fun z hz => ?_
      turn_eq := ?_
      ready_eq := ?_ }
    · rcases mem_members_started hz with rfl | ⟨span, rfl⟩ | hz
      · exact ⟨hfit, by rw [hfresh, hkeep]; rfl⟩
      · trivial
      · exact h.fits z hz
    · refine h.turn_eq.trans (Eq.symm ?_)
      exact Option.map_eq_none_iff.2 hfresh
    · show q.ready = (r.ready ++ _).filterMap _
      rw [List.filterMap_append, ← h.ready_eq]
      cases recipe.cancelAfter <;> simp [Member.image, hfresh]

/-- A task that is not kept goes on. -/
theorem step_left {me : Nat} {context : Context} {body : τ} (h : Beside P ch g r q)
    (hx : r.turn = some (.active me context body))
    (himg : (Member.active me context body).image ch g = none)
    (hp : r.play m (.active me context body) = some r') : Beside P ch g r' q := by
  have hself : Member.active me context body ∈ r.members :=
    members_of_turn hx ▸ List.mem_cons_self
  have hfit := h.fits _ hself
  have htoken : g context.token = none := Option.map_eq_none_iff.1 himg
  have hkeep : ch.keep me = false := by rw [← hfit.2, htoken]; rfl
  have hleft := h.leave_left hx himg
  rw [play_started fun p hp => (P.keeps h.inv_left hp).2.1] at hp
  obtain ⟨p, hstep, rfl⟩ := Option.map_eq_some_iff.1 hp
  obtain ⟨hinv, -, hown⟩ := P.keeps h.inv_left hstep
  have hview : P.view p.shared = P.view r.shared :=
    P.apart h.inv_left (hfit.1.trans hkeep) hstep
  cases hs : p.state with
  | inl body' =>
    have hmem : ∀ z ∈ Member.active me context body' :: (r.ready ++ r.line),
        z = .active me context body' ∨ z ∈ r.ready ++ r.line := fun z hz => List.mem_cons.1 hz
    refine { hleft with
      inv_left := hinv
      view_eq := h.view_eq.trans hview.symm
      token_lt := fun z hz => ?_
      fits := fun z hz => ?_
      turn_eq := hleft.turn_eq.trans (Option.map_eq_none_iff.2 htoken).symm
      endings_eq := by simpa [hs] using h.endings_eq }
    · rcases hmem z hz with rfl | hz
      · exact fun t ht => h.token_lt _ hself t ht
      · exact hleft.token_lt z hz
    · rcases hmem z hz with rfl | hz
      · exact ⟨(hown body' hs).trans hfit.1, hfit.2⟩
      · exact hleft.fits z hz
  | inr result =>
    exact { hleft with
      inv_left := hinv
      view_eq := h.view_eq.trans hview.symm
      endings_eq := by simpa [hs, List.filter_append, hkeep] using h.endings_eq }

/-- The turn of a member that is not kept leaves the kept ones as they are. -/
theorem play_left (h : Beside P ch g r q) (hx : r.turn = some x) (himg : x.image ch g = none)
    (hp : r.play m x = some r') : Beside P ch g r' q := by
  have hself : x ∈ r.members := members_of_turn hx ▸ List.mem_cons_self
  have hleft := h.leave_left hx himg
  cases x with
  | later me start recipe body => exact hleft.start_left (h.fits _ hself) himg hp
  | active me context body => exact h.step_left hx himg hp
  | cancelAfter token span =>
    have htoken : g token = none := Option.map_eq_none_iff.1 himg
    rw [play_cancelAfter] at hp
    obtain rfl := Option.some_inj.1 hp
    split
    · exact hleft.cancel_left htoken
    · exact hleft.wait_left (Option.map_eq_none_iff.2 htoken)
        (fun t ht => h.token_lt _ hself t ht) trivial
  | cancelAt token due =>
    have htoken : g token = none := Option.map_eq_none_iff.1 himg
    rw [play_cancelAt m r (by simpa using isAble_of_play hp)] at hp
    obtain rfl := Option.some_inj.1 hp
    exact hleft.cancel_left htoken

/-! ### Turns of kept members -/

theorem cancel_both {token u : Nat}
    (h : Beside P ch g { r with turn := none } { q with turn := none }) (hu : g token = some u) :
    Beside P ch g (r.cancel token) (q.cancel u) :=
  { h with
    linked := h.linked.cancel hu
    token_lt := fun z hz t ht => by
      simpa [cancel, Stage.cancel] using h.token_lt z hz t ht }

/-- A kept task starts, and its token is linked. -/
theorem start_both {me : Nat} {recipe : Recipe} {body : τ} (deadline : Option Nat)
    (h : Beside P ch g { r with turn := none } { q with turn := none })
    (hown : P.own (Stage.options recipe) body = ch.keep me) (hkeep : ch.keep me = true) :
    Beside P ch (Function.update g r.stage.forest.size (some q.stage.forest.size))
      (r.started me recipe deadline body) (q.started (ch.rank me) recipe deadline body) := by
  have himage : ∀ z ∈ r.ready ++ r.line,
      z.image ch (Function.update g r.stage.forest.size (some q.stage.forest.size)) =
        z.image ch g := fun z hz => Member.image_update (h.token_lt z hz)
  have hlink : Function.update g r.stage.forest.size (some q.stage.forest.size)
      r.stage.forest.size = some q.stage.forest.size := Function.update_self _ _ _
  refine { h with
    linked := h.linked.opened recipe
    token_lt := token_lt_started h.token_lt me recipe deadline body
    fits := fun z hz => ?_
    turn_eq := ?_
    ready_eq := ?_
    line_eq := ?_ }
  · rcases mem_members_started hz with rfl | ⟨span, rfl⟩ | hz
    · exact ⟨hown, by rw [hlink, hkeep]; rfl⟩
    · trivial
    · exact (h.fits z hz).update (h.token_lt z hz)
  · show some _ = (some _).bind _
    simp [Member.image]
  · show q.ready ++ _ = (r.ready ++ _).filterMap _
    rw [List.filterMap_append, h.ready_eq]
    congr 1
    · exact (List.filterMap_congr fun z hz => himage z (List.mem_append_left _ hz)).symm
    · cases recipe.cancelAfter <;> simp [Member.image]
  · exact h.line_eq.trans
      (List.filterMap_congr fun z hz => himage z (List.mem_append_right _ hz)).symm

/-- A kept task goes on in both. -/
theorem step_both {me u : Nat} {context : Context} {body : τ} (h : Beside P ch g r q)
    (hx : r.turn = some (.active me context body)) (hu : g context.token = some u)
    (hnow : q.stage.now = r.stage.now) (hp : r.play m (.active me context body) = some r') :
    ∃ q', q.play m (.active (ch.rank me) { context with token := u } body) = some q' ∧
      Beside P ch g r' q' ∧ q'.turn.isNone = r'.turn.isNone := by
  have hself : Member.active me context body ∈ r.members :=
    members_of_turn hx ▸ List.mem_cons_self
  have hfit := h.fits _ hself
  have hkeep : ch.keep me = true := by rw [← hfit.2, hu]; rfl
  have himg (body : τ) : (Member.active me context body).image ch g =
      some (.active (ch.rank me) { context with token := u } body) := by
    rw [Member.image, hu]
    rfl
  have hleft := h.leave hx
  rw [play_started fun p hp => (P.keeps h.inv_left hp).2.1] at hp
  obtain ⟨p, hstep, rfl⟩ := Option.map_eq_some_iff.1 hp
  have heq := h.step_eq hfit hu hnow
  rw [hstep, Option.map_some] at heq
  obtain ⟨p', hstep', hpp⟩ := Option.map_eq_some_iff.1 heq
  obtain ⟨hview, hstate⟩ := Prod.mk.inj hpp
  obtain ⟨hinv, -, hown⟩ := P.keeps h.inv_left hstep
  obtain ⟨hinv', -, -⟩ := P.keeps h.inv_right hstep'
  refine ⟨_, (play_started fun p hp => (P.keeps h.inv_right hp).2.1).trans
    (congrArg _ hstep'), ?_⟩
  dsimp only
  rw [hstate]
  cases hs : p.state with
  | inl body' =>
    have hmem : ∀ z ∈ Member.active me context body' :: (r.ready ++ r.line),
        z = .active me context body' ∨ z ∈ r.ready ++ r.line := fun z hz => List.mem_cons.1 hz
    refine ⟨{ hleft with
      inv_left := hinv
      inv_right := hinv'
      view_eq := hview
      token_lt := fun z hz => ?_
      fits := fun z hz => ?_
      turn_eq := (himg body').symm
      endings_eq := by simpa using h.endings_eq }, rfl⟩
    · rcases hmem z hz with rfl | hz
      · exact fun t ht => h.token_lt _ hself t ht
      · exact hleft.token_lt z hz
    · rcases hmem z hz with rfl | hz
      · exact ⟨(hown body' hs).trans hfit.1, hfit.2⟩
      · exact hleft.fits z hz
  | inr result =>
    refine ⟨{ hleft with
      inv_left := hinv
      inv_right := hinv'
      view_eq := hview
      endings_eq := ?_ }, rfl⟩
    rw [List.filter_append, told_append, told_append, h.endings_eq]
    simp [told, hkeep, hnow]

/-- The turn of a kept member is one in both. -/
theorem play_both (h : Beside P ch g r q) (hx : r.turn = some x) (himg : x.image ch g = some y)
    (hnow : q.stage.now = r.stage.now) (hp : r.play m x = some r') :
    ∃ q' g', q.play m y = some q' ∧ Beside P ch g' r' q' ∧
      q'.turn.isNone = r'.turn.isNone := by
  have hself : x ∈ r.members := members_of_turn hx ▸ List.mem_cons_self
  have hleft := h.leave hx
  cases x with
  | later me start recipe body =>
    obtain ⟨hkeep, rfl⟩ := Member.image_later himg
    have hdue : start ≤ r.stage.now := by simpa using isAble_of_play hp
    rw [play_later m r recipe body hdue] at hp
    obtain rfl := Option.some_inj.1 hp
    rw [play_later m q recipe body (hnow ▸ hdue), hnow]
    cases recipe.deadline? r.stage.now with
    | none => exact ⟨_, g, rfl, { hleft with }, rfl⟩
    | some deadline =>
      exact ⟨_, _, rfl, hleft.start_both deadline (h.fits _ hself) hkeep, rfl⟩
  | active me context body =>
    obtain ⟨u, hu, rfl⟩ := Member.image_active himg
    obtain ⟨q', hq', h', hturn⟩ := h.step_both hx hu hnow hp
    exact ⟨q', g, hq', h', hturn⟩
  | cancelAfter token span =>
    obtain ⟨u, hu, rfl⟩ := Option.map_eq_some_iff.1 himg
    rw [play_cancelAfter] at hp
    obtain rfl := Option.some_inj.1 hp
    refine ⟨_, g, play_cancelAfter m q u span, ?_⟩
    rw [hnow]
    split
    · exact ⟨hleft.cancel_both hu, rfl⟩
    · have hwait := hleft.wait (x := .cancelAt token (Nanos.wake r.stage.now span))
        (fun t ht => h.token_lt _ hself t ht) trivial
      rw [Member.image, hu] at hwait
      exact ⟨hwait, rfl⟩
  | cancelAt token due =>
    obtain ⟨u, hu, rfl⟩ := Option.map_eq_some_iff.1 himg
    have hdue : due ≤ r.stage.now := by simpa using isAble_of_play hp
    rw [play_cancelAt m r hdue] at hp
    obtain rfl := Option.some_inj.1 hp
    exact ⟨_, g, play_cancelAt m q (hnow ▸ hdue), hleft.cancel_both hu, rfl⟩

end Beside

end Run

end DriveDelta
