import Mathlib.Logic.Function.Basic
import DriveDelta.Proofs.Calls.Steps
import DriveDelta.Proofs.Rehearsal.Contexts

/-!
# Traffic

Traffic is one limiter with all the calls that are ever made over it, taking their turns in any
order.  Nothing is said about who gets the next turn, what the answers are and when they come, or
who else draws from the pools.  Contexts are derived and cancelled at any time, also by whoever
gives an answer while giving it, and a context is done when its deadline has passed.  Whatever holds
of all traffic holds under every order of turns, every script, and every time of cancellation.

## What is here

* `Traffic` and `Traffic.Move`, `Traffic.step`, and `Traffic.run`, a run of moves, with
  `Traffic.run_induction`;
* `Traffic.step_cases`: a move is a step of one call, or leaves all calls where they are; by
  `Traffic.exists_step` a call is given in its step what the move brings;
* `Traffic.status_mono`: a context that is done stays done.
-/

set_option autoImplicit false

namespace DriveDelta

/-! ## Traffic -/

/-- A limiter and the calls that are made over it, which are numbered. -/
structure Traffic (α : Type) where
  limiter : Limiter α
  now : Nat := 0
  forest : Forest := {}
  /-- Where each call stands; those that are still to be made are before their first attempt. -/
  phase : Nat → Call.Phase := fun _ => Call.start
  /-- What the calls did, in order. -/
  trace : List (Nat × Call.Effect α) := []

namespace Call.Phase

/-- Whether a call waits for a credential. -/
def awaitsCredential : Phase → Bool
  | .authorizing .. => true
  | _ => false

/-- Whether a call waits for a response. -/
def awaitsResponse : Phase → Bool
  | .exchanging .. => true
  | _ => false

end Call.Phase

namespace Traffic

/-- What may happen next. -/
inductive Move where
  /-- A call gets its turn, and no answer has come in for it. -/
  | turn (i : Nat)
  /-- A call is given a credential, or is refused one; tokens may be cancelled just before. -/
  | credential (i : Nat) (answer : Except TransportError String) (tokens : List Nat)
  /-- A call is given a response, or there is none; tokens may be cancelled just before. -/
  | response (i : Nat) (answer : Call.Outcome) (tokens : List Nat)
  /-- Time passes. -/
  | pass (span : Nat)
  /-- A token is cancelled. -/
  | cancel (token : Nat)
  /-- A token is made. -/
  | derive (parent : Option Nat)
  /-- Somebody else tries to take tokens. -/
  | draw (c : ServiceClass) (k : PoolKind) (cost : Nat)
  /-- Somebody else passes on an observation. -/
  | feed (c : ServiceClass) (f : Feedback)

namespace Move

/-- The call that makes the move. -/
def call? : Move → Option Nat
  | turn i | credential i .. | response i .. => some i
  | _ => none

/-- What a move brings to the call that makes it; `after` is the status of its context then. -/
def incoming (after : Option CancelReason) : Move → Call.Incoming
  | credential _ answer _ => .credential answer after
  | response _ answer _ => .response answer after
  | _ => .nothing

end Move

variable {α : Type}

/-- The status of the context of a call. -/
def status (s : Traffic α) (calls : Nat → Call) (i : Nat) : Option CancelReason :=
  (calls i).context.status s.forest s.now

/-- The traffic after a step of a call. -/
def after (s : Traffic α) (i : Nat) (forest : Forest) (r : Call.Step α) : Traffic α :=
  { s with
    limiter := r.limiter
    forest
    phase := Function.update s.phase i r.phase
    trace := s.trace ++ r.effects.map (i, ·) }

/-- What a call did, in order. -/
def effects (s : Traffic α) (i : Nat) : List (Call.Effect α) :=
  s.trace.filterMap fun e => if e.1 = i then some e.2 else none

/-- What a call has begun. -/
def begun (s : Traffic α) (i : Nat) : List (Call.Effect α) := (s.effects i).filter (·.begins)

section Frames

variable {s : Traffic α} {i j : Nat} {forest : Forest} {r : Call.Step α}

theorem effects_after_self : (s.after i forest r).effects i = s.effects i ++ r.effects := by
  have hself : (r.effects.map (i, ·)).filterMap
      (fun e : Nat × Call.Effect α => if e.1 = i then some e.2 else none) = r.effects := by
    rw [List.filterMap_map]
    exact (List.filterMap_congr fun e _ => if_pos rfl).trans List.filterMap_some
  rw [effects, after, List.filterMap_append, hself]
  rfl

theorem effects_after_of_ne (h : j ≠ i) : (s.after i forest r).effects j = s.effects j := by
  have hother : (r.effects.map (i, ·)).filterMap
      (fun e : Nat × Call.Effect α => if e.1 = j then some e.2 else none) = [] := by
    rw [List.filterMap_map, List.filterMap_eq_nil_iff]
    exact fun e _ => if_neg h.symm
  rw [effects, after, List.filterMap_append, hother, List.append_nil]
  rfl

@[simp] theorem phase_after_self : (s.after i forest r).phase i = r.phase :=
  Function.update_self ..

theorem phase_after_of_ne (h : j ≠ i) : (s.after i forest r).phase j = s.phase j :=
  Function.update_of_ne h ..

end Frames

variable [Number α]

/-- A step of a call; none if it has to go on waiting. -/
def play (calls : Nat → Call) (s : Traffic α) (i : Nat) (forest : Forest)
    (incoming : Call.Incoming) : Option (Traffic α) :=
  ((calls i).step s.limiter s.now (s.status calls i) incoming (s.phase i)).map (s.after i forest)

/-- One move; none if it cannot be made.  Nobody answers a call whose context is done. -/
def step (calls : Nat → Call) (s : Traffic α) : Move → Option (Traffic α)
  | .turn i => s.play calls i s.forest .nothing
  | .credential i answer tokens =>
    let forest := tokens.foldl Forest.cancel s.forest
    if s.status calls i = none ∧ (s.phase i).awaitsCredential then
      s.play calls i forest (.credential answer ((calls i).context.status forest s.now))
    else none
  | .response i answer tokens =>
    let forest := tokens.foldl Forest.cancel s.forest
    if s.status calls i = none ∧ (s.phase i).awaitsResponse then
      s.play calls i forest (.response answer ((calls i).context.status forest s.now))
    else none
  | .pass span => some { s with now := s.now + span }
  | .cancel token => some { s with forest := s.forest.cancel token }
  | .derive parent => some { s with forest := s.forest.add parent }
  | .draw c k cost => some { s with limiter := (s.limiter.take c k cost s.now).1 }
  | .feed c f => some { s with limiter := (s.limiter.feed c f s.now).1 }

/-- Moves one after the other. -/
def run (calls : Nat → Call) : Traffic α → List Move → Option (Traffic α)
  | s, [] => some s
  | s, m :: ms =>
    match s.step calls m with
    | some s' => run calls s' ms
    | none => none

variable {calls : Nat → Call}

/-- What holds at first, and is kept by each move, holds after all of them. -/
theorem run_induction {P : Traffic α → Prop} {s s' : Traffic α} {ms : List Move}
    (h : s.run calls ms = some s') (h₀ : P s)
    (hstep : ∀ (m : Move) (t t' : Traffic α), P t → t.step calls m = some t' → P t') : P s' := by
  induction ms generalizing s with
  | nil =>
    rw [run, Option.some_inj] at h
    exact h ▸ h₀
  | cons m ms ih =>
    rw [run] at h
    split at h
    · rename_i t ht
      exact ih h (hstep m s t h₀ ht)
    · exact absurd h (by simp)

/-- A move of a call is one of its steps, and every other move leaves all calls where they are. -/
theorem step_cases {s s' : Traffic α} {m : Move} (h : s.step calls m = some s') :
    (∃ i forest incoming r, m.call? = some i ∧ s' = s.after i forest r ∧
      (∀ token, s.forest.isCancelled token = true → forest.isCancelled token = true) ∧
      (calls i).step s.limiter s.now (s.status calls i) incoming (s.phase i) = some r) ∨
    m.call? = none ∧ s'.phase = s.phase ∧ s'.trace = s.trace := by
  have hplay {i : Nat} {forest : Forest} {incoming : Call.Incoming} (hm : m.call? = some i)
      (hf : ∀ token, s.forest.isCancelled token = true → forest.isCancelled token = true)
      (hp : s.play calls i forest incoming = some s') :
      ∃ i forest incoming r, m.call? = some i ∧ s' = s.after i forest r ∧
        (∀ token, s.forest.isCancelled token = true → forest.isCancelled token = true) ∧
        (calls i).step s.limiter s.now (s.status calls i) incoming (s.phase i) = some r := by
    obtain ⟨r, hr, rfl⟩ := Option.map_eq_some_iff.1 hp
    exact ⟨i, forest, incoming, r, hm, rfl, hf, hr⟩
  cases m with
  | turn i => exact .inl (hplay rfl (fun _ hc => hc) h)
  | credential i answer tokens | response i answer tokens =>
    simp only [step] at h
    split at h
    · exact .inl (hplay rfl (fun _ => Forest.isCancelled_cancelAll tokens) h)
    · exact absurd h (by simp)
  | _ =>
    obtain rfl := Option.some_inj.1 h
    exact .inr ⟨rfl, rfl, rfl⟩

/-- A move of a call is one of its steps, in which it is given what the move brings. -/
theorem exists_step {s s' : Traffic α} {m : Move} {i : Nat} (hm : m.call? = some i)
    (h : s.step calls m = some s') :
    ∃ forest after r, s' = s.after i forest r ∧
      (calls i).step s.limiter s.now (s.status calls i) (m.incoming after) (s.phase i) =
        some r := by
  cases m with
  | turn j =>
    obtain rfl := Option.some_inj.1 hm
    obtain ⟨r, hr, rfl⟩ := Option.map_eq_some_iff.1 h
    exact ⟨_, none, r, rfl, hr⟩
  | credential j answer tokens | response j answer tokens =>
    obtain rfl := Option.some_inj.1 hm
    simp only [step] at h
    split at h
    · obtain ⟨r, hr, rfl⟩ := Option.map_eq_some_iff.1 h
      exact ⟨_, _, r, rfl, hr⟩
    · exact absurd h (by simp)
  | _ => exact absurd hm (by simp [Move.call?])

/-- A context that is done stays done. -/
theorem status_mono {s s' : Traffic α} {m : Move} {i : Nat} (h : s.step calls m = some s')
    (hdone : (s.status calls i).isSome) : (s'.status calls i).isSome := by
  rcases step_cases h with ⟨j, forest, incoming, r, -, rfl, hforest, -⟩ | ⟨hm, -, -⟩
  · exact Context.status_mono (hforest _) (Nat.le_refl _) hdone
  · cases m with
    | turn | credential | response => exact absurd hm (by simp [Move.call?])
    | pass span =>
      obtain rfl := Option.some_inj.1 h
      exact Context.status_mono id (Nat.le_add_right _ _) hdone
    | cancel token =>
      obtain rfl := Option.some_inj.1 h
      exact Context.status_mono (Forest.isCancelled_cancel token) (Nat.le_refl _) hdone
    | derive parent =>
      obtain rfl := Option.some_inj.1 h
      exact Context.status_mono (Forest.isCancelled_add parent) (Nat.le_refl _) hdone
    | draw | feed =>
      obtain rfl := Option.some_inj.1 h
      exact hdone

end Traffic

end DriveDelta
