import DriveDelta.Proofs.Rehearsal.Moves

/-!
# Rehearsals of one task after the other

Between two tasks a rehearsal is at rest.  A task that is started then is alone, and takes the next
number.

## What is here

* `Run.Rests`, a rehearsal in which nothing is going on;
* `Run.tasks_of_advance`: the steps of a rehearsal add no task;
* `Recipe.Endless` and `Recipe.contextIn`, a recipe for a context that is never done, and
  `Run.Rests.start`, a task that is started with one.
-/

set_option autoImplicit false

namespace DriveDelta

/-! ## Recipes for contexts that are never done -/

/-- The context that a recipe makes is never done. -/
def Recipe.Endless (recipe : Recipe) : Prop :=
  recipe.timeout = none ∧ recipe.cancelled = false ∧ recipe.cancelAfter = none

/-- The context that such a recipe makes next. -/
def Recipe.contextIn (recipe : Recipe) (forest : Forest) : Context :=
  { token := forest.size, options := Stage.options recipe }

theorem Recipe.endless_contextIn (recipe : Recipe) (forest : Forest) :
    (recipe.contextIn forest).Endless (forest.add none) := by
  intro now
  have hcancelled : (forest.add none).isCancelled forest.size = false := by
    rw [Forest.isCancelled_add_none]
    exact Forest.isCancelled_of_le (Nat.le_refl _)
  simp [Context.status, contextIn, hcancelled]

namespace Run

variable {σ τ ρ ε : Type} {m : Machine σ τ ρ} {r r' : Run σ τ ρ}

/-! ## Rest -/

/-- Nothing is going on, and nothing is to come. -/
structure Rests (r : Run σ τ ρ) : Prop where
  turn_eq : r.turn = none
  ready_eq : r.ready = []
  line_eq : r.line = []

theorem Rests.isOver (h : r.Rests) : r.isOver = true := by
  simp [Run.isOver, h.turn_eq, h.ready_eq, h.line_eq]

theorem Rests.advance_eq (h : r.Rests) (m : Machine σ τ ρ) : r.advance m = none := by
  simp [advance, h.turn_eq, h.isOver]

/-! ## No task is added -/

/-- A step of a rehearsal adds no task. -/
theorem tasks_of_advance (h : r.advance m = some r') : r'.tasks = r.tasks := by
  cases moves_of_advance h with
  | played _ hp => exact tasks_of_play hp
  | regrouped _ h' => exact h'.tasks_eq

theorem Passes.tasks_eq {look : Run σ τ ρ → List ε} {told : List ε} (h : Passes m look r told r') :
    r'.tasks = r.tasks := by
  induction h with
  | refl => rfl
  | head hs _ ih => exact ih.trans (tasks_of_advance hs)

/-! ## One more task -/

/-- A task that is started while nothing is going on is alone. -/
theorem Rests.start (h : r.Rests) (m : Machine σ τ ρ) {recipe : Recipe} (hr : recipe.Endless)
    (body : τ) :
    ∃ r', ({ r with endings := [] }.start recipe body).advance m = some r' ∧
      r'.tasks = r.tasks + 1 ∧
      r'.Alone r.tasks (recipe.contextIn r.stage.forest) (r.stage.forest.add none) r.stage.now
        r.shared body := by
  obtain ⟨htimeout, hcancelled, hafter⟩ := hr
  have hdeadline : recipe.deadline? r.stage.now = some none := by
    rw [Recipe.deadline?, htimeout]
  have hopened : r.stage.opened recipe = ⟨r.stage.now, r.stage.forest.add none⟩ := by
    rw [Stage.opened, if_neg (by simp [hcancelled])]
  let q : Run σ τ ρ := { r with endings := [] }.start recipe body
  have hplay : q.advance m = some (q.started r.tasks recipe none body) := by
    have hturn : q.turn = some (.later r.tasks q.stage.now recipe body) := rfl
    have hlater := @play_later _ _ _ m q r.tasks _ recipe body (Nat.le_refl q.stage.now)
    rw [show q.stage.now = r.stage.now from rfl, hdeadline] at hlater
    rw [advance_of_turn hturn]
    exact congrArg some (congrArg (Option.getD · _) hlater)
  refine ⟨_, hplay, rfl, rfl, rfl, ?_, h.line_eq, hopened, rfl, rfl⟩
  have hnobody : q.ready = [] := h.ready_eq
  simp [started, hafter, hnobody]

end Run

end DriveDelta
