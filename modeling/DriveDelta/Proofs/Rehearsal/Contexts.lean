import DriveDelta.Rehearsal.Recipe

/-!
# Contexts and their tokens

A context is done for good once one of its tokens is cancelled or its deadline has passed.  The
contexts that recipes make have tokens that are below no other, so cancelling one of them leaves the
others as they are.

## What is here

* `Forest.isCancelled_cancel` and `Forest.isCancelled_add`: what is cancelled stays cancelled, with
  `Context.status_mono`;
* `Forest.Flat`, which says that no token is below another, and what cancelling does then;
* `Stage.make?_eq`, the context that a recipe makes.
-/

set_option autoImplicit false

namespace DriveDelta

/-! ## Contexts that are done -/

namespace Forest

theorem length_cancelIn (nodes : List TokenNode) (token : Nat) :
    (cancelIn nodes token).length = nodes.length := by
  induction nodes with
  | nil => rfl
  | cons n older ih =>
    rw [cancelIn]
    split
    · rfl
    · rw [List.length_cons, List.length_cons, ih]

theorem cancelledIn_cancelIn {nodes : List TokenNode} {token : Nat} (other : Nat)
    (h : cancelledIn nodes token = true) : cancelledIn (cancelIn nodes other) token = true := by
  induction nodes generalizing token with
  | nil => exact h
  | cons n older ih =>
    rw [cancelIn]
    split
    · rw [cancelledIn] at h ⊢
      split
      · rfl
      · rename_i htoken
        rwa [if_neg htoken] at h
    · rw [cancelledIn, length_cancelIn]
      rw [cancelledIn] at h
      split
      · rename_i htoken
        rw [if_pos htoken] at h
        cases hp : n.parent with
        | none => simpa [hp] using h
        | some parent =>
          simp only [hp, Option.map_some, Option.getD_some, Bool.or_eq_true] at h ⊢
          exact h.imp_right fun hc => ih hc
      · rename_i htoken
        rw [if_neg htoken] at h
        exact ih h

/-- Cancelling a token takes no cancellation back. -/
theorem isCancelled_cancel {f : Forest} {token : Nat} (other : Nat)
    (h : f.isCancelled token = true) : (f.cancel other).isCancelled token = true :=
  cancelledIn_cancelIn other h

theorem lt_of_cancelledIn {nodes : List TokenNode} {token : Nat}
    (h : cancelledIn nodes token = true) : token < nodes.length := by
  induction nodes with
  | nil => exact absurd h (by simp [cancelledIn])
  | cons n older ih =>
    rw [cancelledIn] at h
    rw [List.length_cons]
    split at h
    · omega
    · exact Nat.lt_succ_of_lt (ih h)

/-- A new token changes nothing for those that are there. -/
theorem isCancelled_add {f : Forest} {token : Nat} (parent : Option Nat)
    (h : f.isCancelled token = true) : (f.add parent).isCancelled token = true := by
  rw [isCancelled, add, cancelledIn, if_neg (Nat.ne_of_lt (lt_of_cancelledIn h))]
  exact h

theorem isCancelled_cancelAll {f : Forest} {token : Nat} (tokens : List Nat)
    (h : f.isCancelled token = true) : (tokens.foldl cancel f).isCancelled token = true := by
  induction tokens generalizing f with
  | nil => exact h
  | cons other tokens ih => exact ih (isCancelled_cancel other h)

end Forest

/-- A context that is done stays done while tokens are cancelled and time passes. -/
theorem Context.status_mono {c : Context} {f f' : Forest} {now now' : Nat}
    (hf : f.isCancelled c.token = true → f'.isCancelled c.token = true) (hnow : now ≤ now')
    (h : (c.status f now).isSome) : (c.status f' now').isSome := by
  unfold status at h ⊢
  by_cases hc' : f'.isCancelled c.token = true
  · rw [if_pos hc']
    rfl
  · rw [if_neg fun hc => hc' (hf hc)] at h
    rw [if_neg hc']
    cases hd : c.deadline with
    | none => simp [hd] at h
    | some d =>
      simp only [hd] at h ⊢
      split at h
      · rw [if_pos (by omega)]
        rfl
      · exact absurd h (by simp)

/-! ## Tokens that are below no other -/

namespace Forest

/-- No token is below another. -/
def Flat (f : Forest) : Prop := ∀ n ∈ f.nodes, n.parent = none

variable {f : Forest}

theorem Flat.add (h : f.Flat) : (f.add none).Flat := by
  rintro n (_ | ⟨_, hn⟩)
  · rfl
  · exact h n hn

theorem parent_of_mem_cancelIn {nodes : List TokenNode} {token : Nat} {n : TokenNode}
    (h : ∀ n ∈ nodes, n.parent = none) (hn : n ∈ cancelIn nodes token) : n.parent = none := by
  induction nodes with
  | nil => exact absurd hn (by simp [cancelIn])
  | cons n' older ih =>
    rw [List.forall_mem_cons] at h
    rw [cancelIn] at hn
    split at hn
    · rcases List.mem_cons.1 hn with rfl | hn
      · exact h.1
      · exact h.2 n hn
    · rcases List.mem_cons.1 hn with rfl | hn
      · exact h.1
      · exact ih h.2 hn

theorem Flat.cancel (h : f.Flat) (token : Nat) : (f.cancel token).Flat :=
  fun _ hn => parent_of_mem_cancelIn h hn

theorem cancelledIn_cancelIn_of_flat {nodes : List TokenNode} (h : ∀ n ∈ nodes, n.parent = none)
    (token other : Nat) : cancelledIn (cancelIn nodes other) token =
      (cancelledIn nodes token || decide (token = other ∧ other < nodes.length)) := by
  induction nodes with
  | nil => simp [cancelIn, cancelledIn]
  | cons n older ih =>
    rw [List.forall_mem_cons] at h
    rw [cancelIn, cancelledIn, h.1]
    split
    · -- the latest token is cancelled
      rename_i hother
      rw [cancelledIn]
      split
      · rename_i htoken
        simp [hother, htoken]
      · rename_i htoken
        simp [hother, htoken]
    · rename_i hother
      rw [cancelledIn, h.1, length_cancelIn, ih h.2]
      split
      · rename_i htoken
        simp [htoken, Ne.symm hother]
      · have hbound : other < older.length ↔ other < (n :: older).length := by
          rw [List.length_cons]
          omega
        exact congrArg _ (decide_eq_decide.2 (and_congr_right fun _ => hbound))

/-- Where no token is below another, cancelling one cancels no other. -/
theorem Flat.isCancelled_cancel (h : f.Flat) (token other : Nat) :
    (f.cancel other).isCancelled token =
      (f.isCancelled token || decide (token = other ∧ other < f.size)) :=
  cancelledIn_cancelIn_of_flat h token other

theorem isCancelled_of_le {token : Nat} (h : f.size ≤ token) : f.isCancelled token = false :=
  Bool.eq_false_iff.2 fun hc => absurd (lt_of_cancelledIn hc) (Nat.not_lt.2 h)

@[simp] theorem isCancelled_add_none (f : Forest) (token : Nat) :
    (f.add none).isCancelled token = f.isCancelled token := by
  by_cases htoken : token = f.size
  · rw [isCancelled_of_le (Nat.le_of_eq htoken.symm)]
    exact if_pos htoken
  · exact if_neg htoken

@[simp] theorem size_add (f : Forest) (parent : Option Nat) :
    (f.add parent).size = f.size + 1 := rfl

@[simp] theorem size_cancel (f : Forest) (token : Nat) : (f.cancel token).size = f.size :=
  length_cancelIn _ _

end Forest

/-! ## Contexts made from recipes -/

/-- The deadline that a recipe leads to, if it asks for one; none at all if that lies beyond the
clock. -/
def Recipe.deadline? (recipe : Recipe) (now : Nat) : Option (Option Nat) :=
  match recipe.timeout with
  | some d => (Nanos.after? now d).map some
  | none => some none

namespace Stage

/-- The stage with the token of a context that a recipe makes. -/
def opened (s : Stage) (recipe : Recipe) : Stage :=
  if recipe.cancelled then
    { s with forest := (s.forest.add none).cancel s.forest.size }
  else { s with forest := s.forest.add none }

@[simp] theorem now_opened (s : Stage) (recipe : Recipe) : (s.opened recipe).now = s.now := by
  rw [opened]
  split <;> rfl

@[simp] theorem size_opened (s : Stage) (recipe : Recipe) :
    (s.opened recipe).forest.size = s.forest.size + 1 := by
  rw [opened]
  split
  · exact Forest.size_cancel _ _
  · rfl

theorem isCancelled_opened {s : Stage} (recipe : Recipe) {token : Nat}
    (h : s.forest.isCancelled token = true) :
    (s.opened recipe).forest.isCancelled token = true := by
  rw [opened]
  split
  · exact Forest.isCancelled_cancel _ (Forest.isCancelled_add none h)
  · exact Forest.isCancelled_add none h

theorem make?_eq (s : Stage) (recipe : Recipe) :
    s.make? recipe = (recipe.deadline? s.now).map fun deadline =>
      (s.opened recipe, { token := s.forest.size, deadline, options := options recipe }) := by
  cases htimeout : recipe.timeout with
  | none =>
    simp only [make?, root, htimeout, Recipe.deadline?, opened, cancel]
    rfl
  | some d =>
    simp only [make?, root, htimeout, Recipe.deadline?, opened, cancel, Context.withTimeout?]
    cases Nanos.after? s.now d <;> rfl

end Stage

end DriveDelta
