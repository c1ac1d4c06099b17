/-!
# Waiting in line

A lock is a line of those who hold it or want it, in the order in which they came.  Who wants to
write holds the lock when first in line; who wants to read, when only readers are before.  Leaving
the line gives the lock back, or the place in the line up.

## What is here

* `Queue`, `Queue.join`, `Queue.leave`;
* `Queue.holds`, whether a member of the line has the lock, and `Queue.isFree`;
* `Queue.holds_iff`: a writer has it when first in line, a reader when only readers are before.
-/

set_option autoImplicit false

namespace DriveDelta

/-- What the lock is wanted for. -/
inductive Access where
  | read | write
  deriving DecidableEq, Repr, Inhabited

/-- The members of a line, by number, with what they want. -/
abbrev Queue := List (Nat × Access)

namespace Queue

def join (q : Queue) (member : Nat) (a : Access) : Queue := q ++ [(member, a)]

def leave (q : Queue) (member : Nat) : Queue := q.filter (·.1 != member)

/-- Whether nobody holds or wants the lock. -/
def isFree (q : Queue) : Bool := q.isEmpty

/-- Whether a member has the lock, when only readers are before this part of the line. -/
def holdsBehindReaders : Queue → Nat → Bool
  | [], _ => false
  | (m, .read) :: rest, member => m == member || holdsBehindReaders rest member
  | (_, .write) :: _, _ => false

/-- Whether a member of the line has the lock. -/
def holds : Queue → Nat → Bool
  | (m, .write) :: _, member => m == member
  | q, member => holdsBehindReaders q member

theorem mem_join {q : Queue} {m : Nat} {a : Access} {x : Nat × Access} :
    x ∈ q.join m a ↔ x ∈ q ∨ x = (m, a) := by
  rw [join, List.mem_append, List.mem_singleton]

theorem mem_leave {q : Queue} {m : Nat} {x : Nat × Access} :
    x ∈ q.leave m ↔ x ∈ q ∧ x.1 ≠ m := by
  rw [leave, List.mem_filter, bne_iff_ne]

/-- Who is not in the line does not change it by leaving. -/
theorem leave_eq_self {q : Queue} {m : Nat} (h : ∀ x ∈ q, x.1 ≠ m) : q.leave m = q :=
  List.filter_eq_self.2 fun x hx => bne_iff_ne.2 (h x hx)

theorem holdsBehindReaders_iff {q : Queue} {m : Nat} :
    holdsBehindReaders q m = true ↔
      ∃ before after, q = before ++ (m, .read) :: after ∧ ∀ x ∈ before, x.2 = .read := by
  induction q with
  | nil => simp [holdsBehindReaders]
  | cons x rest ih =>
    obtain ⟨k, a⟩ := x
    cases a with
    | write =>
      simp only [holdsBehindReaders, Bool.false_eq_true, false_iff]
      rintro ⟨before, after, h, hr⟩
      cases before with
      | nil => simp at h
      | cons y before =>
        have hy : y = (k, .write) := by simpa using (List.cons.inj h).1.symm
        have := hr y List.mem_cons_self
        simp [hy] at this
    | read =>
      simp only [holdsBehindReaders, Bool.or_eq_true, beq_iff_eq, ih]
      constructor
      · rintro (rfl | ⟨before, after, rfl, hr⟩)
        · exact ⟨[], rest, rfl, by simp⟩
        · refine ⟨(k, .read) :: before, after, rfl, ?_⟩
          intro x hx
          rcases List.mem_cons.1 hx with rfl | hx
          · rfl
          · exact hr x hx
      · rintro ⟨before, after, h, hr⟩
        cases before with
        | nil => exact .inl (by simpa using congrArg Prod.fst (List.cons.inj h).1)
        | cons y before =>
          exact .inr ⟨before, after, (List.cons.inj h).2, fun x hx =>
            hr x (List.mem_cons_of_mem _ hx)⟩

/-- A writer has the lock when first in line, a reader when only readers are before. -/
theorem holds_iff {q : Queue} {m : Nat} :
    q.holds m = true ↔
      q.head? = some (m, .write) ∨
        ∃ before after, q = before ++ (m, .read) :: after ∧ ∀ x ∈ before, x.2 = .read := by
  rw [← holdsBehindReaders_iff]
  cases q with
  | nil => simp [holds]
  | cons x rest =>
    obtain ⟨k, a⟩ := x
    cases a <;> simp [holds, holdsBehindReaders]

end Queue

end DriveDelta
