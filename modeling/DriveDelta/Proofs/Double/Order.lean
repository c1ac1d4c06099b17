import DriveDelta.Double

/-!
# The order of doubles

Two doubles that are numbers compare as their ranks do, so that both zeros are equal and infinities
are the ends.  The larger and the smaller one of two doubles are bounds of those of them that are
numbers.

## What is here

* `Double.le_iff` and `Double.lt_iff`, with `Double.le_refl`, `Double.le_trans` and what follows for
  `Double.lt`;
* `Double.le_max_left`, `Double.le_max_right`, `Double.max_le` and `Double.min_le_right`, the bounds
  that the larger and the smaller one of two doubles are.
-/

set_option autoImplicit false

namespace DriveDelta.Double

variable {x y z : Double}

theorem le_iff :
    x.le y = true ↔ x.isNaN = false ∧ y.isNaN = false ∧ x.rank ≤ y.rank := by
  simp [le, and_assoc]

theorem lt_iff :
    x.lt y = true ↔ x.isNaN = false ∧ y.isNaN = false ∧ x.rank < y.rank := by
  simp [lt, and_assoc]

theorem le_refl (h : x.isNaN = false) : x.le x = true := le_iff.2 ⟨h, h, Int.le_refl _⟩

theorem le_trans (h : x.le y = true) (h' : y.le z = true) : x.le z = true := by
  rw [le_iff] at h h' ⊢
  exact ⟨h.1, h'.2.1, Int.le_trans h.2.2 h'.2.2⟩

theorem le_of_lt (h : x.lt y = true) : x.le y = true := by
  rw [lt_iff] at h
  exact le_iff.2 ⟨h.1, h.2.1, Int.le_of_lt h.2.2⟩

theorem lt_of_lt_of_le (h : x.lt y = true) (h' : y.le z = true) : x.lt z = true := by
  rw [lt_iff] at h ⊢
  rw [le_iff] at h'
  exact ⟨h.1, h'.2.1, Int.lt_of_lt_of_le h.2.2 h'.2.2⟩

theorem ne_of_lt (h : x.lt y = true) : x ≠ y := by
  rintro rfl
  exact Int.lt_irrefl _ (lt_iff.1 h).2.2

theorem not_lt_of_le (h : x.le y = true) : y.lt x = false :=
  Bool.eq_false_iff.2 fun hlt => Int.not_lt.2 (le_iff.1 h).2.2 (lt_iff.1 hlt).2.2

/-- Of two numbers one is not below the other. -/
theorem le_of_not_lt (hx : x.isNaN = false) (hy : y.isNaN = false) (h : x.lt y = false) :
    y.le x = true := by
  refine le_iff.2 ⟨hy, hx, Int.not_lt.1 fun hlt => ?_⟩
  rw [lt_iff.2 ⟨hx, hy, hlt⟩] at h
  cases h

/-- The larger one is one of the two; it is no number only if neither is. -/
theorem max_cases (x y : Double) :
    (x.isNaN = true ∧ x.max y = y) ∨ (x.isNaN = false ∧ y.isNaN = true ∧ x.max y = x) ∨
      (x.isNaN = false ∧ y.isNaN = false ∧
        (x.lt y = true ∧ x.max y = y ∨ x.lt y = false ∧ x.max y = x)) := by
  rw [Double.max]
  cases x.isNaN <;> cases y.isNaN <;> cases x.lt y <;> simp

theorem max_eq_or (x y : Double) : x.max y = x ∨ x.max y = y := by
  rcases max_cases x y with ⟨-, heq⟩ | ⟨-, -, heq⟩ | ⟨-, -, ⟨-, heq⟩ | ⟨-, heq⟩⟩
  · exact .inr heq
  · exact .inl heq
  · exact .inr heq
  · exact .inl heq

theorem le_max_left (h : x.isNaN = false) : x.le (x.max y) = true := by
  rcases max_cases x y with ⟨hx, -⟩ | ⟨-, -, heq⟩ | ⟨-, -, ⟨hlt, heq⟩ | ⟨-, heq⟩⟩
  · simp [h] at hx
  · rw [heq]
    exact le_refl h
  · rw [heq]
    exact le_of_lt hlt
  · rw [heq]
    exact le_refl h

theorem le_max_right (h : y.isNaN = false) : y.le (x.max y) = true := by
  rcases max_cases x y with ⟨-, heq⟩ | ⟨-, hy, -⟩ | ⟨hx, -, ⟨-, heq⟩ | ⟨hlt, heq⟩⟩
  · rw [heq]
    exact le_refl h
  · simp [h] at hy
  · rw [heq]
    exact le_refl h
  · rw [heq]
    exact le_of_not_lt hx h hlt

/-- What is a bound of both is a bound of the larger one. -/
theorem max_le (hx : x.le z = true) (hy : y.le z = true) : (x.max y).le z = true := by
  rcases max_cases x y with ⟨-, heq⟩ | ⟨-, -, heq⟩ | ⟨-, -, ⟨-, heq⟩ | ⟨-, heq⟩⟩ <;>
    rwa [heq]

theorem min_le_right (h : y.isNaN = false) : (x.min y).le y = true := by
  rw [Double.min]
  split
  · exact le_refl h
  · rename_i hx
    rw [if_neg (by simp [h])]
    split
    · exact le_refl h
    · rename_i hlt
      exact le_of_not_lt h (by simpa using hx) (by simpa using hlt)

/-- The smaller one of two numbers is a number. -/
theorem isNaN_min (hx : x.isNaN = false) (hy : y.isNaN = false) : (x.min y).isNaN = false := by
  rw [Double.min, if_neg (by simp [hx]), if_neg (by simp [hy])]
  split <;> assumption

end DriveDelta.Double
