import DriveDelta.Config.Basic
import DriveDelta.Proofs.Retry.Pauses

/-!
# Budgets that configurations stand for

The shortest pause of a configuration is a double, and so may be no number at all, or no span that
can be written down.  The budget made of it is ordered all the same: its shortest pause is not
longer than its longest, and each pause lies between the two and is not shorter than the one before.

## What is here

* `RetryBudget.Ordered`, a budget in order, with `RetryBudget.Ordered.le_backoff`,
  `RetryBudget.backoff_mono` and `RetryBudget.backoff_le`, which say where its pauses lie, and
  `RetryBudget.lt_and_le_of_again`, which says so of any pause that the budget asks for;
* `RetryConfig.ordered_toBudget` and, in so many words, `RetryConfig.toBudget_in_order`.
-/

set_option autoImplicit false

namespace DriveDelta

/-- A 64-bit number of seconds can be written down. -/
theorem Nanos.ofSeconds_le_longest {n : Nat} (h : n < 2 ^ 64) : ofSeconds n ≤ longest := by
  have hlast : n ≤ 0xFFFFFFFFFFFFFFFF := Nat.le_of_lt_succ h
  exact (Nat.mul_le_mul_right second hlast).trans (Nat.le_add_right _ _)

/-! ## Budgets in order -/

namespace RetryBudget

/-- A budget of at least one attempt, of which each has a second at least, and whose shortest pause
is not longer than the longest. -/
structure Ordered (b : RetryBudget) : Prop where
  attempts : 1 ≤ b.maxAttempts
  pauses : b.minBackoff ≤ b.maxBackoff
  timeout : Nanos.second ≤ b.perCallTimeout

variable {b : RetryBudget}

theorem backoff_le (b : RetryBudget) (attempt : Nat) : b.backoff attempt ≤ b.maxBackoff :=
  Nat.min_le_right _ _

/-- Later pauses are not shorter.  The doubling that is cut off only makes them alike. -/
theorem backoff_mono (hb : b.maxBackoff ≤ Nanos.longest) {m n : Nat} (h : m ≤ n) :
    b.backoff m ≤ b.backoff n := by
  rw [backoff_eq hb, backoff_eq hb]
  have hexponent : min (m - 1) lastDoubling ≤ min (n - 1) lastDoubling := by omega
  have hpow : 2 ^ min (m - 1) lastDoubling ≤ 2 ^ min (n - 1) lastDoubling :=
    Nat.pow_le_pow_right (by decide) hexponent
  have := Nat.mul_le_mul_left b.minBackoff hpow
  omega

theorem Ordered.le_backoff (h : b.Ordered) (hb : b.maxBackoff ≤ Nanos.longest) (attempt : Nat) :
    b.minBackoff ≤ b.backoff attempt := by
  rw [backoff_eq hb]
  exact Nat.le_min.2 ⟨Nat.le_mul_of_pos_right _ (Nat.two_pow_pos _), h.pauses⟩

/-- Whatever an attempt ended with, a pause follows only while attempts are left, and no pause is
longer than the longest, not even one that the server asks for. -/
theorem lt_and_le_of_again {attempt pause : Nat} {d : Decision}
    (h : b.decide attempt d = .again pause) : attempt < b.maxAttempts ∧ pause ≤ b.maxBackoff := by
  rw [decide.eq_def] at h
  split at h
  · cases h
  · rename_i hleft
    refine ⟨Nat.not_le.1 hleft, ?_⟩
    split at h
    · cases h
    · cases h
    · cases h
      exact Nat.zero_le _
    · cases h
      exact Nat.min_le_right _ _
    · cases h
      exact b.backoff_le attempt

end RetryBudget

/-! ## Configurations -/

namespace RetryConfig

/-- Nothing is assumed of the shortest pause: what is no span is replaced before it is compared. -/
theorem ordered_toBudget (c : RetryConfig) : c.toBudget.Ordered where
  attempts := Nat.le_max_right _ _
  pauses := Nat.min_le_right _ _
  timeout := by
    simp only [toBudget, Nanos.ofSeconds, Nanos.second]
    omega

/-- A longest pause of 64 bits can be written down. -/
theorem maxBackoff_toBudget_le {c : RetryConfig} (h : c.maxBackoffSeconds < 2 ^ 64) :
    c.toBudget.maxBackoff ≤ Nanos.longest := Nanos.ofSeconds_le_longest h

/-- **Any configuration gives an ordered budget.**  There is at least one attempt, and it has a
second at least.  The pauses after the attempts begin at the shortest one, never get shorter and
never exceed the longest, and whatever pause the budget asks for keeps to that limit and comes
before the last attempt. -/
theorem toBudget_in_order (c : RetryConfig) (hc : c.maxBackoffSeconds < 2 ^ 64) :
    1 ≤ c.toBudget.maxAttempts ∧ c.toBudget.minBackoff ≤ c.toBudget.maxBackoff ∧
      Nanos.ofSeconds 1 ≤ c.toBudget.perCallTimeout ∧
      (∀ n, 1 ≤ n → c.toBudget.minBackoff ≤ c.toBudget.backoff n ∧
        c.toBudget.backoff n ≤ c.toBudget.backoff (n + 1) ∧
        c.toBudget.backoff (n + 1) ≤ c.toBudget.maxBackoff) ∧
      ∀ (n : Nat) (d : Decision) (pause : Nat), c.toBudget.decide n d = .again pause →
        pause ≤ c.toBudget.maxBackoff ∧ n < c.toBudget.maxAttempts := by
  have hordered := c.ordered_toBudget
  have hlongest := maxBackoff_toBudget_le hc
  refine ⟨hordered.attempts, hordered.pauses, hordered.timeout, fun n _ => ⟨?_, ?_, ?_⟩,
    fun n d pause hagain => ?_⟩
  · exact hordered.le_backoff hlongest n
  · exact RetryBudget.backoff_mono hlongest (Nat.le_succ n)
  · exact RetryBudget.backoff_le _ _
  · exact (RetryBudget.lt_and_le_of_again hagain).symm

/-- No time for an attempt, a shortest pause that is infinite, and the longest of 64 bits. -/
def unreasonable : RetryConfig := ⟨3, .infinity, 0xFFFFFFFFFFFFFFFF, 0⟩

theorem toBudget_in_order_unreasonable :
    unreasonable.maxBackoffSeconds < 2 ^ 64 ∧
      unreasonable.toBudget.minBackoff = Nanos.ofSeconds 0xFFFFFFFFFFFFFFFF ∧
      unreasonable.toBudget.minBackoff ≤ unreasonable.toBudget.backoff 40 ∧
      unreasonable.toBudget.decide 2 (.retryAfter none) =
        .again (Nanos.ofSeconds 0xFFFFFFFFFFFFFFFF) ∧
      2 < unreasonable.toBudget.maxAttempts := by
  have hfits : unreasonable.maxBackoffSeconds < 2 ^ 64 := by decide
  have hagain : unreasonable.toBudget.decide 2 (.retryAfter none) =
      .again (Nanos.ofSeconds 0xFFFFFFFFFFFFFFFF) := by decide +kernel
  obtain ⟨-, -, -, hpauses, hdecide⟩ := toBudget_in_order unreasonable hfits
  exact ⟨hfits, by decide +kernel, (hpauses 40 (by decide)).1, hagain, (hdecide _ _ _ hagain).2⟩

end RetryConfig

end DriveDelta
