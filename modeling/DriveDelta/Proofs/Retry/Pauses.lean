import DriveDelta.Retry.Budget
import DriveDelta.Proofs.Calls.Reference
import DriveDelta.Proofs.Text.Numerals

/-!
# How long the pause between two attempts is

The pause after an attempt either grows with the number of attempts made, or is what the server has
asked for.  Both have a limit besides the longest pause of the budget.  A growing pause doubles
sixteen times and no more, and a hint is understood up to the largest 64-bit number of seconds; what
lies beyond is no hint at all.

## What is here

* `RetryBudget.doubling`, the pause of a budget that never stops doubling;
  `RetryBudget.backoff_add_one` says how one pause follows from the one before, and
  `RetryBudget.backoff_eq_doubling_iff` when the two sequences agree;
* `Headers.First`, the first header of a name, and `Response.Hints`, a response that calls for a
  pause and says how long;
* `RetryBudget.decide_of_hints`: what the budget makes of such a response, for any numeral.
-/

set_option autoImplicit false

namespace DriveDelta

/-! ## A growing pause -/

namespace RetryBudget

/-- The pause that doubles with each attempt, up to the longest of the budget. -/
def doubling (b : RetryBudget) (attempt : Nat) : Nat :=
  min (b.minBackoff * 2 ^ (attempt - 1)) b.maxBackoff

section Growth

variable {b : RetryBudget} (hb : b.maxBackoff ≤ Nanos.longest)

include hb

/-- Spans that would be too long to write down do not show: the longest pause is shorter. -/
theorem backoff_eq (attempt : Nat) :
    b.backoff attempt = min (b.minBackoff * 2 ^ min (attempt - 1) lastDoubling) b.maxBackoff := by
  rw [backoff, Nanos.times, Nat.pow_eq, Nat.min_assoc, Nat.min_eq_right hb]

theorem backoff_one : b.backoff 1 = min b.minBackoff b.maxBackoff := by
  simp [backoff_eq hb]

/-- One pause is twice the one before, or the longest of the budget, as long as the pauses double;
then they are all alike. -/
theorem backoff_add_one {attempt : Nat} (hattempt : 1 ≤ attempt) :
    b.backoff (attempt + 1) =
      if attempt ≤ lastDoubling then min (2 * b.backoff attempt) b.maxBackoff
      else b.backoff attempt := by
  simp only [backoff_eq hb, Nat.add_sub_cancel]
  split
  next hle =>
    have hbefore : attempt - 1 ≤ lastDoubling := by omega
    have hpow : 2 ^ attempt = 2 * 2 ^ (attempt - 1) := by
      rw [← Nat.pow_succ', Nat.succ_eq_add_one, Nat.sub_add_cancel hattempt]
    rw [Nat.min_eq_left hle, Nat.min_eq_left hbefore, hpow, Nat.mul_left_comm]
    omega
  next hlt =>
    have hlast : lastDoubling ≤ attempt ∧ lastDoubling ≤ attempt - 1 := by omega
    rw [Nat.min_eq_right hlast.1, Nat.min_eq_right hlast.2]

theorem backoff_le_doubling (attempt : Nat) : b.backoff attempt ≤ b.doubling attempt := by
  rw [backoff_eq hb, doubling]
  have hpow : 2 ^ min (attempt - 1) lastDoubling ≤ 2 ^ (attempt - 1) :=
    Nat.pow_le_pow_right (by decide) (Nat.min_le_left _ _)
  have := Nat.mul_le_mul_left b.minBackoff hpow
  omega

/-- Beyond the last doubling the two pauses agree only where nothing is left to double: there is no
pause at all, or the longest has been reached. -/
theorem backoff_eq_doubling_of_lt {attempt : Nat} (hattempt : lastDoubling + 1 < attempt) :
    b.backoff attempt = b.doubling attempt ↔
      b.minBackoff = 0 ∨ b.maxBackoff ≤ b.minBackoff * 2 ^ lastDoubling := by
  rw [backoff_eq hb, doubling, Nat.min_eq_right (by omega : lastDoubling ≤ attempt - 1)]
  have hpow : 2 ^ lastDoubling < 2 ^ (attempt - 1) := Nat.pow_lt_pow_right (by decide) (by omega)
  rcases Nat.eq_zero_or_pos b.minBackoff with hzero | hpos
  · simp [hzero]
  · have hlt := Nat.mul_lt_mul_of_pos_left hpow hpos
    omega

/-- **A pause is the smaller of the doubled minimum and the maximum for seventeen attempts.**  The
pause after a later attempt is the one after the seventeenth, and it is shorter than documented
exactly when the budget has a minimum to double and a maximum that is not yet reached. -/
theorem backoff_eq_doubling_iff (attempt : Nat) :
    b.backoff attempt = b.doubling (min attempt (lastDoubling + 1)) ∧
      b.backoff attempt ≤ b.doubling attempt ∧
      (b.backoff attempt = b.doubling attempt ↔
        attempt ≤ lastDoubling + 1 ∨ b.minBackoff = 0 ∨
          b.maxBackoff ≤ b.minBackoff * 2 ^ lastDoubling) := by
  have heq : b.backoff attempt = b.doubling (min attempt (lastDoubling + 1)) := by
    rw [backoff_eq hb, doubling, show min attempt (lastDoubling + 1) - 1
      = min (attempt - 1) lastDoubling by omega]
  refine ⟨heq, backoff_le_doubling hb attempt, ?_⟩
  rcases Nat.lt_or_ge (lastDoubling + 1) attempt with hlt | hle
  · rw [backoff_eq_doubling_of_lt hb hlt, or_iff_right (Nat.not_le.2 hlt)]
  · rw [heq, Nat.min_eq_left hle]
    simp [hle]

end Growth

/-- A budget of many attempts whose pauses may grow from a millisecond to a day. -/
def patient : RetryBudget :=
  { standard with
    maxAttempts := 32, minBackoff := Nanos.milli, maxBackoff := Nanos.ofSeconds 86400 }

theorem backoff_eq_doubling_iff_patient :
    patient.maxBackoff ≤ Nanos.longest ∧ patient.backoff 18 = patient.doubling 17 :=
  ⟨by decide, (backoff_eq_doubling_iff (by decide) 18).1⟩

/-- After eighteen attempts the documented pause is over two minutes, the real one over one. -/
theorem backoff_stops_doubling :
    patient.maxBackoff ≤ Nanos.longest ∧ patient.backoff 18 = 65536 * Nanos.milli ∧
      patient.doubling 18 = 131072 * Nanos.milli ∧ patient.backoff 18 ≠ patient.doubling 18 := by
  decide

end RetryBudget

/-! ## A pause that the server asks for -/

/-- The first header of a name, whatever the case of its ASCII letters, has this value. -/
def Headers.First (hs : Headers) (name value : String) : Prop :=
  ∃ before written after, hs = before ++ (written, value) :: after ∧
    written.toList.map Char.toLower = name.toList.map Char.toLower ∧
    ∀ h ∈ before, h.1.toList.map Char.toLower ≠ name.toList.map Char.toLower

theorem Headers.First.get? {hs : Headers} {name value : String} (h : hs.First name value) :
    hs.get? name = some value := by
  obtain ⟨before, written, after, rfl, hname, hbefore⟩ := h
  have hnone : before.find? (fun h => Text.sameIgnoringCase h.1 name) = none :=
    List.find?_eq_none.2 fun h hh => by simpa [Text.sameIgnoringCase] using hbefore h hh
  rw [Headers.get?, List.find?_append, hnone, Option.none_or, List.find?_cons_of_pos]
  · rfl
  · simpa [Text.sameIgnoringCase] using hname

/-- A response that calls for another attempt after a pause, and asks for that many seconds. -/
structure Response.Hints (r : Response) (x : Text.Numeral) : Prop where
  status : r.status = 429 ∨
    500 ≤ r.status ∧ r.status ≤ 599 ∧ r.status ≠ 503 ∧ r.status ≠ 504
  header : r.headers.First "retry-after" (String.ofList x.chars)

namespace Response.Hints

variable {r : Response} {x : Text.Numeral}

theorem retryAfter?_eq (h : r.Hints x) :
    r.retryAfter? = if x.value ≤ maxHint then some (Nanos.ofSeconds x.value) else none := by
  simp [retryAfter?, header?, h.header.get?, x.natural?_trim]

theorem ofResponse_eq (h : r.Hints x) : Decision.ofResponse r = .retryAfter r.retryAfter? := by
  have := h.status
  rcases Call.ofResponse_cases r with ⟨hs, -⟩ | ⟨hs, -⟩ | ⟨hs, -⟩ | ⟨-, hd⟩ | ⟨hs, -⟩
  · omega
  · omega
  · omega
  · exact hd
  · omega

end Response.Hints

/-- A request is turned down for now, with this text in the first of two Retry-After headers. -/
def Response.throttledFor (text : String) : Response where
  status := 429
  headers := [("Date", "now"), ("Retry-After", text), ("retry-after", "7")]

theorem Response.throttledFor_hints (x : Text.Numeral) :
    (throttledFor (String.ofList x.chars)).Hints x where
  status := .inl rfl
  header := ⟨[("Date", "now")], "Retry-After", [("retry-after", "7")], rfl, by decide, by decide⟩

namespace RetryBudget

/-- The pause for a hint of `n` seconds.  A number that does not fit is passed over, and the pause
is the growing one. -/
def hinted (b : RetryBudget) (attempt n : Nat) : Nat :=
  if n ≤ Response.maxHint then min (Nanos.ofSeconds n) b.maxBackoff else b.backoff attempt

theorem decide_eq_again_hinted {b : RetryBudget} {attempt : Nat} {r : Response} {x : Text.Numeral}
    (hattempt : attempt < b.maxAttempts) (hr : r.Hints x) :
    b.decide attempt (.ofResponse r) = .again (b.hinted attempt x.value) := by
  rw [hr.ofResponse_eq, hr.retryAfter?_eq, hinted]
  split <;> simp [RetryBudget.decide, Nat.not_le.2 hattempt]

theorem hinted_mono {b : RetryBudget} {attempt m n : Nat} (hmn : m ≤ n)
    (hn : n ≤ Response.maxHint) : b.hinted attempt m ≤ b.hinted attempt n := by
  rw [hinted, hinted, if_pos (hmn.trans hn), if_pos hn]
  have hsecond : Nanos.ofSeconds m ≤ Nanos.ofSeconds n := Nat.mul_le_mul_right _ hmn
  omega

/-- What does not fit would be cut to the longest pause if it were honoured. -/
theorem le_ofSeconds_of_maxHint_lt {b : RetryBudget} (hb : b.maxBackoff ≤ Nanos.longest) {n : Nat}
    (hn : Response.maxHint < n) : b.maxBackoff ≤ Nanos.ofSeconds n := by
  calc b.maxBackoff
    _ ≤ Nanos.longest := hb
    _ ≤ Nanos.ofSeconds (Response.maxHint + 1) := by decide
    _ ≤ Nanos.ofSeconds n := Nat.mul_le_mul_right _ hn

theorem hinted_eq_iff {b : RetryBudget} (hb : b.maxBackoff ≤ Nanos.longest) (attempt n : Nat) :
    b.hinted attempt n = min (Nanos.ofSeconds n) b.maxBackoff ↔
      n ≤ Response.maxHint ∨ b.backoff attempt = b.maxBackoff := by
  rcases Nat.lt_or_ge Response.maxHint n with hlt | hle
  · rw [hinted, if_neg (Nat.not_le.2 hlt), Nat.min_eq_right (le_ofSeconds_of_maxHint_lt hb hlt),
      or_iff_right (Nat.not_le.2 hlt)]
  · simp [hinted, hle]

/-- **A hint is honoured as far as it can be read.**  Up to the largest 64-bit number of seconds the
pause is the hint or the longest of the budget, and a larger hint never makes it shorter.  Beyond
that number the hint is passed over for the growing pause, which falls short of the longest one
unless it has got there by itself. -/
theorem decide_of_hints (b : RetryBudget) (hb : b.maxBackoff ≤ Nanos.longest) (attempt : Nat)
    (hattempt : attempt < b.maxAttempts) (r : Response) (x : Text.Numeral) (hr : r.Hints x) :
    b.decide attempt (.ofResponse r) =
        .again (if x.value ≤ Response.maxHint then min (Nanos.ofSeconds x.value) b.maxBackoff
          else b.backoff attempt) ∧
      (b.decide attempt (.ofResponse r) = .again (min (Nanos.ofSeconds x.value) b.maxBackoff) ↔
        x.value ≤ Response.maxHint ∨ b.backoff attempt = b.maxBackoff) ∧
      ∀ (r' : Response) (x' : Text.Numeral), r'.Hints x' → x.value ≤ x'.value →
        x'.value ≤ Response.maxHint → ∃ pause pause',
          b.decide attempt (.ofResponse r) = .again pause ∧
          b.decide attempt (.ofResponse r') = .again pause' ∧ pause ≤ pause' := by
  have hagain := decide_eq_again_hinted hattempt hr
  refine ⟨hagain, ?_, fun r' x' hr' hle hfits => ?_⟩
  · rw [hagain, Verdict.again.injEq, hinted_eq_iff hb]
  · exact ⟨_, _, hagain, decide_eq_again_hinted hattempt hr', hinted_mono hle hfits⟩

/-- Two minutes, behind a blank. -/
def twoMinutes : Text.Numeral where
  before := [' ']
  digits := ['1', '2', '0']
  after := []
  before_blank := List.all_eq_true.1 rfl
  digits_isDigit := List.all_eq_true.1 rfl
  digits_ne := List.cons_ne_nil _ _
  after_blank := Text.isBlank_of_mem_nil

theorem decide_of_hints_two_minutes :
    standard.maxBackoff ≤ Nanos.longest ∧ 1 < standard.maxAttempts ∧
      (Response.throttledFor (String.ofList twoMinutes.chars)).Hints twoMinutes ∧
      standard.decide 1 (.ofResponse (Response.throttledFor (String.ofList twoMinutes.chars))) =
        .again (Nanos.ofSeconds 120) :=
  ⟨by decide, by decide, Response.throttledFor_hints _,
    (decide_of_hints standard (by decide) 1 (by decide) _ _ (Response.throttledFor_hints _)).1.trans
      (by decide +kernel)⟩

/-- The first number of seconds that does not fit. -/
def beyondRange : Text.Numeral :=
  .ofDigits "18446744073709551616".toList (List.all_eq_true.1 (by decide)) (by decide)

/-- **A hint of `2 ^ 64` seconds makes the pause shorter.**  The budget waits three seconds, where
one second less would have made it wait for three minutes. -/
theorem hint_beyond_range_ignored :
    ¬ ∀ (b : RetryBudget) (attempt : Nat) (r : Response) (x : Text.Numeral),
      b.maxBackoff ≤ Nanos.longest → attempt < b.maxAttempts → r.Hints x →
        b.decide attempt (.ofResponse r) = .again (min (Nanos.ofSeconds x.value) b.maxBackoff) := by
  intro hclaim
  have hhints := Response.throttledFor_hints beyondRange
  have hpause := hclaim standard 1 _ beyondRange (by decide) (by decide) hhints
  rw [decide_eq_again_hinted (by decide) hhints] at hpause
  exact absurd hpause (by decide)

end RetryBudget

end DriveDelta
