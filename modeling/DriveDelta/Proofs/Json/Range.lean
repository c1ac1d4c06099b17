import Mathlib.Algebra.Order.Field.Power
import Mathlib.Algebra.Order.Field.Rat
import Mathlib.Tactic.Ring
import DriveDelta.Proofs.Double.Amount
import DriveDelta.Proofs.Json.Text

/-!
# Numbers that can be read

Whether a number can be read is not decided by its value alone.  The reader drops the digits that
are too many for its significand, rounds the significand and the power of ten, and multiplies; what
is infinite then is refused.  Each of these steps has an error, so that a number just below the
largest double may be refused.  But there is room for few of them only: the largest double is
1.7976931348623157 · 10³⁰⁸ to 17 digits, and numbers up to 1.7976931348623156 · 10³⁰⁸ can be read.

## What is here

* `Json.joined`, digits behind a number, and `Json.absorb_le_joined`, which says that the reader
  only ever makes a number smaller when it drops digits;
* `Json.Decimal.size`, the absolute value of a number;
* `Json.Decimal.isStorable_of_size_le`.
-/

set_option autoImplicit false

namespace DriveDelta.Json

open Numeral (absorb digitsOf maxSignificand)

/-! ## Digits -/

/-- A number with further digits behind it. -/
def joined (s : Nat) (ds : List Nat) : Nat := ds.foldl (fun n d => n * 10 + d) s

theorem joined_append (s : Nat) (ds ds' : List Nat) :
    joined s (ds ++ ds') = joined (joined s ds) ds' := List.foldl_append

theorem le_joined (s : Nat) (ds : List Nat) : s * 10 ^ ds.length ≤ joined s ds := by
  induction ds generalizing s with
  | nil => exact Nat.le_of_eq (Nat.mul_one s)
  | cons d ds ih =>
    calc s * 10 ^ (ds.length + 1) = s * 10 * 10 ^ ds.length := by ring
      _ ≤ (s * 10 + d) * 10 ^ ds.length := Nat.mul_le_mul_right _ (Nat.le_add_right _ _)
      _ ≤ joined (s * 10 + d) ds := ih _

/-- The digits of a number make that number. -/
theorem joined_digitsOf (n : Nat) : joined 0 (digitsOf n) = n := by
  have hdigits : joined 0 (digitsOf n) = Nat.ofDigitChars 10 (Nat.toDigits 10 n) 0 := by
    rw [joined, digitsOf, List.foldl_map, Nat.ofDigitChars_eq_foldl]
    congr 1
    funext m c
    rw [Nat.mul_comm]
  rw [hdigits, Nat.ofDigitChars_ten_toDigits]

/-! ## Digits that are kept -/

/-- Digits are kept up to one that no longer fits. -/
theorem absorb_eq (s : Nat) (ds : List Nat) : ∃ kept rest, ds = kept ++ rest ∧
    absorb s ds = (joined s kept, kept.length) ∧
      ∀ d rest', rest = d :: rest' → maxSignificand < joined s kept * 10 + d := by
  induction ds generalizing s with
  | nil => exact ⟨[], [], rfl, rfl, fun d rest' h => absurd h (by simp)⟩
  | cons d ds ih =>
    rw [absorb]
    split
    · rename_i hlt
      refine ⟨[], d :: ds, rfl, rfl, fun d' rest' h => ?_⟩
      obtain rfl := (List.cons.inj h).1
      exact hlt
    · obtain ⟨kept, rest, rfl, habsorb, hrest⟩ := ih (s * 10 + d)
      refine ⟨d :: kept, rest, rfl, ?_, hrest⟩
      rw [habsorb]
      rfl

theorem absorb_le {s : Nat} (h : s ≤ maxSignificand) (ds : List Nat) :
    (absorb s ds).1 ≤ maxSignificand := by
  induction ds generalizing s with
  | nil => exact h
  | cons d ds ih =>
    rw [absorb]
    split
    · exact h
    · rename_i hle
      exact ih (Nat.le_of_not_lt hle)

/-- Of all digits of a number, those before and those behind the point, the ones that are kept make
no larger number. -/
theorem absorb_le_joined (whole : Nat) (fraction : List Nat) :
    (absorb (absorb 0 (digitsOf whole)).1 fraction).1 *
        10 ^ ((digitsOf whole).length - (absorb 0 (digitsOf whole)).2 + fraction.length) ≤
      joined whole fraction * 10 ^ (absorb (absorb 0 (digitsOf whole)).1 fraction).2 := by
  have hwhole := joined_digitsOf whole
  have hmax := absorb_le (Nat.zero_le maxSignificand) (digitsOf whole)
  obtain ⟨kept, rest, hdigits, habsorb, hrest⟩ := absorb_eq 0 (digitsOf whole)
  rw [hdigits, joined_append] at hwhole
  rw [habsorb] at hmax ⊢
  rw [hdigits, List.length_append, Nat.add_sub_cancel_left]
  generalize joined 0 kept = s at *
  have htmax := absorb_le hmax fraction
  obtain ⟨kept', rest', rfl, habsorb', -⟩ := absorb_eq s fraction
  rw [habsorb'] at htmax ⊢
  rw [List.length_append]
  cases rest with
  | nil =>
    obtain rfl : s = whole := hwhole
    calc joined s kept' * 10 ^ (0 + (kept'.length + rest'.length))
        = joined s kept' * 10 ^ rest'.length * 10 ^ kept'.length := by ring
      _ ≤ joined (joined s kept') rest' * 10 ^ kept'.length :=
        Nat.mul_le_mul_right _ (le_joined _ _)
      _ = joined s (kept' ++ rest') * 10 ^ kept'.length := by rw [joined_append]
  | cons c rest =>
    -- what was kept is less than it would have been with the digit that was dropped first
    have hlt := hrest c rest rfl
    have hkept : joined s kept' * 10 ≤ (s * 10 + c) * 10 ^ kept'.length := by
      cases kept' with
      | nil => exact (show s * 10 ≤ (s * 10 + c) * 1 by omega)
      | cons d kept' =>
        calc joined s (d :: kept') * 10 ≤ (s * 10 + c) * 10 :=
              Nat.mul_le_mul_right _ (Nat.le_of_lt (Nat.lt_of_le_of_lt htmax hlt))
          _ ≤ (s * 10 + c) * 10 ^ (d :: kept').length :=
            Nat.mul_le_mul_left _ (Nat.le_self_pow (by simp) 10)
    have hwhole' : (s * 10 + c) * 10 ^ rest.length ≤ whole := hwhole ▸ le_joined (s * 10 + c) rest
    calc joined s kept' * 10 ^ (rest.length + 1 + (kept'.length + rest'.length))
        = joined s kept' * 10 * 10 ^ (rest.length + (kept'.length + rest'.length)) := by ring
      _ ≤ (s * 10 + c) * 10 ^ kept'.length * 10 ^ (rest.length + (kept'.length + rest'.length)) :=
        Nat.mul_le_mul_right _ hkept
      _ = (s * 10 + c) * 10 ^ rest.length * 10 ^ (kept'.length + rest'.length) *
          10 ^ kept'.length := by ring
      _ ≤ whole * 10 ^ (kept' ++ rest').length * 10 ^ kept'.length := by
        rw [List.length_append]
        exact Nat.mul_le_mul_right _ (Nat.mul_le_mul_right _ hwhole')
      _ ≤ joined whole (kept' ++ rest') * 10 ^ kept'.length :=
        Nat.mul_le_mul_right _ (le_joined _ _)

/-! ## Numbers in range -/

/-- The absolute value of a number. -/
def Decimal.size (d : Decimal) : Rat :=
  joined d.whole (d.fraction.map (·.val)) * 10 ^ (d.exponent - d.fraction.length)

/-- What can surely be read. -/
def readable : Nat := 17976931348623156 * Nat.pow 10 292

theorem exists_readable_eq : ∃ e ≤ 292, readable = 17976931348623156 * 10 ^ e := by
  refine ⟨292, Nat.le_refl 292, ?_⟩
  unfold readable
  generalize 292 = e
  rfl

theorem readable_lt {k : Nat} (hk : 309 ≤ k) : readable < 10 ^ k := by
  obtain ⟨e, he, hreadable⟩ := exists_readable_eq
  calc readable = 17976931348623156 * 10 ^ e := hreadable
    _ < 10 ^ 17 * 10 ^ e := Nat.mul_lt_mul_of_pos_right (by decide) (Nat.pow_pos (by decide))
    _ = 10 ^ (17 + e) := (Nat.pow_add _ _ _).symm
    _ ≤ 10 ^ k := Nat.pow_le_pow_right (by decide) (by omega)

/-- The largest significand that is kept and that makes no more than is readable with a power of
ten. -/
def largestSignificand (e : Nat) : Nat := Min.min maxSignificand (readable / 10 ^ e)

/-- Whether a power of ten is finite, and its product with the largest significand too. -/
def isFiniteAt (e : Nat) : Bool :=
  (Double.ofNat (Nat.pow 10 e)).isFinite &&
    (Double.mul (.ofNat (largestSignificand e)) (.ofNat (Nat.pow 10 e))).isFinite

theorem all_isFiniteAt : ∀ i < 21, isFiniteAt (288 + i) = true := by decide +kernel

theorem ofDecimal_power {e : Nat} (he : e ≤ 308) :
    Double.ofDecimal false 1 e = .ofNat (Nat.pow 10 e) := by
  have hsize : ¬ 400 < ((1 : Nat).log2 : Int) / 4 + e := by
    rw [show (1 : Nat).log2 = 0 by decide]
    omega
  rw [Double.ofDecimal, if_neg (by decide)]
  dsimp only
  rw [if_neg hsize, if_neg (by omega), Int.natAbs_natCast, Nat.one_mul]
  rfl

/-- With powers up to `10 ^ 288` every significand makes what is readable. -/
theorem exists_isFiniteAt {s e : Nat} (he : e ≤ 308) (hs : s ≤ largestSignificand e) :
    ∃ e' ≥ e, isFiniteAt e' = true ∧ s ≤ largestSignificand e' := by
  by_cases hlarge : 288 ≤ e
  · have hat := all_isFiniteAt (e - 288) (by omega)
    rw [Nat.add_sub_cancel' hlarge] at hat
    exact ⟨e, Nat.le_refl e, hat, hs⟩
  · have hmax : largestSignificand 288 = maxSignificand := by decide +kernel
    refine ⟨288, by omega, all_isFiniteAt 0 (by decide), ?_⟩
    rw [hmax]
    exact hs.trans (Nat.min_le_left _ _)

theorem mul_isFinite {s e : Nat} (he : e ≤ 308) (hs : s ≤ largestSignificand e) :
    (Double.mul (.ofNat s) (.ofDecimal false 1 e)).isFinite = true := by
  obtain ⟨e', hle, hat, hs'⟩ := exists_isFiniteAt he hs
  rw [isFiniteAt, Bool.and_eq_true, Double.isFinite, Double.isFinite, decide_eq_true_eq,
    decide_eq_true_eq] at hat
  obtain ⟨hpower, hproduct⟩ := hat
  have hpowers := Double.ofNat_mono (Nat.pow_le_pow_right (by decide : 0 < 10) hle)
  have hfinite : (Double.ofNat s).magnitude < Double.infiniteMagnitude := by
    refine Nat.lt_of_le_of_lt (Double.ofNat_mono (hs.trans (Nat.min_le_left _ _))) ?_
    decide +kernel
  rw [ofDecimal_power he, Double.isFinite, decide_eq_true_eq]
  rcases (Double.isAmount_ofNat s).mul_mono (Double.isAmount_ofNat _)
    (Double.isAmount_ofNat (largestSignificand e')) (Double.isAmount_ofNat _) hfinite
    (Nat.lt_of_le_of_lt hpowers hpower) (Double.ofNat_mono hs') hpowers with hnan | ⟨-, hmono⟩
  · rw [Double.isNaN, decide_eq_true_eq] at hnan
    exact absurd hnan (Nat.lt_asymm hproduct)
  · exact Nat.lt_of_le_of_lt hmono hproduct

/-- What is kept of a number is no larger than the number. -/
theorem kept_le_size {s digits dropped places : Nat} {d : Decimal}
    (hd : joined d.whole (d.fraction.map (·.val)) = digits)
    (h : s * 10 ^ (dropped + d.fraction.length) ≤ digits * 10 ^ places) :
    (s : Rat) * 10 ^ ((dropped : Int) - places + d.exponent) ≤ d.size := by
  have hcast : (s : Rat) * 10 ^ (dropped + d.fraction.length) ≤ digits * 10 ^ places := by
    exact_mod_cast h
  have hten : (10 : Rat) ≠ 0 := by decide
  have hscale : (0 : Rat) ≤ 10 ^ (-(places : Int) + (d.exponent - d.fraction.length)) := by
    positivity
  calc (s : Rat) * 10 ^ ((dropped : Int) - places + d.exponent)
      = s * 10 ^ (dropped + d.fraction.length) *
          10 ^ (-(places : Int) + (d.exponent - d.fraction.length)) := by
        rw [mul_assoc, ← zpow_natCast, ← zpow_add₀ hten]
        congr 2
        push_cast
        ring
    _ ≤ digits * 10 ^ places * 10 ^ (-(places : Int) + (d.exponent - d.fraction.length)) :=
        mul_le_mul_of_nonneg_right hcast hscale
    _ = d.size := by
        rw [Decimal.size, hd, mul_assoc, ← zpow_natCast, ← zpow_add₀ hten]
        congr 2
        ring

/-- A significand with an exponent, if what they make is readable, passes. -/
theorem passes_of_le {s : Nat} {e : Int} (hmax : s ≤ maxSignificand)
    (hsize : (s : Rat) * 10 ^ e ≤ readable) :
    (s == 0 || e ≤ 0 || (e ≤ Numeral.maxPower &&
      (Double.mul (.ofNat s) (.ofDecimal false 1 e)).isFinite)) = true := by
  by_cases hs : s = 0
  · rw [hs]
    rfl
  by_cases hpos : e ≤ 0
  · rw [decide_eq_true hpos, Bool.or_true]
    rfl
  -- a significand that is not zero bounds the power of ten
  obtain ⟨k, rfl⟩ := Int.eq_ofNat_of_zero_le (Int.le_of_lt (Int.lt_of_not_ge hpos))
  have hnat : s * 10 ^ k ≤ readable := by
    rw [zpow_natCast] at hsize
    exact_mod_cast hsize
  have hk : k ≤ 308 := by
    by_contra hlt
    have hle : 10 ^ k ≤ s * 10 ^ k := Nat.le_mul_of_pos_left _ (Nat.pos_of_ne_zero hs)
    exact absurd (hle.trans hnat) (Nat.not_le_of_lt (readable_lt (by omega)))
  have hlargest : s ≤ largestSignificand k :=
    Nat.le_min.2 ⟨hmax, (Nat.le_div_iff_mul_le (Nat.pow_pos (by decide))).2 hnat⟩
  have hmaxPower : (k : Int) ≤ Numeral.maxPower := Int.ofNat_le.2 hk
  rw [mul_isFinite hk hlargest, decide_eq_true hmaxPower, Bool.and_true, Bool.or_true]

/-- **Numbers up to 1.7976931348623156 · 10³⁰⁸ can be read.** -/
theorem Decimal.isStorable_of_size_le {d : Decimal} (h : d.size ≤ readable) :
    d.numeral.isStorable = true := by
  have hmax := absorb_le (absorb_le (Nat.zero_le maxSignificand) (digitsOf d.whole))
    (d.fraction.map (·.val))
  have hdigits := absorb_le_joined d.whole (d.fraction.map (·.val))
  rw [List.length_map] at hdigits
  exact passes_of_le hmax ((kept_le_size rfl hdigits).trans h)

end DriveDelta.Json
