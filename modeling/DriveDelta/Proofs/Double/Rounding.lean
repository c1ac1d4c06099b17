import DriveDelta.Double

/-!
# Rounding keeps the order

Everything that the arithmetic of doubles promises about order comes from three facts about its one
rounding step.  A larger number is not rounded to a smaller double, a double is rounded to itself,
and so is every whole multiple of the spacing of the doubles around it.

## What is here

* `roundHalfEven_mono` and `roundHalfEven_mul`, the same for rounding to whole numbers;
* `Double.roundMagnitude_mono` and `Double.roundMagnitude_anti`, in the dividend and in the divisor;
* `Double.roundMagnitude_unitsOf` and `Double.unitsOf_roundMagnitude`;
* `Double.unitsOf_succ_le`, how far the next double is away.
-/

set_option autoImplicit false

namespace DriveDelta

/-! ## Rounding to whole numbers -/

theorem div_le_roundHalfEven (num den : Nat) : num / den ≤ roundHalfEven num den := by
  simp only [roundHalfEven]
  split
  · exact Nat.le_refl _
  · split
    · exact Nat.le_succ _
    · split
      · exact Nat.le_refl _
      · exact Nat.le_succ _

theorem roundHalfEven_le (num den : Nat) : roundHalfEven num den ≤ num / den + 1 := by
  simp only [roundHalfEven]
  split
  · exact Nat.le_succ _
  · split
    · exact Nat.le_refl _
    · split
      · exact Nat.le_succ _
      · exact Nat.le_refl _

/-- What is a whole number stays it. -/
theorem roundHalfEven_mul (n : Nat) {den : Nat} (hd : 0 < den) :
    roundHalfEven (n * den) den = n := by
  simp only [roundHalfEven, Nat.mul_mod_left, Nat.mul_div_cancel n hd]
  rw [if_pos (by omega)]

theorem roundHalfEven_mono {num num' den : Nat} (h : num ≤ num') :
    roundHalfEven num den ≤ roundHalfEven num' den := by
  rcases Nat.eq_or_lt_of_le (Nat.div_le_div_right (c := den) h) with hq | hq
  · -- the same whole part, so the remainders are in order
    have hr : num % den ≤ num' % den := by
      have h₁ := Nat.div_add_mod num den
      have h₂ := Nat.div_add_mod num' den
      rw [← hq] at h₂
      omega
    simp only [roundHalfEven, ← hq]
    grind
  · calc roundHalfEven num den ≤ num / den + 1 := roundHalfEven_le num den
      _ ≤ num' / den := hq
      _ ≤ roundHalfEven num' den := div_le_roundHalfEven num' den

/-- The nearest whole number to a quotient depends on the quotient alone. -/
theorem roundHalfEven_mul_mul (num den : Nat) {k : Nat} (hk : 0 < k) :
    roundHalfEven (num * k) (den * k) = roundHalfEven num den := by
  have hdouble : 2 * (num % den * k) = 2 * (num % den) * k := (Nat.mul_assoc _ _ _).symm
  simp only [roundHalfEven, Nat.mul_div_mul_right _ _ hk, Nat.mul_mod_mul_right, hdouble,
    Nat.mul_lt_mul_right hk]

namespace Double

/-! ## Rounding to doubles -/

/-- How often the spacing of the doubles doubles below `num / den`. -/
def shift (num den : Nat) : Nat := (num / den).log2 - 52

/-- The multiple of the spacing that is nearest to `num / den`. -/
def significand (num den : Nat) : Nat :=
  roundHalfEven num (den * Nat.pow 2 (shift num den))

theorem roundMagnitude_eq (num den : Nat) :
    roundMagnitude num den
      = Min.min infiniteMagnitude (shift num den * binade + significand num den) := rfl

theorem shift_mono {num num' den : Nat} (h : num ≤ num') : shift num den ≤ shift num' den := by
  have hq : num / den ≤ num' / den := Nat.div_le_div_right h
  have hlog : (num / den).log2 ≤ (num' / den).log2 := by
    rcases Nat.eq_zero_or_pos (num / den) with hz | hpos
    · simp [hz]
    · exact (Nat.le_log2 (by omega)).2 (Nat.le_trans (Nat.log2_self_le (by omega)) hq)
  simp only [shift]
  omega

theorem quotient_lt (num den : Nat) : num / den < 2 * binade * Nat.pow 2 (shift num den) := by
  have hlt : num / den < Nat.pow 2 ((num / den).log2 + 1) := Nat.lt_log2_self
  have hpow : Nat.pow 2 ((num / den).log2 + 1) ≤ Nat.pow 2 (53 + shift num den) :=
    Nat.pow_le_pow_right (by decide) (by simp only [shift]; omega)
  have hsplit : Nat.pow 2 (53 + shift num den) = 2 * binade * Nat.pow 2 (shift num den) :=
    Nat.pow_add 2 53 (shift num den)
  omega

theorem le_quotient {num den : Nat} (h : 0 < shift num den) :
    binade * Nat.pow 2 (shift num den) ≤ num / den := by
  have hlog : (num / den).log2 = 52 + shift num den := by simp only [shift] at h ⊢; omega
  have hne : num / den ≠ 0 := by
    intro hz
    rw [hz] at hlog
    simp at hlog
    omega
  have hle := Nat.log2_self_le hne
  rw [hlog] at hle
  exact Nat.le_trans (Nat.le_of_eq (Nat.pow_add 2 52 (shift num den)).symm) hle

theorem significand_le (num den : Nat) : significand num den ≤ 2 * binade := by
  have hpos : 0 < Nat.pow 2 (shift num den) := Nat.pow_pos (by decide)
  have hlt : num / (den * Nat.pow 2 (shift num den)) < 2 * binade := by
    rw [← Nat.div_div_eq_div_mul]
    exact (Nat.div_lt_iff_lt_mul hpos).2 (quotient_lt num den)
  exact Nat.le_trans (roundHalfEven_le _ _) hlt

theorem le_significand {num den : Nat} (h : 0 < shift num den) : binade ≤ significand num den := by
  have hpos : 0 < Nat.pow 2 (shift num den) := Nat.pow_pos (by decide)
  refine Nat.le_trans ?_ (div_le_roundHalfEven _ _)
  rw [← Nat.div_div_eq_div_mul]
  exact (Nat.le_div_iff_mul_le hpos).2 (le_quotient h)

/-- A larger number is not rounded to a smaller double. -/
theorem roundMagnitude_mono {num num' den : Nat} (h : num ≤ num') :
    roundMagnitude num den ≤ roundMagnitude num' den := by
  have hmain : shift num den * binade + significand num den
      ≤ shift num' den * binade + significand num' den := by
    have hshift : shift num den ≤ shift num' den := shift_mono h
    rcases Nat.eq_or_lt_of_le hshift with hs | hs
    · have hsig : significand num den ≤ significand num' den := by
        rw [significand, significand, hs]
        exact roundHalfEven_mono h
      rw [hs]
      exact Nat.add_le_add_left hsig _
    · -- the spacing doubles in between
      have hup := significand_le num den
      have hlow := le_significand (Nat.lt_of_le_of_lt (Nat.zero_le _) hs)
      have hstep : (shift num den + 1) * binade ≤ shift num' den * binade :=
        Nat.mul_le_mul_right _ hs
      rw [Nat.add_mul] at hstep
      omega
  rw [roundMagnitude_eq, roundMagnitude_eq]
  exact Nat.le_min.2 ⟨Nat.min_le_left _ _, Nat.le_trans (Nat.min_le_right _ _) hmain⟩

theorem roundMagnitude_le (num den : Nat) : roundMagnitude num den ≤ infiniteMagnitude := by
  rw [roundMagnitude_eq]
  exact Nat.min_le_left _ _

/-- The nearest double to a quotient depends on the quotient alone. -/
theorem roundMagnitude_mul_mul (num den : Nat) {k : Nat} (hk : 0 < k) :
    roundMagnitude (num * k) (den * k) = roundMagnitude num den := by
  have hshift : shift (num * k) (den * k) = shift num den := by
    rw [shift, shift, Nat.mul_div_mul_right _ _ hk]
  rw [roundMagnitude_eq, roundMagnitude_eq, significand, significand, hshift,
    Nat.mul_right_comm den k, roundHalfEven_mul_mul _ _ hk]

/-- A larger divisor does not give a larger double. -/
theorem roundMagnitude_anti {num den den' : Nat} (hpos : 0 < den) (h : den ≤ den') :
    roundMagnitude num den' ≤ roundMagnitude num den :=
  calc roundMagnitude num den'
    _ = roundMagnitude (num * den) (den' * den) := (roundMagnitude_mul_mul _ _ hpos).symm
    _ ≤ roundMagnitude (num * den') (den' * den) :=
      roundMagnitude_mono (Nat.mul_le_mul_left num h)
    _ = roundMagnitude num den := by
      rw [Nat.mul_comm den', roundMagnitude_mul_mul _ _ (Nat.lt_of_lt_of_le hpos h)]

theorem log2_mul_pow {f s : Nat} (h₁ : binade ≤ f) (h₂ : f < 2 * binade) :
    (f * Nat.pow 2 s).log2 = 52 + s := by
  have hpos : 0 < Nat.pow 2 s := Nat.pow_pos (by decide)
  have hne : f * Nat.pow 2 s ≠ 0 :=
    Nat.ne_of_gt (Nat.mul_pos (Nat.lt_of_lt_of_le (by decide) h₁) hpos)
  have hlow : Nat.pow 2 (52 + s) ≤ f * Nat.pow 2 s :=
    Nat.le_trans (Nat.le_of_eq (Nat.pow_add 2 52 s)) (Nat.mul_le_mul_right _ h₁)
  have hup : f * Nat.pow 2 s < Nat.pow 2 (53 + s) :=
    Nat.lt_of_lt_of_eq ((Nat.mul_lt_mul_right hpos).2 h₂) (Nat.pow_add 2 53 s).symm
  have hle : 52 + s ≤ (f * Nat.pow 2 s).log2 := (Nat.le_log2 hne).2 hlow
  have hlt : (f * Nat.pow 2 s).log2 < 53 + s := (Nat.log2_lt hne).2 hup
  omega

/-- A number with 53 significant binary digits is rounded to the double that has them. -/
theorem roundMagnitude_mul_pow {f s : Nat} (h₁ : binade ≤ f) (h₂ : f < 2 * binade) :
    roundMagnitude (f * Nat.pow 2 s) 1 = Min.min infiniteMagnitude (s * binade + f) := by
  have hs : shift (f * Nat.pow 2 s) 1 = s := by
    rw [shift, Nat.div_one, log2_mul_pow h₁ h₂]
    omega
  have hpos : 0 < Nat.pow 2 s := Nat.pow_pos (by decide)
  rw [roundMagnitude_eq, significand, hs, Nat.one_mul, roundHalfEven_mul f hpos]

theorem roundMagnitude_small {n : Nat} (h : n < binade) : roundMagnitude n 1 = n := by
  have hs : shift n 1 = 0 := by
    rw [shift, Nat.div_one]
    rcases Nat.eq_zero_or_pos n with rfl | hpos
    · rfl
    · have : n.log2 < 52 := (Nat.log2_lt (by omega)).2 h
      omega
  have hsig : significand n 1 = n := by
    rw [significand, hs]
    have hmul : roundHalfEven (n * 1) 1 = n := roundHalfEven_mul n (by decide)
    simpa using hmul
  rw [roundMagnitude_eq, hs, hsig, Nat.zero_mul, Nat.zero_add]
  exact Nat.min_eq_right (Nat.le_trans (Nat.le_of_lt h) (by decide))

theorem unitsOf_of_lt {m : Nat} (h : m < binade) : unitsOf m = m := by rw [unitsOf, if_pos h]

theorem unitsOf_mul_pow {f s : Nat} (h₁ : binade ≤ f) (h₂ : f < 2 * binade) :
    unitsOf (s * binade + f) = f * Nat.pow 2 s := by
  obtain ⟨g, rfl⟩ := Nat.exists_eq_add_of_le h₁
  have hg : g < binade := by omega
  have hm : s * binade + (binade + g) = g + (s + 1) * binade := by
    rw [Nat.add_mul]
    omega
  rw [unitsOf, if_neg (by omega), hm, Nat.add_mul_mod_self_right, Nat.mod_eq_of_lt hg,
    Nat.add_mul_div_right g (s + 1) (by decide), Nat.div_eq_of_lt hg, Nat.zero_add,
    Nat.add_sub_cancel]

/-- A magnitude outside the lowest binade is an exponent and a significand. -/
theorem exists_significand {m : Nat} (h : binade ≤ m) :
    ∃ s f, binade ≤ f ∧ f < 2 * binade ∧ m = s * binade + f := by
  have hmod : m % binade < binade := Nat.mod_lt _ (by decide)
  have hdiv : 1 ≤ m / binade := (Nat.le_div_iff_mul_le (by decide)).2 (by omega)
  have hsum := Nat.div_add_mod m binade
  refine ⟨m / binade - 1, binade + m % binade, by omega, by omega, ?_⟩
  have hexp : (m / binade - 1) * binade + binade = m / binade * binade := by
    rw [← Nat.succ_mul, Nat.succ_eq_add_one, Nat.sub_add_cancel hdiv]
  rw [Nat.mul_comm] at hsum
  omega

/-- A double is its own nearest double. -/
theorem roundMagnitude_unitsOf {m : Nat} (h : m ≤ infiniteMagnitude) :
    roundMagnitude (unitsOf m) 1 = m := by
  rcases Nat.lt_or_ge m binade with hlt | hge
  · rw [unitsOf_of_lt hlt, roundMagnitude_small hlt]
  · obtain ⟨s, f, h₁, h₂, rfl⟩ := exists_significand hge
    rw [unitsOf_mul_pow h₁ h₂, roundMagnitude_mul_pow h₁ h₂]
    exact Nat.min_eq_right h

/-- A number with at most 53 significant binary digits is a double, unless it is too large. -/
theorem unitsOf_roundMagnitude {k t : Nat} (hk : k < 2 * binade)
    (hfin : roundMagnitude (k * Nat.pow 2 t) 1 < infiniteMagnitude) :
    unitsOf (roundMagnitude (k * Nat.pow 2 t) 1) = k * Nat.pow 2 t := by
  rcases Nat.lt_or_ge (k * Nat.pow 2 t) binade with hlt | hge
  · rw [roundMagnitude_small hlt, unitsOf_of_lt hlt]
  · -- move digits from the power into the significand until it has 53 of them
    obtain ⟨s, f, h₁, h₂, heq⟩ : ∃ s f, binade ≤ f ∧ f < 2 * binade ∧
        k * Nat.pow 2 t = f * Nat.pow 2 s := by
      clear hfin
      induction t generalizing k with
      | zero => exact ⟨0, k, by simpa using hge, hk, rfl⟩
      | succ t ih =>
        rcases Nat.lt_or_ge k binade with hkb | hkb
        · have hmul : k * Nat.pow 2 (t + 1) = 2 * k * Nat.pow 2 t := by
            rw [Nat.pow_eq, Nat.pow_succ, Nat.mul_comm 2 k, Nat.mul_assoc, Nat.mul_comm 2]
            rfl
          rw [hmul] at hge ⊢
          exact ih (by omega) hge
        · exact ⟨t + 1, k, hkb, hk, rfl⟩
    rw [heq, roundMagnitude_mul_pow h₁ h₂] at hfin ⊢
    rw [Nat.min_eq_right (by omega), unitsOf_mul_pow h₁ h₂]

/-- Of two doubles the one with the larger magnitude is the larger one. -/
theorem unitsOf_lt_unitsOf {m m' : Nat} (h : m < m') (h' : m' ≤ infiniteMagnitude) :
    unitsOf m < unitsOf m' := by
  refine Nat.lt_of_not_le fun hle => ?_
  have hmono : roundMagnitude (unitsOf m') 1 ≤ roundMagnitude (unitsOf m) 1 :=
    roundMagnitude_mono hle
  rw [roundMagnitude_unitsOf h', roundMagnitude_unitsOf (by omega)] at hmono
  omega

theorem unitsOf_le_unitsOf {m m' : Nat} (h : m ≤ m') (h' : m' ≤ infiniteMagnitude) :
    unitsOf m ≤ unitsOf m' := by
  rcases Nat.eq_or_lt_of_le h with rfl | hlt
  · exact Nat.le_refl _
  · exact Nat.le_of_lt (unitsOf_lt_unitsOf hlt h')

/-- The next double is no further away than the spacing of the doubles there. -/
theorem unitsOf_succ_le (m : Nat) : unitsOf (m + 1) ≤ unitsOf m + Nat.pow 2 (m / binade - 1) := by
  rcases Nat.lt_or_ge m binade with hlt | hge
  · have hpow : Nat.pow 2 (m / binade - 1) = 1 := by
      rw [Nat.div_eq_of_lt hlt]
    rw [unitsOf_of_lt hlt, hpow]
    rcases Nat.lt_or_ge (m + 1) binade with hlt' | hge'
    · exact Nat.le_of_eq (unitsOf_of_lt hlt')
    · have hm : m + 1 = 0 * binade + binade := by omega
      have hunits : unitsOf (m + 1) = binade := by
        rw [hm, unitsOf_mul_pow (Nat.le_refl _) (by decide)]
        exact Nat.mul_one _
      omega
  · obtain ⟨s, f, h₁, h₂, rfl⟩ := exists_significand hge
    have hdiv : (s * binade + f) / binade - 1 = s := by
      obtain ⟨g, rfl⟩ := Nat.exists_eq_add_of_le h₁
      have hg : g < binade := by omega
      have hm : s * binade + (binade + g) = g + (s + 1) * binade := by
        rw [Nat.add_mul]
        omega
      rw [hm, Nat.add_mul_div_right g (s + 1) (by decide), Nat.div_eq_of_lt hg]
      omega
    have hstep : f * Nat.pow 2 s + Nat.pow 2 s = (f + 1) * Nat.pow 2 s := (Nat.succ_mul _ _).symm
    rw [unitsOf_mul_pow h₁ h₂, hdiv, hstep]
    rcases Nat.lt_or_ge (f + 1) (2 * binade) with hlt | hge'
    · rw [Nat.add_assoc]
      exact Nat.le_of_eq (unitsOf_mul_pow (by omega) hlt)
    · -- it is the first one of the next binade
      have hf : f + 1 = 2 * binade := by omega
      have hm : s * binade + f + 1 = (s + 1) * binade + binade := by
        rw [Nat.add_mul]
        omega
      have hpow : Nat.pow 2 (s + 1) = 2 * Nat.pow 2 s := Nat.pow_succ'
      rw [hm, unitsOf_mul_pow (Nat.le_refl _) (by decide), hf, hpow]
      exact Nat.le_of_eq (by rw [Nat.mul_left_comm, Nat.mul_assoc])

end Double

end DriveDelta
