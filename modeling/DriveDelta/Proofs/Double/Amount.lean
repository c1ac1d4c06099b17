import Mathlib.Algebra.Order.Field.Rat
import Mathlib.Tactic.Positivity
import DriveDelta.Proofs.Double.Rounding

/-!
# Amounts

An amount is a double that is neither negative nor without value; infinity is one.  Amounts are in
the order of their magnitudes, and the arithmetic of a token pool stays among them.

## What is here

* `Double.IsAmount`, with `IsAmount.le_iff` and `IsAmount.lt_iff`;
* `IsAmount.add`, with `IsAmount.le_add_left` and `IsAmount.lt_add`, which say when a sum is more
  than its first summand, `IsAmount.mul_mono`, `IsAmount.div_mono` and `Double.half_eq`;
* `Double.units_ofNat` and `Double.value_sub_ofNat`: whole numbers are represented exactly, and
  taking one away is exact;
* `Double.seconds_milli_le`, a lower bound of spans in seconds.
-/

set_option autoImplicit false

namespace DriveDelta.Double

/-- Neither negative nor without value. -/
structure IsAmount (x : Double) : Prop where
  nonneg : x.negative = false
  le_infinite : x.magnitude ≤ infiniteMagnitude

variable {x y z : Double}

theorem isAmount_nonneg {m : Nat} (h : m ≤ infiniteMagnitude) : IsAmount ⟨false, m⟩ := ⟨rfl, h⟩

theorem isAmount_zero : zero.IsAmount := ⟨rfl, Nat.zero_le _⟩

theorem IsAmount.isNaN (h : x.IsAmount) : x.isNaN = false := by
  simpa [Double.isNaN] using h.le_infinite

theorem IsAmount.isInfinite_iff (h : x.IsAmount) :
    x.isInfinite = false ↔ x.magnitude < infiniteMagnitude := by
  have := h.le_infinite
  simp only [isInfinite, beq_eq_false_iff_ne]
  omega

theorem IsAmount.eq_mk (h : x.IsAmount) : x = ⟨false, x.magnitude⟩ := by
  obtain ⟨n, m⟩ := x
  exact congrArg (Double.mk · m) h.nonneg

theorem IsAmount.signedUnits_eq (h : x.IsAmount) : x.signedUnits = x.units := by
  rw [signedUnits, h.nonneg]
  rfl

/-! ## Order -/

theorem IsAmount.lt_iff (hx : x.IsAmount) (hy : y.IsAmount) :
    x.lt y = true ↔ x.magnitude < y.magnitude := by
  simp [lt, hx.isNaN, hy.isNaN, rank, hx.nonneg, hy.nonneg]

theorem IsAmount.le_iff (hx : x.IsAmount) (hy : y.IsAmount) :
    x.le y = true ↔ x.magnitude ≤ y.magnitude := by
  simp [le, hx.isNaN, hy.isNaN, rank, hx.nonneg, hy.nonneg]

theorem min_of_isNaN (h : x.isNaN = true) : Double.min x y = y := by
  rw [Double.min, if_pos h]

/-- The smaller one of two amounts. -/
theorem IsAmount.min_eq (hx : x.IsAmount) (hy : y.IsAmount) :
    Double.min x y = ⟨false, Min.min x.magnitude y.magnitude⟩ := by
  rw [Double.min, if_neg (by simp [hx.isNaN]), if_neg (by simp [hy.isNaN])]
  split
  · rename_i h
    rw [hy.lt_iff hx] at h
    rw [Nat.min_eq_right (Nat.le_of_lt h)]
    exact hy.eq_mk
  · rename_i h
    rw [hy.lt_iff hx] at h
    rw [Nat.min_eq_left (Nat.le_of_not_lt h)]
    exact hx.eq_mk

/-! ## Whole numbers -/

theorem isAmount_ofNat (n : Nat) : (ofNat n).IsAmount := ⟨rfl, roundMagnitude_le _ _⟩

theorem ofNat_mono {n n' : Nat} (h : n ≤ n') : (ofNat n).magnitude ≤ (ofNat n').magnitude :=
  roundMagnitude_mono (Nat.mul_le_mul_right _ h)

/-- The smaller one of two whole numbers. -/
theorem min_ofNat (n n' : Nat) : Double.min (ofNat n) (ofNat n') = ofNat (Min.min n n') := by
  rw [(isAmount_ofNat n).min_eq (isAmount_ofNat n'), (isAmount_ofNat (Min.min n n')).eq_mk]
  rcases Nat.le_total n n' with h | h
  · rw [Nat.min_eq_left h, Nat.min_eq_left (ofNat_mono h)]
  · rw [Nat.min_eq_right h, Nat.min_eq_right (ofNat_mono h)]

theorem ofNat_finite {n : Nat} (h : n < 2 * binade) : (ofNat n).magnitude < infiniteMagnitude :=
  Nat.lt_of_le_of_lt (ofNat_mono (Nat.le_of_lt h)) (by decide +kernel)

theorem exists_one_eq : ∃ e, one = Nat.pow 2 e := by
  unfold one
  generalize 1074 = e
  exact ⟨e, rfl⟩

/-- A whole number with at most 53 binary digits is a double. -/
theorem units_ofNat {n : Nat} (h : n < 2 * binade) : (ofNat n).units = n * one := by
  have hfin : roundMagnitude (n * one) 1 < infiniteMagnitude := ofNat_finite h
  obtain ⟨e, he⟩ := exists_one_eq
  rw [units, ofNat, round]
  rw [he] at hfin ⊢
  exact unitsOf_roundMagnitude h hfin

/-! ## Sums -/

theorem add_eq (hx : x.IsAmount) (hy : y.IsAmount) (hfx : x.magnitude < infiniteMagnitude)
    (hfy : y.magnitude < infiniteMagnitude) :
    x.add y = ⟨false, roundMagnitude (x.units + y.units) 1⟩ := by
  have hxi := hx.isInfinite_iff.2 hfx
  have hyi := hy.isInfinite_iff.2 hfy
  rw [add, if_neg (by simp [hx.isNaN, hy.isNaN]), if_neg (by simp [hxi]), if_neg (by simp [hyi]),
    hx.signedUnits_eq, hy.signedUnits_eq, ofSignedUnits, hx.nonneg]
  have hnn : ¬ ((x.units : Int) + y.units < 0) := by omega
  have habs : ((x.units : Int) + y.units).natAbs = x.units + y.units := by omega
  simp [hnn, habs]

theorem add_of_infinite (hx : x.IsAmount) (hy : y.IsAmount)
    (h : x.magnitude = infiniteMagnitude ∨ y.magnitude = infiniteMagnitude) :
    x.add y = infinity := by
  rw [add, if_neg (by simp [hx.isNaN, hy.isNaN])]
  split
  · rename_i hxi
    rw [if_neg (by simp [hx.nonneg, hy.nonneg]), hx.eq_mk]
    exact congrArg (Double.mk false) (by simpa [isInfinite] using hxi)
  · rename_i hxi
    have hym : y.magnitude = infiniteMagnitude := h.resolve_left (by simpa [isInfinite] using hxi)
    rw [if_pos (by simpa [isInfinite] using hym), hy.eq_mk, hym]
    rfl

/-- Either an infinite operand makes the sum infinite, or both are finite. -/
theorem IsAmount.add_cases (hx : x.IsAmount) (hy : y.IsAmount) :
    x.add y = infinity ∨ x.magnitude < infiniteMagnitude ∧ y.magnitude < infiniteMagnitude ∧
      x.add y = ⟨false, roundMagnitude (x.units + y.units) 1⟩ := by
  rcases Nat.eq_or_lt_of_le hx.le_infinite with hxi | hxf
  · exact .inl (add_of_infinite hx hy (.inl hxi))
  · rcases Nat.eq_or_lt_of_le hy.le_infinite with hyi | hyf
    · exact .inl (add_of_infinite hx hy (.inr hyi))
    · exact .inr ⟨hxf, hyf, add_eq hx hy hxf hyf⟩

theorem IsAmount.add_zero_eq (hx : x.IsAmount) : x.add zero = x := by
  rcases Nat.eq_or_lt_of_le hx.le_infinite with hxi | hxf
  · rw [add_of_infinite hx isAmount_zero (.inl hxi), hx.eq_mk, hxi]
    rfl
  · rw [add_eq hx isAmount_zero hxf (by decide), show zero.units = 0 by decide,
      Nat.add_zero, units, roundMagnitude_unitsOf hx.le_infinite, ← hx.eq_mk]

theorem IsAmount.add (hx : x.IsAmount) (hy : y.IsAmount) : (x.add y).IsAmount := by
  rcases hx.add_cases hy with h | ⟨-, -, h⟩ <;> rw [h]
  · exact ⟨rfl, Nat.le_refl _⟩
  · exact isAmount_nonneg (roundMagnitude_le _ _)

/-- A double that the exact sum reaches is reached by the rounded one. -/
theorem IsAmount.le_add_of_units {m : Nat} (hx : x.IsAmount) (hy : y.IsAmount)
    (hm : m ≤ infiniteMagnitude) (h : unitsOf m ≤ x.units + y.units) :
    m ≤ (x.add y).magnitude := by
  rcases hx.add_cases hy with heq | ⟨-, -, heq⟩ <;> rw [heq]
  · exact hm
  · calc m = roundMagnitude (unitsOf m) 1 := (roundMagnitude_unitsOf hm).symm
      _ ≤ roundMagnitude (x.units + y.units) 1 := roundMagnitude_mono h

theorem IsAmount.le_add_left (hx : x.IsAmount) (hy : y.IsAmount) :
    x.magnitude ≤ (x.add y).magnitude :=
  hx.le_add_of_units hy hx.le_infinite (Nat.le_add_right _ _)

theorem IsAmount.add_mono (hx : x.IsAmount) (hy : y.IsAmount) (hz : z.IsAmount)
    (h : y.magnitude ≤ z.magnitude) : (x.add y).magnitude ≤ (x.add z).magnitude := by
  rcases hx.add_cases hz with heq | ⟨hxf, hzf, heq⟩
  · rw [heq]
    exact (hx.add hy).le_infinite
  · rw [heq, add_eq hx hy hxf (Nat.lt_of_le_of_lt h hzf)]
    exact roundMagnitude_mono (Nat.add_le_add_left (unitsOf_le_unitsOf h hz.le_infinite) _)

/-- What lies between a finite amount and the next one. -/
theorem IsAmount.lt_add (hx : x.IsAmount) (hy : y.IsAmount) (hf : x.magnitude < infiniteMagnitude)
    (h : Nat.pow 2 (x.magnitude / binade - 1) ≤ y.units) : x.magnitude < (x.add y).magnitude :=
  hx.le_add_of_units hy hf
    (Nat.le_trans (unitsOf_succ_le x.magnitude) (Nat.add_le_add_left h x.units))

/-! ## Differences -/

theorem sub_eq (hx : x.IsAmount) (hy : y.IsAmount) (hf : x.magnitude < infiniteMagnitude)
    (h : y.magnitude ≤ x.magnitude) : x.sub y = ⟨false, roundMagnitude (x.units - y.units) 1⟩ := by
  have hle : y.units ≤ x.units := unitsOf_le_unitsOf h hx.le_infinite
  have hxi := hx.isInfinite_iff.2 hf
  have hyn : y.neg.isNaN = false := hy.isNaN
  have hyi : y.neg.isInfinite = false := hy.isInfinite_iff.2 (Nat.lt_of_le_of_lt h hf)
  have hsigned : y.neg.signedUnits = -(y.units : Int) := by
    simp [signedUnits, neg, hy.nonneg, units]
  have hneg : ¬ ((x.units : Int) + -(y.units : Int) < 0) := by omega
  have habs : ((x.units : Int) + -(y.units : Int)).natAbs = x.units - y.units := by omega
  rw [sub, Double.add, if_neg (by simp [hx.isNaN, hyn]), if_neg (by simp [hxi]),
    if_neg (by simp [hyi]), hx.signedUnits_eq, hsigned, ofSignedUnits, hx.nonneg, habs]
  simp [hneg]

/-- A double below `2 ^ 53` is a whole multiple of a power of two that divides one. -/
theorem exists_units_eq {c : Nat} (hc : c < 2 * binade)
    (hxc : x.magnitude ≤ (ofNat c).magnitude) :
    ∃ k s t, k < 2 * binade ∧ x.units = k * Nat.pow 2 s ∧ one = Nat.pow 2 t * Nat.pow 2 s := by
  obtain ⟨e, he⟩ := exists_one_eq
  rcases Nat.lt_or_ge x.magnitude binade with hlt | hge
  · refine ⟨x.magnitude, 0, e, by omega, ?_, by simpa using he⟩
    rw [units, unitsOf_of_lt hlt]
    exact (Nat.mul_one _).symm
  · obtain ⟨s, f, h₁, h₂, hm⟩ := exists_significand hge
    have hunits : x.units = f * Nat.pow 2 s := by rw [units, hm, unitsOf_mul_pow h₁ h₂]
    have hle : x.units ≤ c * one :=
      units_ofNat hc ▸ unitsOf_le_unitsOf hxc (isAmount_ofNat c).le_infinite
    have hs : s ≤ e := by
      refine Nat.le_of_not_lt fun hes => ?_
      have hpow : Nat.pow 2 (e + 1) ≤ Nat.pow 2 s := Nat.pow_le_pow_right (by decide) hes
      have hdouble : Nat.pow 2 (e + 1) = 2 * Nat.pow 2 e := Nat.pow_succ'
      have hpos : 0 < Nat.pow 2 e := Nat.pow_pos (by decide)
      have hup : c * Nat.pow 2 e < 2 * binade * Nat.pow 2 e := (Nat.mul_lt_mul_right hpos).2 hc
      have hlow : binade * (2 * Nat.pow 2 e) ≤ f * Nat.pow 2 s :=
        Nat.mul_le_mul h₁ (hdouble ▸ hpow)
      rw [hunits, he] at hle
      rw [← Nat.mul_assoc, Nat.mul_comm binade 2] at hlow
      omega
    refine ⟨f, s, e - s, h₂, hunits, ?_⟩
    have hsplit : Nat.pow 2 (e - s + s) = Nat.pow 2 (e - s) * Nat.pow 2 s := Nat.pow_add 2 (e - s) s
    rwa [Nat.sub_add_cancel hs, ← he] at hsplit

/-- A whole number taken from a double below `2 ^ 53` leaves the exact difference. -/
theorem units_sub_ofNat {c n : Nat} (hx : x.IsAmount) (hc : c < 2 * binade)
    (hxc : x.magnitude ≤ (ofNat c).magnitude) (hn : n < 2 * binade)
    (h : (ofNat n).magnitude ≤ x.magnitude) : (x.sub (ofNat n)).units = x.units - n * one := by
  have hf : x.magnitude < infiniteMagnitude := Nat.lt_of_le_of_lt hxc (ofNat_finite hc)
  rw [sub_eq hx (isAmount_ofNat n) hf h, units_ofNat hn]
  obtain ⟨k, s, t, hk, hunits, hone⟩ := exists_units_eq hc hxc
  have hdiff : x.units - n * one = (k - n * Nat.pow 2 t) * Nat.pow 2 s := by
    rw [hunits, hone, Nat.sub_mul, Nat.mul_assoc]
  have hfin : roundMagnitude (x.units - n * one) 1 < infiniteMagnitude := by
    refine Nat.lt_of_le_of_lt (roundMagnitude_mono (Nat.sub_le _ _)) ?_
    rw [units, roundMagnitude_unitsOf hx.le_infinite]
    exact hf
  rw [hdiff] at hfin ⊢
  exact unitsOf_roundMagnitude (by omega) hfin

/-! ## Products and quotients -/

theorem mul_eq (hx : x.IsAmount) (hy : y.IsAmount) (hfx : x.magnitude < infiniteMagnitude)
    (hfy : y.magnitude < infiniteMagnitude) :
    x.mul y = ⟨false, roundMagnitude (x.units * y.units) one⟩ := by
  have hxi := hx.isInfinite_iff.2 hfx
  have hyi := hy.isInfinite_iff.2 hfy
  rw [mul, if_neg (by simp [hx.isNaN, hy.isNaN]), if_neg (by simp [hxi, hyi]), hx.nonneg, hy.nonneg]
  rfl

theorem zero_mul_eq (hy : y.IsAmount) (hfy : y.magnitude < infiniteMagnitude) :
    zero.mul y = zero := by
  rw [mul_eq isAmount_zero hy (by decide) hfy, show zero.units = 0 by decide,
    Nat.zero_mul]
  exact congrArg (Double.mk false) (by decide +kernel)

/-- The product of amounts is an amount, or it is infinity times nothing. -/
theorem IsAmount.mul_cases (hx : x.IsAmount) (hy : y.IsAmount) :
    (x.mul y).isNaN = true ∨ x.mul y = infinity ∨
      x.magnitude < infiniteMagnitude ∧ y.magnitude < infiniteMagnitude := by
  rcases Nat.eq_or_lt_of_le hx.le_infinite with hxi | hxf
  · rw [mul, if_neg (by simp [hx.isNaN, hy.isNaN]), if_pos (by simp [isInfinite, hxi])]
    split
    · exact .inl rfl
    · simp [hx.nonneg, hy.nonneg, infinity]
  · rcases Nat.eq_or_lt_of_le hy.le_infinite with hyi | hyf
    · rw [mul, if_neg (by simp [hx.isNaN, hy.isNaN]), if_pos (by simp [isInfinite, hyi])]
      split
      · exact .inl rfl
      · simp [hx.nonneg, hy.nonneg, infinity]
    · exact .inr (.inr ⟨hxf, hyf⟩)

theorem isAmount_infinity : infinity.IsAmount := ⟨rfl, Nat.le_refl _⟩

/-- A product grows with its factors, unless it loses its value. -/
theorem IsAmount.mul_mono {x' y' : Double} (hx : x.IsAmount) (hy : y.IsAmount) (hx' : x'.IsAmount)
    (hy' : y'.IsAmount) (hfx : x.magnitude < infiniteMagnitude)
    (hfy : y.magnitude < infiniteMagnitude) (h : x.magnitude ≤ x'.magnitude)
    (h' : y.magnitude ≤ y'.magnitude) :
    (x'.mul y').isNaN = true ∨
      (x'.mul y').IsAmount ∧ (x.mul y).magnitude ≤ (x'.mul y').magnitude := by
  rw [mul_eq hx hy hfx hfy]
  rcases hx'.mul_cases hy' with hnan | hinf | ⟨hfx', hfy'⟩
  · exact .inl hnan
  · exact .inr (hinf ▸ ⟨isAmount_infinity, roundMagnitude_le _ _⟩)
  · rw [mul_eq hx' hy' hfx' hfy']
    refine .inr ⟨isAmount_nonneg (roundMagnitude_le _ _), roundMagnitude_mono ?_⟩
    exact Nat.mul_le_mul (unitsOf_le_unitsOf h hx'.le_infinite)
      (unitsOf_le_unitsOf h' hy'.le_infinite)

theorem units_pos (hx : x.IsAmount) (h : 0 < x.magnitude) : 0 < x.units :=
  Nat.lt_of_le_of_lt (Nat.zero_le _) (unitsOf_lt_unitsOf h hx.le_infinite)

theorem div_eq (hx : x.IsAmount) (hy : y.IsAmount) (hfx : x.magnitude < infiniteMagnitude)
    (hfy : y.magnitude < infiniteMagnitude) (hpos : 0 < y.magnitude) :
    x.div y = ⟨false, roundMagnitude (x.units * one) y.units⟩ := by
  have hxi := hx.isInfinite_iff.2 hfx
  have hyi := hy.isInfinite_iff.2 hfy
  rw [div, if_neg (by simp [hx.isNaN, hy.isNaN]), if_neg (by simp [hxi]), if_neg (by simp [hyi]),
    if_neg (Nat.ne_of_gt hpos), hx.nonneg, hy.nonneg]
  rfl

/-- Half of a finite amount that is not too small is the double one binade below. -/
theorem half_eq (hx : x.IsAmount) (hf : x.magnitude < infiniteMagnitude)
    (hm : 2 * binade ≤ x.magnitude) : x.div (ofNat 2) = ⟨false, x.magnitude - binade⟩ := by
  obtain ⟨s, f, h₁, h₂, heq⟩ := exists_significand (m := x.magnitude) (by omega)
  obtain ⟨t, rfl⟩ : ∃ t, s = t + 1 := Nat.exists_eq_succ_of_ne_zero (by rintro rfl; omega)
  have hmag : x.magnitude - binade = t * binade + f := by
    rw [heq, Nat.add_mul]
    omega
  have hunits : x.units = f * Nat.pow 2 t * 2 := by
    rw [units, heq, unitsOf_mul_pow h₁ h₂, Nat.mul_assoc]
    rfl
  obtain ⟨e, he⟩ := exists_one_eq
  have hone : 0 < one := he ▸ Nat.pow_pos (by decide)
  have hround : roundMagnitude (x.units * one) (2 * one) = x.magnitude - binade := by
    rw [roundMagnitude_mul_mul _ _ hone, hunits, ← Nat.one_mul 2,
      roundMagnitude_mul_mul _ _ (by decide), roundMagnitude_mul_pow h₁ h₂, hmag]
    exact Nat.min_eq_right (by omega)
  rw [div_eq hx (isAmount_ofNat 2) hf (ofNat_finite (by decide)) (by decide +kernel),
    units_ofNat (by decide), hround]

/-- A finite amount over infinity is nothing. -/
theorem div_of_infinite (hx : x.IsAmount) (hy : y.IsAmount)
    (hfx : x.magnitude < infiniteMagnitude) (h : y.magnitude = infiniteMagnitude) :
    x.div y = zero := by
  have hxi := hx.isInfinite_iff.2 hfx
  rw [div, if_neg (by simp [hx.isNaN, hy.isNaN]), if_neg (by simp [hxi]),
    if_pos (by simp [isInfinite, h]), hx.nonneg, hy.nonneg]
  rfl

/-- A quotient grows with its dividend and shrinks with its divisor, unless that is nothing. -/
theorem IsAmount.div_mono {x' y' : Double} (hx : x.IsAmount) (hy : y.IsAmount) (hx' : x'.IsAmount)
    (hy' : y'.IsAmount) (hfx : x'.magnitude < infiniteMagnitude)
    (hfy : y'.magnitude < infiniteMagnitude) (h : x.magnitude ≤ x'.magnitude)
    (hpos : 0 < y'.magnitude) (h' : y'.magnitude ≤ y.magnitude) :
    (x.div y).IsAmount ∧ (x.div y).magnitude ≤ (x'.div y').magnitude := by
  have hxf : x.magnitude < infiniteMagnitude := Nat.lt_of_le_of_lt h hfx
  rcases Nat.eq_or_lt_of_le hy.le_infinite with hyi | hyf
  · rw [div_of_infinite hx hy hxf hyi]
    exact ⟨isAmount_nonneg (Nat.zero_le _), Nat.zero_le _⟩
  · rw [div_eq hx hy hxf hyf (Nat.lt_of_lt_of_le hpos h'), div_eq hx' hy' hfx hfy hpos]
    refine ⟨isAmount_nonneg (roundMagnitude_le _ _), ?_⟩
    calc roundMagnitude (x.units * one) y.units
      _ ≤ roundMagnitude (x'.units * one) y.units :=
        roundMagnitude_mono (Nat.mul_le_mul_right _ (unitsOf_le_unitsOf h hx'.le_infinite))
      _ ≤ roundMagnitude (x'.units * one) y'.units :=
        roundMagnitude_anti (units_pos hy' hpos) (unitsOf_le_unitsOf h' hy.le_infinite)

/-! ## Spans -/

theorem isFinite_of_isSome_nanos? (h : x.nanos?.isSome = true) : x.isFinite = true := by
  by_contra hinf
  rw [nanos?, if_pos (by simpa using hinf)] at h
  cases h

/-- An amount of seconds is a span if a larger one is. -/
theorem IsAmount.isSome_nanos? (hx : x.IsAmount) (hy : y.IsAmount) (h : x.magnitude ≤ y.magnitude)
    (hspan : y.nanos?.isSome = true) : x.nanos?.isSome = true := by
  have hfy := isFinite_of_isSome_nanos? hspan
  have hfin : y.magnitude < infiniteMagnitude := by simpa [isFinite] using hfy
  have hfx : x.isFinite = true := by simpa [isFinite] using Nat.lt_of_le_of_lt h hfin
  rw [nanos?, if_neg (by simp [hfy]), if_neg (by simp [hy.nonneg])] at hspan
  rw [nanos?, if_neg (by simp [hfx]), if_neg (by simp [hx.nonneg])]
  have hround : roundHalfEven (x.units * Nanos.second) one
      ≤ roundHalfEven (y.units * Nanos.second) one :=
    roundHalfEven_mono (Nat.mul_le_mul_right _ (unitsOf_le_unitsOf h hy.le_infinite))
  have hlongest : roundHalfEven (y.units * Nanos.second) one ≤ Nanos.longest := by
    by_contra hlong
    simp [hlong] at hspan
  simp [Nat.le_trans hround hlongest]

/-- A quotient of seconds is a span if a larger dividend over a smaller divisor is. -/
theorem IsAmount.isSome_nanos?_div {x' y' : Double} (hx : x.IsAmount) (hy : y.IsAmount)
    (hx' : x'.IsAmount) (hy' : y'.IsAmount) (hfx : x'.magnitude < infiniteMagnitude)
    (hfy : y'.magnitude < infiniteMagnitude) (h : x.magnitude ≤ x'.magnitude)
    (hpos : 0 < y'.magnitude) (h' : y'.magnitude ≤ y.magnitude)
    (hspan : (x'.div y').nanos?.isSome = true) :
    (x.div y).IsAmount ∧ (x.div y).nanos?.isSome = true := by
  have hbound := hx'.div_mono hy' hx' hy' hfx hfy (Nat.le_refl _) hpos (Nat.le_refl _)
  have hmono := hx.div_mono hy hx' hy' hfx hfy h hpos h'
  exact ⟨hmono.1, hmono.1.isSome_nanos? hbound.1 hmono.2 hspan⟩

/-- A number of nanoseconds below a second, in seconds. -/
theorem div_second (n : Nat) (hn : n < Nanos.second) :
    div (ofNat n) (ofNat Nanos.second) = round false (n * one) (Nanos.second * one) := by
  have hsmall : n < 2 * binade := Nat.lt_trans hn (by decide)
  have hni := (isAmount_ofNat n).isInfinite_iff.2 (ofNat_finite hsmall)
  have hsi := (isAmount_ofNat Nanos.second).isInfinite_iff.2 (ofNat_finite (by decide))
  have hs0 : (ofNat Nanos.second).magnitude ≠ 0 := by decide +kernel
  rw [div, if_neg (by simp [(isAmount_ofNat n).isNaN, (isAmount_ofNat Nanos.second).isNaN]),
    if_neg (by simp [hni]), if_neg (by simp [hsi]), if_neg hs0, units_ofNat hsmall,
    units_ofNat (by decide)]
  rfl

theorem isAmount_seconds (d : Nat) : (seconds d).IsAmount := by
  rw [seconds, Nanos.subsecond, div_second _ (Nat.mod_lt _ (by decide))]
  exact (isAmount_ofNat _).add (isAmount_nonneg (roundMagnitude_le _ _))

/-- A longer span than a millisecond is not fewer seconds. -/
theorem seconds_milli_le {d : Nat} (h : Nanos.milli ≤ d) :
    (seconds Nanos.milli).magnitude ≤ (seconds d).magnitude := by
  rcases Nat.eq_zero_or_pos (d / Nanos.second) with hz | hpos
  · have hd : d < Nanos.second := Nat.lt_of_div_eq_zero (by decide) hz
    rw [seconds, seconds, Nanos.wholeSeconds, Nanos.wholeSeconds, Nanos.subsecond, Nanos.subsecond,
      hz, Nat.mod_eq_of_lt hd, Nat.mod_eq_of_lt (by decide), Nat.div_eq_of_lt (by decide),
      div_second d hd, div_second Nanos.milli (by decide)]
    exact (isAmount_ofNat 0).add_mono (isAmount_nonneg (roundMagnitude_le _ _))
      (isAmount_nonneg (roundMagnitude_le _ _))
      (roundMagnitude_mono (Nat.mul_le_mul_right _ (Nat.mul_le_mul_right _ h)))
  · calc (seconds Nanos.milli).magnitude ≤ (ofNat 1).magnitude := by decide +kernel
      _ ≤ (ofNat (d / Nanos.second)).magnitude := ofNat_mono hpos
      _ ≤ (seconds d).magnitude := by
        rw [seconds, Nanos.subsecond, div_second _ (Nat.mod_lt _ (by decide))]
        exact (isAmount_ofNat _).le_add_left (isAmount_nonneg (roundMagnitude_le _ _))

/-! ## Exact values -/

theorem one_pos : (0 : Rat) < one := by
  obtain ⟨e, he⟩ := exists_one_eq
  have hpos : 0 < one := he ▸ Nat.pow_pos (by decide)
  exact_mod_cast hpos

theorem IsAmount.value_eq (h : x.IsAmount) : x.value = (x.units : Rat) / one := by
  rw [value, h.signedUnits_eq, Rat.mkRat_eq_div, Int.cast_natCast]

theorem IsAmount.value_nonneg (h : x.IsAmount) : 0 ≤ x.value := by
  rw [h.value_eq]
  exact div_nonneg (Nat.cast_nonneg _) one_pos.le

theorem value_ofNat {n : Nat} (h : n < 2 * binade) : (ofNat n).value = n := by
  rw [(isAmount_ofNat n).value_eq, units_ofNat h, Nat.cast_mul, mul_div_cancel_right₀ _ one_pos.ne']

theorem IsAmount.value_mono (hx : x.IsAmount) (hy : y.IsAmount) (h : x.magnitude ≤ y.magnitude) :
    x.value ≤ y.value := by
  have hle : (x.units : Rat) ≤ y.units := Nat.cast_le.2 (unitsOf_le_unitsOf h hy.le_infinite)
  rw [hx.value_eq, hy.value_eq]
  exact (div_le_div_iff_of_pos_right one_pos).2 hle

theorem IsAmount.sub (hx : x.IsAmount) (hy : y.IsAmount) (hf : x.magnitude < infiniteMagnitude)
    (h : y.magnitude ≤ x.magnitude) :
    (x.sub y).IsAmount ∧ (x.sub y).magnitude ≤ x.magnitude := by
  rw [sub_eq hx hy hf h]
  refine ⟨isAmount_nonneg (roundMagnitude_le _ _), ?_⟩
  calc roundMagnitude (x.units - y.units) 1 ≤ roundMagnitude x.units 1 :=
        roundMagnitude_mono (Nat.sub_le _ _)
    _ = x.magnitude := roundMagnitude_unitsOf hx.le_infinite

/-- Taking a whole number away is exact. -/
theorem value_sub_ofNat {c n : Nat} (hx : x.IsAmount) (hc : c < 2 * binade)
    (hxc : x.magnitude ≤ (ofNat c).magnitude) (hn : n < 2 * binade)
    (h : (ofNat n).magnitude ≤ x.magnitude) : (x.sub (ofNat n)).value = x.value - n := by
  have hf : x.magnitude < infiniteMagnitude := Nat.lt_of_le_of_lt hxc (ofNat_finite hc)
  have hle : n * one ≤ x.units := units_ofNat hn ▸ unitsOf_le_unitsOf h hx.le_infinite
  rw [(hx.sub (isAmount_ofNat n) hf h).1.value_eq, hx.value_eq,
    units_sub_ofNat hx hc hxc hn h, Nat.cast_sub hle, Nat.cast_mul, sub_div,
    mul_div_cancel_right₀ _ one_pos.ne']

end DriveDelta.Double
