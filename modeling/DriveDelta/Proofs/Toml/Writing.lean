import DriveDelta.Proofs.Double.Rounding
import DriveDelta.Proofs.Toml.Text

/-!
# Everything can be written

Numbers and texts can be written, and so can each list of statements of which each one can be.
Texts and keys are written with a code for each of their characters, and a finite double with all of
its digits: it is a whole number over a power of two, and so a whole number over a power of ten.

## What is here

* `Double.toDouble_decimal`: a finite double is the nearest one to the decimal with its digits;
* `Toml.numberText_natural`, `Toml.exists_numberText_float` and `Toml.exists_valueText_texts`;
* `Toml.exists_linesText`: statements have a text if each of them has one.
-/

set_option autoImplicit false

namespace DriveDelta

/-! ## Doubles -/

namespace Double

/-- How many times the digits of a double are larger than its units. -/
@[irreducible] def scale : Nat := Nat.pow 5 1074

/-- The decimal that has all digits of a finite double. -/
def decimal (x : Double) : Decimal := ⟨x.negative, x.units * scale, -1074⟩

theorem scale_pos : 0 < scale := by decide +kernel

theorem unitsOf_pos {m : Nat} (h : 0 < m) : 0 < unitsOf m := by
  rw [unitsOf]
  split
  · exact h
  · exact Nat.mul_pos (Nat.add_pos_left (by decide) _) (Nat.pow_pos (by decide))

theorem le_log2_mul {k m n : Nat} (hm : 0 < m) (h : Nat.pow 2 k ≤ n) : k ≤ (m * n).log2 := by
  have hn : 0 < n := Nat.lt_of_lt_of_le (Nat.two_pow_pos k) h
  have hmul : Nat.pow 2 k ≤ m * n := Nat.le_trans h (Nat.le_mul_of_pos_left n hm)
  exact (Nat.le_log2 (Nat.ne_of_gt (Nat.mul_pos hm hn))).2 hmul

theorem log2_lt_of_lt {k m n : Nat} (hm : m ≠ 0) (hlt : m < n) (h : n < Nat.pow 2 k) :
    m.log2 < k :=
  (Nat.log2_lt hm).2 (Nat.lt_trans hlt h)

/-- The digits are neither too many nor too few to be looked at. -/
theorem log2_digits {m : Nat} (h : 0 < m) (hfin : m < infiniteMagnitude) :
    2400 ≤ (unitsOf m * scale).log2 ∧ (unitsOf m * scale).log2 < 5000 := by
  have hunits : 0 < unitsOf m := unitsOf_pos h
  have hne : unitsOf m * scale ≠ 0 := Nat.ne_of_gt (Nat.mul_pos hunits scale_pos)
  have hlarge : unitsOf m * scale < unitsOf infiniteMagnitude * scale :=
    Nat.mul_lt_mul_of_pos_right (unitsOf_lt_unitsOf hfin (Nat.le_refl _)) scale_pos
  exact ⟨le_log2_mul hunits (by decide +kernel), log2_lt_of_lt hne hlarge (by decide +kernel)⟩

/-- All digits, over their power of ten, are the double again. -/
theorem round_digits (negative : Bool) {m : Nat} (h : m ≤ infiniteMagnitude) {e : Nat}
    (he : Nat.pow 10 e = scale * one) :
    round negative (unitsOf m * scale) (Nat.pow 10 e) = ⟨negative, m⟩ := by
  have hpos : 0 < scale * one := by decide +kernel
  have hscale := roundMagnitude_mul_mul (unitsOf m) 1 hpos
  rw [Nat.one_mul, roundMagnitude_unitsOf h, ← Nat.mul_assoc] at hscale
  rw [round, he, hscale]

/-- **A finite double is the nearest one to its digits.** -/
theorem toDouble_decimal {x : Double} (hfin : x.magnitude < infiniteMagnitude) :
    x.decimal.toDouble = x := by
  obtain ⟨negative, m⟩ := x
  change ofDecimal negative (unitsOf m * scale) (-1074) = _
  rw [ofDecimal]
  rcases Nat.eq_zero_or_pos m with rfl | hpos
  · rw [unitsOf_of_lt (by decide), Nat.zero_mul, if_pos rfl]
  · obtain ⟨hlow, hhigh⟩ := log2_digits hpos hfin
    have hne : unitsOf m * scale ≠ 0 :=
      Nat.ne_of_gt (Nat.mul_pos (unitsOf_pos hpos) scale_pos)
    rw [if_neg hne, if_neg (by omega), if_pos (by decide), if_neg (by omega)]
    exact round_digits negative (Nat.le_of_lt hfin) (by decide +kernel)

end Double

namespace Toml

/-! ## Numbers -/

/-- The digits of a positive number. -/
theorem exists_digitsText {n : Nat} (h : 0 < n) :
    ∃ k, DigitsText 10 n k (Nat.toDigits 10 n) ∧ (Nat.toDigits 10 n).head? ≠ some '0' := by
  induction n using Nat.strongRecOn with
  | _ n ih =>
    rw [Nat.toDigits_eq_if (by decide)]
    split
    · rename_i hn
      have hzero : ∀ d < 10, 0 < d → Nat.digitChar d ≠ '0' := by decide
      exact ⟨1, .digit hn false, by simpa using hzero n hn h⟩
    · obtain ⟨k, hk, hhead⟩ := ih (n / 10) (by omega) (by omega)
      have hmore := hk.more (Nat.mod_lt n (by decide)) false
      rw [Nat.div_add_mod'] at hmore
      refine ⟨k + 1, hmore, ?_⟩
      cases hdigits : Nat.toDigits 10 (n / 10) with
      | nil => exact absurd hdigits Nat.toDigits_ne_nil
      | cons c cs =>
        rw [hdigits] at hhead
        exact hhead

theorem wholeText_toDigits (n : Nat) : WholeText n (Nat.toDigits 10 n) := by
  rcases Nat.eq_zero_or_pos n with rfl | hpos
  · exact .zero
  · obtain ⟨k, hk, hhead⟩ := exists_digitsText hpos
    exact .digits hk hhead

theorem numberText_natural {n : Nat} (h : n < 0x8000000000000000) :
    NumberText (.integer n) (Nat.toDigits 10 n) := by
  have hsign : withSign false n = n := rfl
  have htext : NumberText (.integer (withSign false n)) ([] ++ Nat.toDigits 10 n) :=
    .whole .absent (wholeText_toDigits n) (by rw [hsign]; omega) (by rw [hsign]; omega)
  rwa [hsign] at htext

/-- What a document can say of a double: any number and infinity with its sign, and that there is no
number. -/
def Sayable (x : Double) : Prop := x.magnitude ≤ Double.infiniteMagnitude ∨ x = .nan

theorem exists_signText (negative : Bool) : ∃ ss, SignText negative ss := by
  cases negative with
  | false => exact ⟨_, .absent⟩
  | true => exact ⟨_, .minus⟩

theorem exists_numberText_float {x : Double} (h : Sayable x) :
    ∃ cs, NumberText (.float x) cs := by
  obtain ⟨ss, hs⟩ := exists_signText x.negative
  rcases h with h | rfl
  · rcases Nat.lt_or_eq_of_le h with hfin | hinf
    · obtain ⟨k, hk, -⟩ := exists_digitsText (n := 1074) (by decide)
      have hexponent : ExponentText (-1074) _ := .letter (.inl rfl) .minus hk
      have hne : x.decimal.toDouble ≠ .infinity := by
        rw [Double.toDouble_decimal hfin]
        rintro rfl
        exact absurd hfin (by decide)
      have htext := NumberText.scientific (d := x.decimal) hs (wholeText_toDigits _) hexponent
        (List.cons_ne_nil _ _) hne
      rw [Double.toDouble_decimal hfin] at htext
      exact ⟨_, htext⟩
    · obtain ⟨negative, m⟩ := x
      obtain rfl : m = Double.infiniteMagnitude := hinf
      exact ⟨_, .infinite hs⟩
  · exact ⟨_, .nan .absent⟩

/-! ## Texts and keys -/

/-- A code in as many digits as may be asked for. -/
theorem exists_codeText {k n : Nat} (h : n < Nat.pow 16 k) :
    ∃ ds, CodeText n ds ∧ ds.length = k := by
  induction k generalizing n with
  | zero =>
    obtain rfl : n = 0 := by simpa using h
    exact ⟨[], .nil, rfl⟩
  | succ k ih =>
    have hdiv : n / 16 < Nat.pow 16 k := by
      rw [Nat.div_lt_iff_lt_mul (by decide)]
      exact h
    obtain ⟨ds, hds, hlength⟩ := ih hdiv
    have hmore := hds.more (Nat.mod_lt n (by decide)) false
    rw [Nat.div_add_mod'] at hmore
    exact ⟨_, hmore, by rw [List.length_append, hlength]; rfl⟩

theorem exists_charText (c : Char) : ∃ ts, CharText c ts := by
  have hc : c.toNat < Nat.pow 16 8 := Nat.lt_of_lt_of_le c.val.toNat_lt (by decide)
  obtain ⟨ds, hds, hlength⟩ := exists_codeText hc
  exact ⟨_, .eight hds hlength⟩

theorem exists_stringText (s : String) : ∃ ts, StringText s ts := by
  have hchars (cs : List Char) : ∃ ts, CharsText cs ts := by
    induction cs with
    | nil => exact ⟨_, .nil⟩
    | cons c cs ih =>
      obtain ⟨ts, hts⟩ := exists_charText c
      obtain ⟨ts', hts'⟩ := ih
      exact ⟨_, .cons hts hts'⟩
  obtain ⟨ts, hts⟩ := hchars s.toList
  exact ⟨_, .double hts⟩

theorem exists_pathText {path : List String} (h : path ≠ []) : ∃ ts, PathText path ts := by
  induction path with
  | nil => exact absurd rfl h
  | cons k path ih =>
    obtain ⟨ts, hts⟩ := exists_stringText k
    cases path with
    | nil => exact ⟨_, .last (.quoted hts) blank_nil⟩
    | cons l path =>
      obtain ⟨us, hus⟩ := ih (List.cons_ne_nil _ _)
      exact ⟨_, .more (.quoted hts) blank_nil blank_nil hus⟩

/-! ## Values and statements -/

theorem exists_valueText_texts (ss : List String) :
    ∃ cs, ValueText (.array (ss.map .text)) cs := by
  have hitems : ∃ ts, ItemsText (ss.map .text) ts := by
    induction ss with
    | nil => exact ⟨_, .close .nil⟩
    | cons s ss ih =>
      obtain ⟨cs, hcs⟩ := exists_stringText s
      obtain ⟨ts, hts⟩ := ih
      exact ⟨_, .more .nil (.text hcs) .nil hts⟩
  obtain ⟨ts, hts⟩ := hitems
  exact ⟨_, .array hts⟩

theorem exists_statementText_table {path : List String} (h : path ≠ [])
    (hshort : path.length ≤ deepest) : ∃ t, StatementText (.table path) t := by
  obtain ⟨ts, hts⟩ := exists_pathText h
  exact ⟨_, .table blank_nil hts hshort⟩

theorem exists_statementText_entry (key : String) {v : Value} (h : ∃ cs, ValueText v cs) :
    ∃ t, StatementText (.entry [key] v) t := by
  obtain ⟨ts, hts⟩ := exists_pathText (List.cons_ne_nil key [])
  obtain ⟨cs, hcs⟩ := h
  exact ⟨_, .entry hts (show 1 ≤ deepest by decide) blank_nil hcs⟩

/-- Statements are written line by line. -/
theorem exists_linesText {ss : List Statement} (h : ∀ s ∈ ss, ∃ t, StatementText s t) :
    ∃ cs, LinesText ss cs := by
  induction ss with
  | nil => exact ⟨_, .finish blank_nil .absent⟩
  | cons s ss ih =>
    obtain ⟨⟨t, ht⟩, hss⟩ := List.forall_mem_cons.1 h
    obtain ⟨cs, hcs⟩ := ih hss
    exact ⟨_, .more blank_nil ht blank_nil .absent .feed hcs⟩

end Toml

end DriveDelta
