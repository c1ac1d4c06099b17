import DriveDelta.Text.Blank

/-!
# Numerals between blanks

A field that holds a whole number is read in two steps: the blanks around it are cut off, then its
digits are read from the left.  Neither step looks at how many digits there are, so what is read is
the number that the digits denote, however long they are.

## What is here

* `Text.trim_between`: cutting off the blanks leaves what stands between them;
* `Text.digitsFrom_eq` and `Text.natural?_eq`: what a run of digits is read as;
* `Text.Numeral`, one or more digits between blanks, with the number that it denotes, and
  `Text.Numeral.natural?_trim`, which says that this number is read.
-/

set_option autoImplicit false

namespace DriveDelta.Text

/-! ## Cutting off blanks -/

theorem dropWhile_isBlank_append {blanks rest : List Char} (hb : ∀ c ∈ blanks, isBlank c = true)
    (hrest : ∀ c ∈ rest.head?, isBlank c = false) :
    (blanks ++ rest).dropWhile isBlank = rest := by
  rw [List.dropWhile_append_of_pos hb]
  cases rest with
  | nil => rfl
  | cons c cs => simp [hrest c (by simp)]

/-- What has no blank at either end is all that is left when the blanks around it are cut off. -/
theorem trim_between {before cs after : List Char} (hb : ∀ c ∈ before, isBlank c = true)
    (ha : ∀ c ∈ after, isBlank c = true) (hcs : ∀ c ∈ cs, isBlank c = false) (hne : cs ≠ []) :
    trim (before ++ cs ++ after) = cs := by
  have hfront : (before ++ (cs ++ after)).dropWhile isBlank = cs ++ after := by
    obtain ⟨first, others, rfl⟩ := List.exists_cons_of_ne_nil hne
    exact dropWhile_isBlank_append hb fun c hc => hcs c (by simp_all)
  have hback : (after.reverse ++ cs.reverse).dropWhile isBlank = cs.reverse := by
    refine dropWhile_isBlank_append (fun c hc => ha c (List.mem_reverse.1 hc)) fun c hc =>
      hcs c (List.mem_reverse.1 (List.mem_of_mem_head? hc))
  rw [trim, List.append_assoc, hfront, List.reverse_append, hback, List.reverse_reverse]

/-! ## Reading digits -/

theorem digit?_eq {c : Char} (h : c.isDigit = true) : digit? c = some (c.toNat - '0'.toNat) := by
  have hrange : '0' ≤ c ∧ c ≤ '9' := by
    simpa [Char.isDigit, Char.le_def] using h
  simp [digit?, hrange]

theorem isBlank_of_isDigit {c : Char} (h : c.isDigit = true) : isBlank c = false := by
  have hrange : 48 ≤ c.toNat ∧ c.toNat ≤ 57 := by
    simpa [Char.isDigit, UInt32.le_iff_toNat_le] using h
  simp [isBlank]
  omega

/-- A run of digits is read as the number that it continues, whatever its length. -/
theorem digitsFrom_eq {ds : List Char} (h : ∀ c ∈ ds, c.isDigit = true) (n : Nat) :
    digitsFrom n ds = some (Nat.ofDigitChars 10 ds n) := by
  induction ds generalizing n with
  | nil => rfl
  | cons c cs ih =>
    obtain ⟨hc, hcs⟩ := List.forall_mem_cons.1 h
    rw [digitsFrom, digit?_eq hc, Option.bind_some, ih hcs, Nat.ofDigitChars_cons, Nat.mul_comm n]

theorem natural?_eq {ds : List Char} (h : ∀ c ∈ ds, c.isDigit = true) (hne : ds ≠ []) :
    natural? ds = some (Nat.ofDigitChars 10 ds 0) := by
  obtain ⟨c, cs, rfl⟩ := List.exists_cons_of_ne_nil hne
  have hsign : c ≠ '+' := by
    rintro rfl
    exact absurd (h '+' List.mem_cons_self) (by decide)
  rw [natural?.eq_def]
  split <;> simp_all [digitsFrom_eq]

/-! ## Numerals -/

/-- One or more ASCII digits, with any blanks before and after them. -/
structure Numeral where
  before : List Char
  digits : List Char
  after : List Char
  before_blank : ∀ c ∈ before, isBlank c = true
  digits_isDigit : ∀ c ∈ digits, c.isDigit = true
  digits_ne : digits ≠ []
  after_blank : ∀ c ∈ after, isBlank c = true

theorem isBlank_of_mem_nil : ∀ c ∈ ([] : List Char), isBlank c = true := List.forall_mem_nil _

namespace Numeral

variable (x : Numeral)

/-- The characters as they stand in the text. -/
def chars : List Char := x.before ++ x.digits ++ x.after

/-- The number that the digits denote. -/
def value : Nat := Nat.ofDigitChars 10 x.digits 0

/-- Digits with nothing around them. -/
def ofDigits (ds : List Char) (h : ∀ c ∈ ds, c.isDigit = true) (hne : ds ≠ []) : Numeral where
  before := []
  digits := ds
  after := []
  before_blank := isBlank_of_mem_nil
  digits_isDigit := h
  digits_ne := hne
  after_blank := isBlank_of_mem_nil

/-- **A numeral is read as the number that it denotes.**  Neither the blanks nor the count of digits
matter. -/
theorem natural?_trim : natural? (trim x.chars) = some x.value := by
  have hdigits : ∀ c ∈ x.digits, isBlank c = false := fun c hc =>
    isBlank_of_isDigit (x.digits_isDigit c hc)
  rw [chars, trim_between x.before_blank x.after_blank hdigits x.digits_ne]
  exact natural?_eq x.digits_isDigit x.digits_ne

end Numeral

end DriveDelta.Text
