import DriveDelta.Proofs.Toml.Text
import Mathlib.Data.Bool.AllAny

/-!
# Numbers are read as they were written

Digits are read from the left, and their text grows to the right: so each lemma about digits leaves
open what stands behind them, and only what ends a number is looked at.

## What is here

* `Toml.Ends` and `Toml.EndsDigits`, what stands behind a value and behind digits;
* `Toml.DigitsText.digits?_append` and `Toml.WholeText.whole?_append`, digits;
* `Toml.NumberText.number?_append`, numbers, and `Toml.NumberText.beginsMoment_append`: no number
  is taken for a date or a time.
-/

set_option autoImplicit false

namespace DriveDelta.Toml

/-! ## Digits -/

/-- The bases that numbers are written in. -/
def bases : List Nat := [2, 8, 10, 16]

theorem digit?_digitChar {base d : Nat} (hb : base ∈ bases) (hd : d < base) (upper : Bool) :
    digit? base (digitChar upper d) = some d := by
  have hall : ∀ base ∈ bases, ∀ d < base, ∀ upper,
      digit? base (digitChar upper d) = some d := by decide
  exact hall base hb d hd upper

theorem moreDigits?_cons {base : Nat} (hb : base ∈ bases) {c : Char} {d : Nat}
    (h : digit? base c = some d) (n k : Nat) (cs : List Char) :
    moreDigits? base n k (c :: cs) = moreDigits? base (n * base + d) (k + 1) cs := by
  have hunderscore : ∀ base ∈ bases, digit? base '_' = none := by decide
  rw [moreDigits?.eq_def]
  split
  · rename_i heq
    cases heq
    rw [hunderscore base hb] at h
    cases h
  · rename_i heq
    cases heq
    rw [hunderscore base hb] at h
    cases h
  · rename_i heq
    cases heq
    rw [h]
  · rename_i heq
    cases heq

/-- What no digit and no underscore follows is the whole number. -/
theorem moreDigits?_end {base : Nat} {cs : List Char}
    (h : ∀ c ∈ cs.head?, c ≠ '_' ∧ digit? base c = none) (n k : Nat) :
    moreDigits? base n k cs = some ((n, k), cs) := by
  cases cs with
  | nil => rfl
  | cons c cs =>
    obtain ⟨hne, hnone⟩ := h c rfl
    rw [moreDigits?.eq_def]
    split
    · rename_i heq
      cases heq
      exact absurd rfl hne
    · rename_i heq
      cases heq
      exact absurd rfl hne
    · rename_i heq
      cases heq
      rw [hnone]
    · rename_i heq
      cases heq

namespace DigitsText

variable {base n k : Nat} {cs : List Char}

/-- Digits that were read are continued by what follows. -/
theorem digits?_append (hb : base ∈ bases) (h : DigitsText base n k cs) (rest : List Char) :
    digits? base (cs ++ rest) = moreDigits? base n k rest := by
  induction h generalizing rest with
  | digit hd upper => simp [digits?, digit?_digitChar hb hd upper]
  | more _ hd upper ih =>
    rw [List.append_assoc, ih, List.singleton_append,
      moreDigits?_cons hb (digit?_digitChar hb hd upper)]
  | apart _ hd upper ih =>
    rw [List.append_assoc, ih, List.cons_append, List.singleton_append, moreDigits?,
      digit?_digitChar hb hd upper, Option.bind_some]

/-- The first characters of digits: at least one digit, up to an underscore if there is one. -/
theorem exists_leading (hb : base ∈ bases) (h : DigitsText base n k cs) :
    ∃ c ds tail, cs = c :: ds ++ tail ∧ (∀ d ∈ c :: ds, (digit? base d).isSome = true) ∧
      ∀ d ∈ tail.head?, d = '_' := by
  have hdigit {d : Nat} (hd : d < base) (upper : Bool) :
      (digit? base (digitChar upper d)).isSome = true := by
    rw [digit?_digitChar hb hd upper]
    rfl
  induction h with
  | digit hd upper =>
    exact ⟨_, [], [], rfl, List.forall_mem_singleton.2 (hdigit hd upper), by simp⟩
  | @more n k d cs _ hd upper ih =>
    obtain ⟨c, ds, tail, rfl, hds, htail⟩ := ih
    cases tail with
    | nil =>
      refine ⟨c, ds ++ [digitChar upper d], [], by simp, ?_, by simp⟩
      rw [← List.cons_append]
      exact List.forall_mem_append.2 ⟨hds, List.forall_mem_singleton.2 (hdigit hd upper)⟩
    | cons t tail => exact ⟨c, ds, t :: (tail ++ [digitChar upper d]), by simp, hds, htail⟩
  | @apart n k d cs _ hd upper ih =>
    obtain ⟨c, ds, tail, rfl, hds, htail⟩ := ih
    cases tail with
    | nil => exact ⟨c, ds, ['_', digitChar upper d], by simp, hds, by simp⟩
    | cons t tail => exact ⟨c, ds, t :: (tail ++ ['_', digitChar upper d]), by simp, hds, htail⟩

end DigitsText

theorem ne_of_digit {c d : Char} (hc : (digit? 10 c).isSome = true) (hd : digit? 10 d = none) :
    c ≠ d := by
  rintro rfl
  rw [hd] at hc
  cases hc

/-! ## What stands behind numbers -/

/-- Blanks, a comment, the end of a line, or a character that goes on with an array or closes it. -/
def endings : List Char := [' ', '\t', '#', '\n', '\r', ',', ']']

/-- What may stand behind a value. -/
def Ends (cs : List Char) : Prop := ∀ c ∈ cs.head?, c ∈ endings

/-- What may stand behind the digits of a decimal number. -/
def EndsDigits (cs : List Char) : Prop := ∀ c ∈ cs.head?, c ∈ endings ++ ['.', 'e', 'E']

variable {rest : List Char}

theorem EndsDigits.of_ends (h : Ends rest) : EndsDigits rest := fun c hc =>
  List.mem_append_left _ (h c hc)

theorem endsDigits_point (cs : List Char) : EndsDigits ('.' :: cs) := by simp [EndsDigits]

theorem EndsDigits.digits?_append (hr : EndsDigits rest) {n k : Nat} {cs : List Char}
    (h : DigitsText 10 n k cs) : digits? 10 (cs ++ rest) = some ((n, k), rest) := by
  have hall : ∀ c ∈ endings ++ ['.', 'e', 'E'], c ≠ '_' ∧ digit? 10 c = none :=
    List.all_iff_forall_prop.1 (by decide)
  rw [h.digits?_append (by decide), moreDigits?_end fun c hc => hall c (hr c hc)]

theorem WholeText.whole?_append {n : Nat} {ws : List Char} (hw : WholeText n ws)
    (hr : EndsDigits rest) : whole? (ws ++ rest) = some (n, rest) := by
  cases hw with
  | zero => rfl
  | digits h hz =>
    have hne : ∀ c ∈ (ws ++ rest).head?, c ≠ '0' := fun c hc heq => by
      obtain ⟨d, ds, tail, rfl, -⟩ := h.exists_leading (by decide)
      exact hz (by simpa [heq] using hc)
    have hwhole : whole? (ws ++ rest) =
        (digits? 10 (ws ++ rest)).map fun p => (p.1.1, p.2) := by
      rw [whole?.eq_def]
      split
      · rename_i heq
        exact absurd rfl (hne '0' (by rw [heq]; rfl))
      · rfl
    rw [hwhole, hr.digits?_append h]
    rfl

/-! ## Exponents -/

/-- Behind its letter an exponent is read with its sign. -/
theorem exponent?_append {negative : Bool} {n k : Nat} {ss ds : List Char}
    (hs : SignText negative ss) (hd : DigitsText 10 n k ds) (hr : Ends rest) :
    exponent? (ss ++ (ds ++ rest)) = some (withSign negative n, rest) := by
  have hread := (EndsDigits.of_ends hr).digits?_append hd
  cases hs with
  | absent =>
    obtain ⟨c, ds', tail, rfl, hds, -⟩ := hd.exists_leading (by decide)
    have hdigit := hds c List.mem_cons_self
    rw [List.nil_append, exponent?.eq_def]
    split
    · rename_i heq
      cases heq
      exact absurd rfl (ne_of_digit hdigit rfl)
    · rename_i heq
      cases heq
      exact absurd rfl (ne_of_digit hdigit rfl)
    · rw [hread]
      rfl
  | plus => simp [exponent?, hread, withSign]
  | minus => simp [exponent?, hread, withSign]

theorem ExponentText.optionalExponent?_append {e : Int} {es : List Char} (h : ExponentText e es)
    (hr : Ends rest) : optionalExponent? (es ++ rest) = some (e, rest) := by
  cases h with
  | absent =>
    rw [List.nil_append, optionalExponent?.eq_def]
    split
    · exact absurd (hr 'e' rfl) (by decide)
    · exact absurd (hr 'E' rfl) (by decide)
    · rfl
  | letter hc hs hd =>
    have hread := exponent?_append hs hd hr
    rcases hc with rfl | rfl
    · simp [optionalExponent?, hread]
    · simp [optionalExponent?, hread]

theorem ExponentText.endsDigits {e : Int} {es : List Char} (h : ExponentText e es)
    (hr : Ends rest) : EndsDigits (es ++ rest) := by
  cases h with
  | absent => exact .of_ends hr
  | letter hc _ _ => rcases hc with rfl | rfl <;> simp [EndsDigits]

/-- An exponent that is written begins with its letter. -/
theorem ExponentText.exists_letter {e : Int} {es : List Char} (h : ExponentText e es)
    (hne : es ≠ []) (hr : Ends rest) : ∃ c tail, es = c :: tail ∧ (c = 'e' ∨ c = 'E') ∧
      exponent? (tail ++ rest) = some (e, rest) := by
  cases h with
  | absent => exact absurd rfl hne
  | letter hc hs hd =>
    refine ⟨_, _, rfl, hc, ?_⟩
    rw [List.append_assoc, exponent?_append hs hd hr]

/-! ## Numbers -/

theorem float?_eq {d : Decimal} (h : d.toDouble ≠ .infinity) :
    float? d = some (.float d.toDouble) := if_neg h

/-- A number without a point and an exponent is a whole number. -/
theorem decimal?_whole {negative : Bool} {n : Nat} {ws : List Char} (hw : WholeText n ws)
    (hr : Ends rest) : decimal? negative (ws ++ rest) =
      (integer? (withSign negative n)).map fun v => (v, rest) := by
  rw [decimal?, hw.whole?_append (.of_ends hr)]
  simp only [Option.bind_eq_bind, Option.bind_some]
  split
  · exact absurd (hr '.' rfl) (by decide)
  · exact absurd (hr 'e' rfl) (by decide)
  · exact absurd (hr 'E' rfl) (by decide)
  · rw [withSign]
    cases integer? (if negative then -(n : Int) else n) <;> rfl

theorem decimal?_fraction {d : Decimal} {n f k : Nat} {e : Int} {ws fs es : List Char}
    (hw : WholeText n ws) (hf : DigitsText 10 f k fs) (he : ExponentText e es)
    (hdigits : d.digits = n * Nat.pow 10 k + f) (hexponent : d.exponent = e - k)
    (hd : d.toDouble ≠ .infinity) (hr : Ends rest) :
    decimal? d.negative (ws ++ '.' :: (fs ++ (es ++ rest))) = some (.float d.toDouble, rest) := by
  have heq : (⟨d.negative, n * Nat.pow 10 k + f, e - k⟩ : Decimal) = d := by
    rw [← hdigits, ← hexponent]
  simp only [decimal?, hw.whole?_append (endsDigits_point _), (he.endsDigits hr).digits?_append hf,
    he.optionalExponent?_append hr, Option.bind_eq_bind, Option.bind_some, heq, float?_eq hd]
  rfl

theorem decimal?_scientific {d : Decimal} {ws es : List Char} (hw : WholeText d.digits ws)
    (he : ExponentText d.exponent es) (hne : es ≠ []) (hd : d.toDouble ≠ .infinity)
    (hr : Ends rest) :
    decimal? d.negative (ws ++ (es ++ rest)) = some (.float d.toDouble, rest) := by
  have hwhole := hw.whole?_append (he.endsDigits hr)
  obtain ⟨c, tail, rfl, hc, hread⟩ := he.exists_letter hne hr
  rw [decimal?, hwhole]
  rcases hc with rfl | rfl
  · simp [hread, float?_eq hd]
  · simp [hread, float?_eq hd]

/-! ## Signs -/

/-- A sign before what would be read without one. -/
theorem SignText.number?_append {negative : Bool} {ss cs : List Char} (hs : SignText negative ss)
    (h : number? cs = signed? false cs) : number? (ss ++ cs) = signed? negative cs := by
  cases hs with
  | absent => exact h
  | plus => rfl
  | minus => rfl

theorem WholeText.exists_leading {n : Nat} {ws : List Char} (hw : WholeText n ws) :
    ∃ c ds tail, ws = c :: ds ++ tail ∧ (∀ d ∈ c :: ds, (digit? 10 d).isSome = true) ∧
      ∀ d ∈ tail.head?, d = '_' := by
  cases hw with
  | zero => exact ⟨'0', [], [], rfl, List.forall_mem_singleton.2 (by decide), by simp⟩
  | digits h _ => exact h.exists_leading (by decide)

/-- Digits are neither a sign nor the name of a number. -/
theorem WholeText.signed?_append {n : Nat} {ws : List Char} (hw : WholeText n ws)
    (negative : Bool) (cs : List Char) :
    signed? negative (ws ++ cs) = decimal? negative (ws ++ cs) := by
  obtain ⟨c, ds, tail, rfl, hds, -⟩ := hw.exists_leading
  have hdigit := hds c List.mem_cons_self
  rw [signed?.eq_def]
  split
  · rename_i heq
    exact absurd (List.cons.inj heq).1 (ne_of_digit hdigit rfl)
  · rename_i heq
    exact absurd (List.cons.inj heq).1 (ne_of_digit hdigit rfl)
  · rfl

/-- What begins with neither a sign nor the mark of a base has no sign. -/
theorem number?_of_unmarked {cs : List Char} (hsign : ∀ c ∈ cs.head?, c ≠ '-' ∧ c ≠ '+')
    (hmark : ∀ c tail, cs = '0' :: c :: tail → c ∉ ['x', 'o', 'b']) :
    number? cs = signed? false cs := by
  rw [number?.eq_def]
  split
  · exact absurd (by decide) (hmark _ _ rfl)
  · exact absurd (by decide) (hmark _ _ rfl)
  · exact absurd (by decide) (hmark _ _ rfl)
  · exact absurd rfl (hsign _ rfl).1
  · exact absurd rfl (hsign _ rfl).2
  · rfl

theorem WholeText.number?_append {n : Nat} {ws : List Char} (hw : WholeText n ws)
    (hr : EndsDigits rest) : number? (ws ++ rest) = signed? false (ws ++ rest) := by
  refine number?_of_unmarked (fun c hc => ?_) fun c tail heq => ?_
  · obtain ⟨d, ds, tail, rfl, hds, -⟩ := hw.exists_leading
    obtain rfl := Option.some_inj.1 hc
    have hdigit := hds d List.mem_cons_self
    exact ⟨ne_of_digit hdigit rfl, ne_of_digit hdigit rfl⟩
  · cases hw with
    | zero =>
      obtain rfl : rest = c :: tail := (List.cons.inj heq).2
      have hall : ∀ c ∈ endings ++ ['.', 'e', 'E'], c ∉ ['x', 'o', 'b'] :=
        List.all_iff_forall_prop.1 (by decide)
      exact hall c (hr c rfl)
    | digits h hz =>
      obtain ⟨d, ds, tail', rfl, -⟩ := h.exists_leading (by decide)
      exact absurd (congrArg some (List.cons.inj heq).1) hz

/-! ## Every number -/

/-- What is made of digits that were read.  The range is left open: with the one of whole numbers
the kernel would count up to its ends. -/
theorem ranged_of_digits (range? : Int → Option Value) (n k : Nat) (cs : List Char) :
    (do
      let ((n, _), cs) ← some ((n, k), cs)
      let v ← range? n
      return (v, cs)) = (range? n).map fun v => (v, cs) := by
  cases h : range? n <;> simp [h]

theorem based?_of_digits {base n k : Nat} {cs : List Char}
    (h : digits? base cs = some ((n, k), rest)) :
    based? base cs = (integer? n).map fun v => (v, rest) := by
  rw [based?, h]
  exact ranged_of_digits integer? n k rest

/-- Digits of a base behind its letter. -/
theorem DigitsText.number?_append {letter : Char} {base n k : Nat} {ds : List Char}
    (hb : (letter, base) ∈ [('x', 16), ('o', 8), ('b', 2)]) (h : DigitsText base n k ds)
    (hr : Ends rest) : number? ('0' :: letter :: (ds ++ rest)) =
      (integer? n).map fun v => (v, rest) := by
  have hbases : ∀ p ∈ [('x', 16), ('o', 8), ('b', 2)], p.2 ∈ bases := by decide
  have hall : ∀ b ∈ bases, endings.all (fun c => c ≠ '_' ∧ digit? b c = none) = true := by decide
  have hbase : base ∈ bases := hbases _ hb
  have hend := List.all_iff_forall_prop.1 (hall base hbase)
  have hread : based? base (ds ++ rest) = (integer? n).map fun v => (v, rest) := by
    refine based?_of_digits (k := k) ?_
    rw [h.digits?_append hbase, moreDigits?_end fun c hc => hend c (hr c hc)]
  rw [← hread]
  simp only [List.mem_cons, Prod.mk.injEq, List.not_mem_nil, or_false] at hb
  rcases hb with ⟨rfl, rfl⟩ | ⟨rfl, rfl⟩ | ⟨rfl, rfl⟩ <;> simp only [number?]

theorem integer?_eq {n : Int} (hlow : -0x8000000000000000 ≤ n) (hhigh : n < 0x8000000000000000) :
    integer? n = some (.integer n) := if_pos ⟨hlow, hhigh⟩

/-- **Each way to write a number is read as that number.** -/
theorem NumberText.number?_append {v : Value} {cs : List Char} (h : NumberText v cs)
    (hr : Ends rest) : number? (cs ++ rest) = some (v, rest) := by
  cases h with
  | whole hs hw hlow hhigh =>
    rw [List.append_assoc, hs.number?_append (hw.number?_append (.of_ends hr)),
      hw.signed?_append, decimal?_whole hw hr, integer?_eq hlow hhigh]
    rfl
  | based hb hd hn =>
    rw [List.cons_append, List.cons_append, hd.number?_append hb hr,
      integer?_eq (by omega) (by omega)]
    rfl
  | @fraction d n f k e ss ws fs es hs hw hf he hdigits hexponent hd =>
    rw [List.append_assoc, List.append_assoc, List.cons_append, List.append_assoc,
      hs.number?_append (hw.number?_append (endsDigits_point _)), hw.signed?_append,
      decimal?_fraction hw hf he hdigits hexponent hd hr]
  | scientific hs hw he hne hd =>
    rw [List.append_assoc, List.append_assoc,
      hs.number?_append (hw.number?_append (he.endsDigits hr)), hw.signed?_append,
      decimal?_scientific hw he hne hd hr]
  | infinite hs =>
    rw [List.append_assoc, hs.number?_append rfl]
    rfl
  | nan hs =>
    rw [List.append_assoc, hs.number?_append rfl]
    rfl

/-! ## Numbers are no dates -/

/-- Digits with a colon or a dash behind them begin a date or a time. -/
theorem exists_of_beginsMoment {cs : List Char} (h : beginsMoment cs = true) :
    ∃ c, (cs.dropWhile fun d => (digit? 10 d).isSome).head? = some c ∧ (c = ':' ∨ c = '-') := by
  have hcolon : digit? 10 ':' = none := by decide
  have hdash : digit? 10 '-' = none := by decide
  rw [beginsMoment.eq_def] at h
  split at h
  · rw [Bool.and_eq_true] at h
    exact ⟨':', by simp [h.1, h.2, hcolon], .inl rfl⟩
  · simp only [List.all_cons, List.all_nil, Bool.and_true, Bool.and_eq_true] at h
    obtain ⟨ha, hb, hc, hd⟩ := h
    exact ⟨'-', by simp [ha, hb, hc, hd, hdash], .inr rfl⟩
  · cases h

theorem beginsMoment_of_dropWhile {cs : List Char}
    (h : ∀ c ∈ (cs.dropWhile fun d => (digit? 10 d).isSome).head?, c ≠ ':' ∧ c ≠ '-') :
    beginsMoment cs = false := by
  refine Bool.eq_false_iff.2 fun hmoment => ?_
  obtain ⟨c, hc, hmark⟩ := exists_of_beginsMoment hmoment
  rcases hmark with rfl | rfl
  · exact (h _ hc).1 rfl
  · exact (h _ hc).2 rfl

theorem WholeText.beginsMoment_append {n : Nat} {ws : List Char} (hw : WholeText n ws)
    (hr : EndsDigits rest) : beginsMoment (ws ++ rest) = false := by
  have hall : ∀ c ∈ endings ++ ['.', 'e', 'E'], digit? 10 c = none ∧ c ≠ ':' ∧ c ≠ '-' :=
    List.all_iff_forall_prop.1 (by decide)
  obtain ⟨c, ds, tail, rfl, hds, htail⟩ := hw.exists_leading
  have hmark : ∀ c ∈ (tail ++ rest).head?, digit? 10 c = none ∧ c ≠ ':' ∧ c ≠ '-' := by
    intro c hc
    cases tail with
    | nil => exact hall c (hr c hc)
    | cons d tail =>
      obtain rfl := htail c hc
      decide
  refine beginsMoment_of_dropWhile ?_
  rw [List.append_assoc, List.dropWhile_append_of_pos hds]
  cases hrest : tail ++ rest with
  | nil => simp
  | cons d tail' =>
    obtain ⟨hnone, hne⟩ := hmark d (by rw [hrest]; rfl)
    rw [List.dropWhile_cons_of_neg (by simp [hnone])]
    simpa using hne

/-- What begins with no digit is no date. -/
theorem beginsMoment_cons {c : Char} (h : digit? 10 c = none) (cs : List Char) :
    beginsMoment (c :: cs) = false := by
  rw [beginsMoment.eq_def]
  split
  · rename_i heq
    cases heq
    rw [h]
    rfl
  · rename_i heq
    cases heq
    rw [List.all_cons, h]
    rfl
  · rfl

theorem SignText.beginsMoment_append {negative : Bool} {ss cs : List Char}
    (hs : SignText negative ss) (h : beginsMoment cs = false) :
    beginsMoment (ss ++ cs) = false := by
  cases hs with
  | absent => exact h
  | plus => exact beginsMoment_cons (by decide) cs
  | minus => exact beginsMoment_cons (by decide) cs

theorem NumberText.beginsMoment_append {v : Value} {cs : List Char} (h : NumberText v cs)
    (hr : Ends rest) : beginsMoment (cs ++ rest) = false := by
  cases h with
  | whole hs hw _ _ =>
    rw [List.append_assoc]
    exact hs.beginsMoment_append (hw.beginsMoment_append (.of_ends hr))
  | @based letter base n k ds hb hd hn =>
    have hall : ∀ p ∈ [('x', 16), ('o', 8), ('b', 2)],
        digit? 10 p.1 = none ∧ p.1 ≠ ':' ∧ p.1 ≠ '-' := by decide
    obtain ⟨hnone, hne⟩ : digit? 10 letter = none ∧ letter ≠ ':' ∧ letter ≠ '-' := hall _ hb
    have hzero : digit? 10 '0' = some 0 := by decide
    refine beginsMoment_of_dropWhile fun c hc => ?_
    obtain rfl : letter = c := by simpa [hzero, hnone] using hc
    exact hne
  | @fraction d n f k e ss ws fs es hs hw hf he _ _ _ =>
    rw [List.append_assoc, List.append_assoc]
    exact hs.beginsMoment_append (hw.beginsMoment_append (endsDigits_point _))
  | scientific hs hw he _ _ =>
    rw [List.append_assoc, List.append_assoc]
    exact hs.beginsMoment_append (hw.beginsMoment_append (he.endsDigits hr))
  | infinite hs =>
    rw [List.append_assoc]
    exact hs.beginsMoment_append (beginsMoment_cons (by decide) _)
  | nan hs =>
    rw [List.append_assoc]
    exact hs.beginsMoment_append (beginsMoment_cons (by decide) _)

/-! ## How numbers begin -/

/-- A text that begins with none of the characters that begin something other than a number. -/
def BeginsNumber (cs : List Char) : Prop :=
  ∃ c tail, cs = c :: tail ∧
    c ∉ [' ', '\t', '\n', '\r', '#', ']', '[', '\x7b', '"', '\x27', 't', 'f']

theorem WholeText.beginsNumber {n : Nat} {ws : List Char} (hw : WholeText n ws)
    (cs : List Char) : BeginsNumber (ws ++ cs) := by
  have hall : ∀ c ∈ [' ', '\t', '\n', '\r', '#', ']', '[', '\x7b', '"', '\x27', 't', 'f'],
      ¬(digit? 10 c).isSome = true := List.all_iff_forall_prop.1 (by decide)
  obtain ⟨c, ds, tail, rfl, hds, -⟩ := hw.exists_leading
  exact ⟨c, _, rfl, fun hc => hall c hc (hds c List.mem_cons_self)⟩

theorem SignText.beginsNumber {negative : Bool} {ss cs : List Char} (hs : SignText negative ss)
    (h : BeginsNumber cs) : BeginsNumber (ss ++ cs) := by
  cases hs with
  | absent => exact h
  | plus => exact ⟨_, _, rfl, by decide⟩
  | minus => exact ⟨_, _, rfl, by decide⟩

theorem NumberText.beginsNumber {v : Value} {cs : List Char} (h : NumberText v cs) :
    BeginsNumber cs := by
  cases h with
  | whole hs hw _ _ => exact hs.beginsNumber (by simpa using hw.beginsNumber [])
  | based _ _ _ => exact ⟨_, _, rfl, by decide⟩
  | fraction hs hw _ _ _ _ _ => exact hs.beginsNumber (hw.beginsNumber _)
  | scientific hs hw _ _ _ => exact hs.beginsNumber (hw.beginsNumber _)
  | infinite hs => exact hs.beginsNumber ⟨_, _, rfl, by decide⟩
  | nan hs => exact hs.beginsNumber ⟨_, _, rfl, by decide⟩

end DriveDelta.Toml
