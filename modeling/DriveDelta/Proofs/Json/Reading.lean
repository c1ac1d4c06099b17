import DriveDelta.Json.Parser
import DriveDelta.Proofs.Json.Strings

/-!
# Reading values

Every text of a value is read as that value.  The tokens of a part of a text do not depend on what
is behind it, except that a number has to end; and what they make of the arrays and objects that are
open is to put one more value into the innermost of them.

## What is here

* `Json.meaning?`, the value that has been read, with its strings put together;
* `Json.DecimalText.lex_between`, a number as one token;
* `Json.Part.IsRead`, how the parts of a text are read, and `Json.Writes.isRead`;
* `Json.parse?_of_document`, a whole text.
-/

set_option autoImplicit false

namespace DriveDelta.Json

/-! ## What has been read -/

/-- Decimal digits; none if one of them is none. -/
def digits? : List Nat → Option (List (Fin 10))
  | [] => some []
  | d :: ds => if h : d < 10 then (digits? ds).map (Fin.mk d h :: ·) else none

/-- A number as it was written down. -/
def Numeral.decimal? (n : Numeral) : Option Decimal :=
  (digits? n.fraction).map fun fraction => ⟨n.negative, n.whole, fraction, n.exponent⟩

mutual

/-- The value that has been read; none if it has a string that is no text. -/
def meaning? : Json → Option Datum
  | null => some .null
  | bool b => some (.bool b)
  | number n => n.decimal?.map .number
  | string s => (textOf? s).map .string
  | array items => (meanings? items).map .array
  | object members => (memberMeanings? members).map .object

def meanings? : List Json → Option (List Datum)
  | [] => some []
  | j :: js => (meaning? j).bind fun v => (meanings? js).map (v :: ·)

def memberMeanings? : List (List Piece × Json) → Option (List (String × Datum))
  | [] => some []
  | (k, j) :: ms =>
    (textOf? k).bind fun name => (meaning? j).bind fun v =>
      (memberMeanings? ms).map ((name, v) :: ·)

end

theorem digits?_eq_some_iff {ds : List Nat} {es : List (Fin 10)} :
    digits? ds = some es ↔ ds = es.map (·.val) := by
  induction ds generalizing es with
  | nil =>
    cases es with
    | nil => exact iff_of_true rfl rfl
    | cons e es => exact iff_of_false (by simp [digits?]) (by simp)
  | cons d ds ih =>
    rw [digits?]
    constructor
    · intro h
      split at h
      · obtain ⟨es', hes', rfl⟩ := Option.map_eq_some_iff.1 h
        rw [List.map_cons, ← ih.1 hes']
      · exact absurd h (by simp)
    · intro h
      cases es with
      | nil => exact absurd h (by simp)
      | cons e es =>
        obtain ⟨rfl, hds⟩ := List.cons.inj h
        rw [dif_pos e.isLt, ih.2 hds]
        rfl

theorem decimal?_eq_some_iff {n : Numeral} {d : Decimal} :
    n.decimal? = some d ↔ n = d.numeral := by
  rw [Numeral.decimal?, Option.map_eq_some_iff]
  constructor
  · rintro ⟨fraction, hfraction, rfl⟩
    rw [Decimal.numeral, ← digits?_eq_some_iff.1 hfraction]
  · rintro rfl
    exact ⟨d.fraction, digits?_eq_some_iff.2 rfl, rfl⟩

/-! ## Tokens that end with a byte -/

/-- A byte that completes a token. -/
theorem lex_of_completes {s : LexState} {b : UInt8} (t : Token)
    (h : lexByte s b = some (.between, [t])) (rest : Bytes) :
    lex s (b :: rest) = (lex .between rest).map (t :: ·) := by
  rw [lex, h]
  rfl

theorem lex_blank {w : Bytes} (h : Blank w) (rest : Bytes) :
    lex .between (w ++ rest) = lex .between rest := by
  have hspace : ∀ b ∈ ascii " \n\t\r", isSpace b = true := by decide +kernel
  induction w with
  | nil => rfl
  | cons b w ih =>
    rw [Blank, List.forall_mem_cons] at h
    have hb : lexByte .between b = some (.between, []) := if_pos (hspace b h.1)
    rw [List.cons_append, lex_of_lexByte _ hb, ih h.2]

/-- A word is read as its token. -/
theorem lex_word (w : Bytes) (hw : w ≠ []) (t : Token) (rest : Bytes) :
    lex (.word w t) (w ++ rest) = (lex .between rest).map (t :: ·) := by
  induction w with
  | nil => exact absurd rfl hw
  | cons b w ih =>
    cases w with
    | nil =>
      refine lex_of_completes t ?_ rest
      rw [lexByte, if_pos rfl]
    | cons b' w =>
      have hb : lexByte (.word (b :: b' :: w) t) b = some (.word (b' :: w) t, []) := by
        rw [lexByte, if_pos rfl]
        simp
      rw [List.cons_append, lex_of_lexByte _ hb]
      exact ih (by simp)

/-! ## Numbers -/

/-- Whether a value ends before these bytes. -/
def Ends : Bytes → Prop
  | [] => True
  | b :: _ => b ∈ ascii " \n\t\r,]\x7d"

theorem ends_append {w rest : Bytes} (hw : Blank w) (h : Ends rest) : Ends (w ++ rest) := by
  have hblank : ∀ b ∈ ascii " \n\t\r", b ∈ ascii " \n\t\r,]\x7d" := by decide +kernel
  cases w with
  | nil => exact h
  | cons b w => exact hblank b (hw b List.mem_cons_self)

theorem ends_char {c : Char} (h : asciiByte c ∈ ascii " \n\t\r,]\x7d") (rest : Bytes) :
    Ends (asciiByte c :: rest) := h

theorem digit?_digitByte (d : Fin 10) : digit? (digitByte d) = some d.val := by
  revert d
  decide

/-- A byte that belongs to a number. -/
theorem lex_next {p : NumberPart} {b : UInt8} (next : NumberPart) (h : p.next? b = some next)
    (negative : Bool) (rest : Bytes) :
    lex (.number negative p) (b :: rest) = lex (.number negative next) rest := by
  refine lex_of_lexByte _ ?_ rest
  rw [lexByte, lexNumber, h]

/-- What is behind a number ends it. -/
theorem lex_finish {p : NumberPart} {negative : Bool} {n : Numeral}
    (h : p.finish? negative = some n) {rest : Bytes} (hrest : Ends rest) :
    lex (.number negative p) rest = (lex .between rest).map (.number n :: ·) := by
  cases rest with
  | nil => rw [lex, lexEnd, h]; rfl
  | cons b rest =>
    have hall : ∀ b ∈ ascii " \n\t\r,]\x7d", digit? b = none ∧ isChar b '.' = false ∧
        isChar b 'e' = false ∧ isChar b 'E' = false := by decide +kernel
    obtain ⟨hdigit, hpoint, he, hE⟩ := hall b hrest
    have hnext : p.next? b = none := by
      cases p with
      | zero | whole | fraction | exponent => simp [NumberPart.next?, hdigit, hpoint, he, hE]
      | sign | point | letter | exponentSign => exact absurd h (by simp [NumberPart.finish?])
    rw [lex, lexByte, lexNumber, hnext, lex, lexByte]
    simp only [hdigit, h]
    cases lexStart b with
    | none => rfl
    | some r => simp [Option.map_map, Function.comp_def]

/-- The part of a number that ends with its whole part. -/
def wholePart (n : Nat) : NumberPart := if n = 0 then .zero else .whole n

theorem lex_whole {s : LexState} {negative : Bool}
    (h : ∀ (d : Fin 10) rest,
      lex s (digitByte d :: rest) = lex (.number negative (wholePart d)) rest)
    {n : Nat} {bs : Bytes} (hn : WholeText n bs) (rest : Bytes) :
    lex s (bs ++ rest) = lex (.number negative (wholePart n)) rest := by
  induction hn generalizing rest with
  | digit d => exact h d rest
  | more hn _ d ih =>
    rw [List.append_assoc, ih, wholePart, if_neg (by omega), wholePart, if_neg (by omega)]
    refine lex_next _ ?_ negative rest
    rw [NumberPart.next?.eq_def, digit?_digitByte]

/-- Digits of an exponent. -/
theorem lex_digits {p : NumberPart} {w : Nat} {ds : List Nat} {negative : Bool}
    (h : ∀ d : Fin 10, p.next? (digitByte d) = some (.exponent w ds negative d)) {n : Nat}
    {bs : Bytes} (hn : DigitsText n bs) (negative' : Bool) (rest : Bytes) :
    lex (.number negative' p) (bs ++ rest) =
      lex (.number negative' (.exponent w ds negative n)) rest := by
  induction hn generalizing rest with
  | digit d => exact lex_next _ (h d) negative' rest
  | more _ d ih =>
    rw [List.append_assoc, ih]
    refine lex_next _ ?_ negative' rest
    rw [NumberPart.next?.eq_def, digit?_digitByte]

/-- The part of a number that ends with its fraction. -/
def fractionPart (w : Nat) : List (Fin 10) → NumberPart
  | [] => wholePart w
  | ds => .fraction w (ds.map (·.val)).reverse

theorem lex_fractionDigits (negative : Bool) (w : Nat) (ds : List Nat) (es : List (Fin 10))
    (rest : Bytes) :
    lex (.number negative (.fraction w ds)) (es.map digitByte ++ rest) =
      lex (.number negative (.fraction w ((es.map (·.val)).reverse ++ ds))) rest := by
  induction es generalizing ds with
  | nil => rfl
  | cons d es ih =>
    have hnext : (NumberPart.fraction w ds).next? (digitByte d) = some (.fraction w (d :: ds)) := by
      rw [NumberPart.next?.eq_def, digit?_digitByte]
    rw [List.map_cons, List.cons_append, lex_next _ hnext, ih, List.map_cons, List.reverse_cons,
      List.append_assoc]
    rfl

theorem lex_fraction (negative : Bool) (w : Nat) (ds : List (Fin 10)) (rest : Bytes) :
    lex (.number negative (wholePart w)) (fractionText ds ++ rest) =
      lex (.number negative (fractionPart w ds)) rest := by
  cases ds with
  | nil => rfl
  | cons d ds =>
    have hpoint : (wholePart w).next? (asciiByte '.') = some (.point w) := by
      rw [wholePart]
      split
      · rename_i hw
        rw [hw]
        rfl
      · rfl
    have hfirst : (NumberPart.point w).next? (digitByte d) = some (.fraction w [d]) := by
      rw [NumberPart.next?.eq_def, digit?_digitByte]
    rw [fractionText, List.cons_append, lex_next _ hpoint, List.map_cons, List.cons_append,
      lex_next _ hfirst, lex_fractionDigits, fractionPart, List.map_cons, List.reverse_cons]
    · exact fun h => absurd h (by simp)
    · exact fun h => absurd h (by simp)

theorem finish?_fractionPart (negative : Bool) (w : Nat) (ds : List (Fin 10)) :
    (fractionPart w ds).finish? negative = some ⟨negative, w, ds.map (·.val), 0⟩ := by
  cases ds with
  | nil =>
    rw [fractionPart, wholePart]
    split
    · rename_i hw
      rw [hw]
      rfl
    · rfl
  | cons d ds =>
    rw [fractionPart, NumberPart.finish?, List.reverse_reverse]
    exact fun h => absurd h (by simp)

/-- The letter of an exponent. -/
theorem next?_letter (w : Nat) (ds : List (Fin 10)) {letter : UInt8}
    (h : letter ∈ ascii "eE") :
    (fractionPart w ds).next? letter = some (.letter w (ds.map (·.val)).reverse) := by
  have hall : ∀ b ∈ ascii "eE", digit? b = none ∧ isChar b '.' = false ∧
      (isChar b 'e' || isChar b 'E') = true := by decide +kernel
  obtain ⟨hdigit, hpoint, hletter⟩ := hall letter h
  cases ds with
  | nil =>
    rw [fractionPart, wholePart]
    split
    · rename_i hw
      simp [NumberPart.next?, hdigit, hpoint, hletter, hw]
    · simp [NumberPart.next?, hdigit, hpoint, hletter]
  | cons d ds =>
    rw [fractionPart]
    · simp [NumberPart.next?, hdigit, hletter]
    · exact fun h => absurd h (by simp)

/-- **A number is read as one token.** -/
theorem DecimalText.lex_between {d : Decimal} {bs : Bytes} (h : DecimalText d bs) {rest : Bytes}
    (hrest : Ends rest) :
    lex .between (bs ++ rest) = (lex .between rest).map (.number d.numeral :: ·) := by
  cases h with
  | @intro ws es hw he =>
    have hwhole (rest : Bytes) : lex .between (signText d.negative ++ (ws ++ rest)) =
        lex (.number d.negative (wholePart d.whole)) rest := by
      have hdigit : ∀ d : Fin 10, lexByte .between (digitByte d) =
          some (.number false (wholePart d), []) := by decide
      have hsigned : ∀ d : Fin 10, NumberPart.sign.next? (digitByte d) =
          some (wholePart d) := by decide
      cases hneg : d.negative with
      | false => exact lex_whole (fun d rest => lex_of_lexByte _ (hdigit d) rest) hw rest
      | true =>
        rw [signText, if_pos rfl, List.singleton_append, lex_of_lexByte (.number true .sign) rfl]
        exact lex_whole (fun d rest => lex_next _ (hsigned d) true rest) hw rest
    have hfinish {p : NumberPart} {e : Int} (hp : p.finish? d.negative =
        some ⟨d.negative, d.whole, d.fraction.map (·.val), e⟩) (he : d.exponent = e) :
        lex (.number d.negative p) rest = (lex .between rest).map (.number d.numeral :: ·) := by
      subst he
      exact lex_finish hp hrest
    rw [List.append_assoc, List.append_assoc, List.append_assoc, hwhole, lex_fraction]
    generalize hexponent : d.exponent = e at he
    cases he with
    | absent => exact hfinish (finish?_fractionPart _ _ _) hexponent
    | unsigned hletter hn =>
      rw [List.cons_append, lex_next _ (next?_letter _ _ hletter),
        lex_digits (fun d => by rw [NumberPart.next?.eq_def, digit?_digitByte]) hn]
      exact hfinish (by rw [NumberPart.finish?, List.reverse_reverse]; rfl) hexponent
    | positive hletter hn =>
      rw [List.cons_append, lex_next _ (next?_letter _ _ hletter), List.cons_append,
        lex_next (.exponentSign d.whole (d.fraction.map (·.val)).reverse false) rfl,
        lex_digits (fun d => by rw [NumberPart.next?.eq_def, digit?_digitByte]) hn]
      exact hfinish (by rw [NumberPart.finish?, List.reverse_reverse]; rfl) hexponent
    | negative hletter hn =>
      rw [List.cons_append, lex_next _ (next?_letter _ _ hletter), List.cons_append,
        lex_next (.exponentSign d.whole (d.fraction.map (·.val)).reverse true) rfl,
        lex_digits (fun d => by rw [NumberPart.next?.eq_def, digit?_digitByte]) hn]
      exact hfinish (by rw [NumberPart.finish?, List.reverse_reverse]; rfl) hexponent

/-! ## Values -/

/-- Go on behind a value. -/
def resume (r : List Frame × Expect) (ts : List Token) : Option Json := parseTokens r.1 r.2 ts

theorem parseTokens_cons (stack : List Frame) (e : Expect) (t : Token) (ts : List Token) :
    parseTokens stack e (t :: ts) = (parseToken stack e t).bind (resume · ts) := by
  cases e <;> rfl

/-- The tokens of some bytes, whatever is behind them. -/
def LexesTo (bs : Bytes) (ts : List Token) : Prop :=
  ∀ rest, lex .between (bs ++ rest) = (lex .between rest).map (ts ++ ·)

/-- How a part of a text is read.  The tokens of a value begin with one that cannot be taken for
the end of an array, and put the value where it belongs. -/
def Part.IsRead (bs : Bytes) : Part → Prop
  | .value v => ∃ t ts j, t ≠ .closeArray ∧ meaning? j = some v ∧
      (∀ rest, Ends rest → lex .between (bs ++ rest) = (lex .between rest).map (t :: ts ++ ·)) ∧
      ∀ stack more, parseTokens stack .value (t :: ts ++ more) = resume (supply j stack) more
  | .items vs => ∃ t ts js, t ≠ .closeArray ∧ meanings? js = some vs ∧ LexesTo bs (t :: ts) ∧
      ∀ items stack more, parseTokens (.array items :: stack) .value (t :: ts ++ more) =
        resume (supply (.array (items.reverse ++ js)) stack) more
  | .afterItem vs => ∃ ts js, meanings? js = some vs ∧ LexesTo bs ts ∧
      (∀ rest, Ends (bs ++ rest)) ∧
      ∀ items stack more, parseTokens stack (.afterItem items) (ts ++ more) =
        resume (supply (.array (items.reverse ++ js)) stack) more
  | .members ms => ∃ name ts js, memberMeanings? js = some ms ∧
      LexesTo bs (.string name :: ts) ∧
      ∀ members stack more, parseTokens stack (.member members) (.string name :: ts ++ more) =
        resume (supply (.object (members.reverse ++ js)) stack) more
  | .afterMember ms => ∃ ts js, memberMeanings? js = some ms ∧ LexesTo bs ts ∧
      (∀ rest, Ends (bs ++ rest)) ∧
      ∀ members stack more, parseTokens stack (.afterMember members) (ts ++ more) =
        resume (supply (.object (members.reverse ++ js)) stack) more

theorem LexesTo.blank {w : Bytes} (h : Blank w) : LexesTo w [] := fun rest =>
  (lex_blank h rest).trans Option.map_id'.symm

theorem LexesTo.append {bs bs' : Bytes} {ts ts' : List Token} (h : LexesTo bs ts)
    (h' : LexesTo bs' ts') : LexesTo (bs ++ bs') (ts ++ ts') := by
  intro rest
  rw [List.append_assoc, h, h', Option.map_map]
  simp only [Function.comp_def, List.append_assoc]

/-- A character that is a token. -/
theorem LexesTo.char {c : Char} {t : Token}
    (h : lexByte .between (asciiByte c) = some (.between, [t])) : LexesTo [asciiByte c] [t] :=
  fun rest => lex_of_completes t h rest

/-- A word is told by its first byte. -/
theorem LexesTo.word {b : UInt8} {w : Bytes} {t : Token} (hw : w ≠ [])
    (h : lexByte .between b = some (.word w t, [])) : LexesTo (b :: w) [t] := by
  intro rest
  rw [List.cons_append, lex_of_lexByte _ h]
  exact lex_word w hw t rest

/-- A value, with blanks on both sides, before something that ends it. -/
theorem LexesTo.value {w bs w' ts : Bytes} {us vs : List Token} (hw : Blank w)
    (h : ∀ rest, Ends rest → lex .between (bs ++ rest) = (lex .between rest).map (us ++ ·))
    (hw' : Blank w') (hts : LexesTo ts vs) (hends : ∀ rest, Ends (ts ++ rest)) :
    LexesTo (w ++ (bs ++ (w' ++ ts))) (us ++ vs) := by
  intro rest
  rw [List.append_assoc, lex_blank hw, List.append_assoc, List.append_assoc,
    h _ (ends_append hw' (hends rest)), lex_blank hw', hts, Option.map_map]
  simp only [Function.comp_def, List.append_assoc]

/-- A value of one token. -/
theorem Part.IsRead.single {bs : Bytes} {v : Datum} (t : Token) (j : Json) (ht : t ≠ .closeArray)
    (hj : meaning? j = some v)
    (hlex : ∀ rest, Ends rest → lex .between (bs ++ rest) = (lex .between rest).map ([t] ++ ·))
    (hparse : ∀ stack, parseValue stack t = some (supply j stack)) :
    Part.IsRead bs (.value v) := by
  refine ⟨t, [], j, ht, hj, hlex, fun stack more => ?_⟩
  rw [List.singleton_append, parseTokens_cons]
  show (parseValue stack t).bind _ = _
  rw [hparse]
  rfl

/-- A value that begins with a bracket. -/
theorem Part.IsRead.bracketed {bs : Bytes} {v : Datum} {c : Char} (t : Token) {ts : List Token}
    (e : Expect) (j : Json) (ht : t ≠ .closeArray) (hj : meaning? j = some v)
    (hc : lexByte .between (asciiByte c) = some (.between, [t])) (hlex : LexesTo bs ts)
    (hparse : ∀ stack, parseValue stack t = some (stack, e))
    (hrest : ∀ stack more, parseTokens stack e (ts ++ more) = resume (supply j stack) more) :
    Part.IsRead (asciiByte c :: bs) (.value v) := by
  refine ⟨t, ts, j, ht, hj, fun rest _ => (LexesTo.char hc).append hlex rest,
    fun stack more => ?_⟩
  rw [List.cons_append, parseTokens_cons]
  show (parseValue stack t).bind _ = _
  rw [hparse]
  exact hrest stack more

/-- The first item of an array. -/
theorem parseTokens_firstItem (stack : List Frame) {t : Token} (ht : t ≠ .closeArray)
    (ts : List Token) :
    parseTokens stack .firstItem (t :: ts) = parseTokens (.array [] :: stack) .value (t :: ts) := by
  rw [parseTokens_cons, parseTokens_cons]
  cases t with
  | closeArray => exact absurd rfl ht
  | _ => rfl

/-- Items are read one after the other. -/
theorem Part.IsRead.items {v : Datum} {vs : List Datum} {w₁ bs w₂ ts : Bytes} (hw₁ : Blank w₁)
    (h : Part.IsRead bs (.value v)) (hw₂ : Blank w₂) (hvs : Part.IsRead ts (.afterItem vs)) :
    Part.IsRead (w₁ ++ (bs ++ (w₂ ++ ts))) (.items (v :: vs)) := by
  obtain ⟨t, us, j, ht, hj, hlex, hparse⟩ := h
  obtain ⟨us', js, hjs, hlex', hends, hparse'⟩ := hvs
  refine ⟨t, us ++ us', j :: js, ht, ?_, LexesTo.value hw₁ hlex hw₂ hlex' hends,
    fun items stack more => ?_⟩
  · rw [meanings?, hj, Option.bind_some, hjs]
    rfl
  · have hitem := hparse (.array items :: stack) (us' ++ more)
    have hrest := hparse' (j :: items) stack more
    rw [List.reverse_cons, List.append_assoc] at hrest
    rw [← List.cons_append, List.append_assoc, hitem]
    exact hrest

/-- Members are read one after the other. -/
theorem Part.IsRead.members {name : String} {v : Datum} {ms : List (String × Datum)}
    {w₁ ns w₂ w₃ bs w₄ ts : Bytes} (hw₁ : Blank w₁) (hn : StringText name ns) (hw₂ : Blank w₂)
    (hw₃ : Blank w₃) (h : Part.IsRead bs (.value v)) (hw₄ : Blank w₄)
    (hms : Part.IsRead ts (.afterMember ms)) :
    Part.IsRead (w₁ ++ (ns ++ (w₂ ++ (asciiByte ':' :: (w₃ ++ (bs ++ (w₄ ++ ts)))))))
      (.members ((name, v) :: ms)) := by
  obtain ⟨ps, hps, hname⟩ := hn.lex_between
  obtain ⟨t, us, j, -, hj, hlex, hparse⟩ := h
  obtain ⟨us', js, hjs, hlex', hends, hparse'⟩ := hms
  have hcolon : LexesTo [asciiByte ':'] [.colon] := .char rfl
  have hall := (LexesTo.blank hw₁).append ((show LexesTo ns [.string ps] from hname).append
    ((LexesTo.blank hw₂).append (hcolon.append (LexesTo.value hw₃ hlex hw₄ hlex' hends))))
  refine ⟨ps, .colon :: (t :: us ++ us'), (ps, j) :: js, ?_, hall, fun members stack more => ?_⟩
  · rw [memberMeanings?, hps, Option.bind_some, hj, Option.bind_some, hjs]
    rfl
  · have hvalue := hparse (.object members ps :: stack) (us' ++ more)
    have hrest := hparse' ((ps, j) :: members) stack more
    rw [List.reverse_cons, List.append_assoc] at hrest
    show parseTokens (.object members ps :: stack) .value (t :: us ++ us' ++ more) = _
    rw [List.append_assoc, hvalue]
    exact hrest

/-- **Every part of a text is read as what it stands for.** -/
theorem Writes.isRead {part : Part} {bs : Bytes} (h : Writes part bs) : part.IsRead bs := by
  induction h with
  | null =>
    exact .single .null .null (by simp) rfl (fun rest _ => LexesTo.word (by decide) rfl rest)
      fun _ => rfl
  | bool b =>
    refine .single (.bool b) (.bool b) (by simp) rfl (fun rest _ => ?_) fun _ => rfl
    cases b with
    | false => exact LexesTo.word (by decide) rfl rest
    | true => exact LexesTo.word (by decide) rfl rest
  | @number d bs h =>
    refine .single (.number d.numeral) (.number d.numeral) (by simp) ?_
      (fun rest hrest => h.lex_between hrest) fun _ => rfl
    rw [meaning?, decimal?_eq_some_iff.2 rfl]
    rfl
  | string h =>
    obtain ⟨ps, hps, hlex⟩ := h.lex_between
    refine .single (.string ps) (.string ps) (by simp) ?_ (fun rest _ => hlex rest) fun _ => rfl
    rw [meaning?, hps]
    rfl
  | emptyArray hw =>
    exact .bracketed .openArray .firstItem (.array []) (by simp) rfl rfl
      ((LexesTo.blank hw).append (.char rfl)) (fun _ => rfl) fun _ _ => rfl
  | array h ih =>
    obtain ⟨t, ts, js, ht, hjs, hlex, hparse⟩ := ih
    refine .bracketed .openArray .firstItem (.array js) (by simp) ?_ rfl hlex (fun _ => rfl)
      fun stack more => ?_
    · rw [meaning?, hjs]
      rfl
    · rw [List.cons_append, parseTokens_firstItem stack ht]
      exact hparse [] stack more
  | emptyObject hw =>
    exact .bracketed .openObject .firstMember (.object []) (by simp) rfl rfl
      ((LexesTo.blank hw).append (.char rfl)) (fun _ => rfl) fun _ _ => rfl
  | object h ih =>
    obtain ⟨name, ts, js, hjs, hlex, hparse⟩ := ih
    refine .bracketed .openObject .firstMember (.object js) (by simp) ?_ rfl hlex (fun _ => rfl)
      fun stack more => ?_
    · rw [meaning?, hjs]
      rfl
    · exact hparse [] stack more
  | items hw₁ h hw₂ ht ih iht => exact .items hw₁ ih hw₂ iht
  | lastItem =>
    refine ⟨[.closeArray], [], rfl, .char rfl, fun rest => ends_char (by decide) _,
      fun items stack more => ?_⟩
    rw [List.append_nil]
    rfl
  | nextItem h ih =>
    obtain ⟨t, ts, js, ht, hjs, hlex, hparse⟩ := ih
    exact ⟨.comma :: t :: ts, js, hjs, (LexesTo.char rfl).append hlex,
      fun rest => ends_char (by decide) _, fun items stack more => hparse items stack more⟩
  | members hw₁ hn hw₂ hw₃ h hw₄ ht ih iht => exact .members hw₁ hn hw₂ hw₃ ih hw₄ iht
  | lastMember =>
    refine ⟨[.closeObject], [], rfl, .char rfl, fun rest => ends_char (by decide) _,
      fun members stack more => ?_⟩
    rw [List.append_nil]
    rfl
  | nextMember h ih =>
    obtain ⟨name, ts, js, hjs, hlex, hparse⟩ := ih
    exact ⟨.comma :: .string name :: ts, js, hjs, (LexesTo.char rfl).append hlex,
      fun rest => ends_char (by decide) _, fun members stack more => hparse members stack more⟩

/-- **A text of a value is read as that value.** -/
theorem parse?_of_document {v : Datum} {body : Bytes} (h : Document v body) :
    ∃ j, parse? body = some j ∧ meaning? j = some v := by
  cases h with
  | @intro w bs w' hw h hw' =>
    obtain ⟨t, ts, j, -, hj, hlex, hparse⟩ := h.isRead
    have hbehind : lex .between w' = some [] := by
      have hblank := lex_blank hw' []
      rwa [List.append_nil] at hblank
    have hends : Ends w' := by
      have happend := ends_append hw' (show Ends [] from trivial)
      rwa [List.append_nil] at happend
    refine ⟨j, ?_, hj⟩
    rw [parse?, tokens?, lex_blank hw, hlex w' hends, hbehind]
    exact hparse [] []

end DriveDelta.Json
