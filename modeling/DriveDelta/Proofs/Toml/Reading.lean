import DriveDelta.Proofs.Toml.Numbers
import Mathlib.Data.List.DropRight
import Mathlib.Data.List.TakeDrop
import Mathlib.Data.List.TakeWhile

/-!
# Documents are read as they were written

Each part of a document is read whatever stands behind it, as long as that does not go on with the
part.  The readers of arrays and of documents are given as many steps as there are characters, and
each item and each line has at least one.

## What is here

* `Toml.StringText.text?_append`, `Toml.PathText.path?_append` and
  `Toml.ValueText.value?_append`, the parts of a statement;
* `Toml.StatementText.statement?_append`, a statement, and `Toml.LinesText.statements?_eq`, lines;
* `Toml.DocumentText.parse?_eq`: a text is read as the statements that it was written from.
-/

set_option autoImplicit false

namespace DriveDelta.Toml

variable {rest : List Char}

/-! ## Blanks -/

theorem isSpace_of_blank {w : List Char} (hw : Blank w) : ∀ c ∈ w, isSpace c = true := by
  intro c hc
  rcases hw c hc with rfl | rfl <;> rfl

/-- Blanks are skipped up to what is none. -/
theorem skipSpaces_append {w : List Char} (hw : Blank w)
    (hr : ∀ c ∈ rest.head?, isSpace c = false) : skipSpaces (w ++ rest) = rest := by
  rw [skipSpaces, List.dropWhile_append_of_pos (isSpace_of_blank hw)]
  cases rest with
  | nil => rfl
  | cons c cs => exact List.dropWhile_cons_of_neg (by simp [hr c rfl])

theorem isSpace_of_not_mem {c : Char} {cs : List Char} (h : c ∉ ' ' :: '\t' :: cs) :
    isSpace c = false := by
  simp only [List.mem_cons, not_or] at h
  simp [isSpace, h.1, h.2.1]

/-- A comment ends at the end of its line. -/
theorem CommentText.skipComment_append {c : List Char} (hc : CommentText c)
    (hr : ∀ d ∈ rest.head?, isPlain d = false ∧ d ≠ '#') : skipComment (c ++ rest) = rest := by
  cases hc with
  | absent =>
    rw [List.nil_append, skipComment.eq_def]
    split
    · exact absurd rfl (hr _ rfl).2
    · rfl
  | sign h =>
    rw [List.cons_append, skipComment, List.dropWhile_append_of_pos h]
    cases rest with
    | nil => rfl
    | cons d cs => exact List.dropWhile_cons_of_neg (by simp [(hr d rfl).1])

theorem NewlineText.head_plain {nl : List Char} (hn : NewlineText nl) (cs : List Char) :
    ∀ d ∈ (nl ++ cs).head?, isPlain d = false ∧ d ≠ '#' := by
  have hplain : isPlain '\n' = false ∧ isPlain '\r' = false := by decide
  cases hn <;> simp [hplain]

theorem CommentText.ends_append {c : List Char} (hc : CommentText c) (hr : Ends rest) :
    Ends (c ++ rest) := by
  cases hc with
  | absent => exact hr
  | sign _ => simp [Ends, endings]

theorem NewlineText.ends {nl : List Char} (hn : NewlineText nl) (cs : List Char) :
    Ends (nl ++ cs) := by
  cases hn <;> simp [Ends, endings]

/-! ## Texts -/

/-- The code of a character is read as that character. -/
theorem CodeText.coded?_eq {c : Char} {ds : List Char} (h : CodeText c.toNat ds) :
    coded? ds = some c := by
  have hfold {n : Nat} {ds : List Char} (h : CodeText n ds) :
      ds.foldlM (fun n c => (digit? 16 c).map fun d => n * 16 + d) 0 = some n := by
    induction h with
    | nil => rfl
    | more _ hd upper ih =>
      rw [List.foldlM_append, ih]
      simp [digit?_digitChar (by decide : 16 ∈ bases) hd upper]
  have hvalid : c.toNat.isValidChar := c.valid
  simp [coded?, hfold h, hvalid]

theorem CharText.basic?_append {c : Char} {ts : List Char} (h : CharText c ts) (rest : List Char) :
    basic? (ts ++ rest) = before c (basic? rest) := by
  cases h with
  | plain h hquote hslash =>
    rw [List.singleton_append, basic?.eq_def]
    split <;> rename_i heq <;> cases heq
    · exact absurd rfl hquote
    · exact absurd rfl hslash
    · exact absurd rfl hslash
    · exact absurd rfl hslash
    · simp [h, hslash]
  | short h =>
    simp only [shortEscapes, List.mem_cons, Prod.mk.injEq, List.not_mem_nil, or_false] at h
    rcases h with ⟨rfl, rfl⟩ | ⟨rfl, rfl⟩ | ⟨rfl, rfl⟩ | ⟨rfl, rfl⟩ | ⟨rfl, rfl⟩ | ⟨rfl, rfl⟩ |
      ⟨rfl, rfl⟩ <;> simp [basic?, escaped?]
  | @four ds h hds =>
    match ds, hds, h with
    | [a, b, c, d], _, h => simp [basic?, h.coded?_eq]
  | @eight ds h hds =>
    match ds, hds, h with
    | [a, b, c, d, e, f, g, i], _, h => simp [basic?, h.coded?_eq]

theorem CharsText.basic?_append {cs ts : List Char} (h : CharsText cs ts) (rest : List Char) :
    basic? (ts ++ '"' :: rest) = some (cs, rest) := by
  induction h with
  | nil => rfl
  | cons h _ ih =>
    rw [List.append_assoc, h.basic?_append, ih]
    rfl

/-- Characters of a text do not begin with the quote that ends it. -/
theorem CharsText.head_ne {cs ts : List Char} (h : CharsText cs ts) : ts.head? ≠ some '"' := by
  cases h with
  | nil => simp
  | cons h _ =>
    cases h with
    | plain _ hquote _ => simpa using hquote
    | short _ => simp
    | four _ _ => simp
    | eight _ _ => simp

theorem literal?_append {cs : List Char} (h : ∀ c ∈ cs, isPlain c = true ∧ c ≠ '\x27')
    (rest : List Char) : literal? (cs ++ '\x27' :: rest) = some (cs, rest) := by
  induction cs with
  | nil => rfl
  | cons c cs ih =>
    obtain ⟨⟨hplain, hquote⟩, hcs⟩ := List.forall_mem_cons.1 h
    rw [List.cons_append, literal?.eq_def]
    split <;> rename_i heq <;> cases heq
    · exact absurd rfl hquote
    · rw [if_pos hplain, ih hcs]
      rfl

/-- Only a quote behind an empty text could make it one of several lines. -/
theorem text?_double {ts : List Char} (hts : ts.head? ≠ some '"') (hr : rest.head? ≠ some '"') :
    text? ('"' :: (ts ++ '"' :: rest)) =
      (basic? (ts ++ '"' :: rest)).map fun p => (String.ofList p.1, p.2) := by
  rw [text?.eq_def]
  split
  · rename_i heq
    cases ts with
    | nil => exact absurd (by rw [(List.cons.inj (List.cons.inj heq).2).2]; rfl) hr
    | cons c ts => exact absurd (congrArg some (List.cons.inj (List.cons.inj heq).2).1) hts
  · rename_i heq
    rw [(List.cons.inj heq).2]
  · rename_i heq
    cases heq
  · rename_i heq
    cases heq
  · rename_i hno _ _
    exact (hno _ rfl).elim

theorem text?_single {ts : List Char} (hts : ts.head? ≠ some '\x27')
    (hr : rest.head? ≠ some '\x27') : text? ('\x27' :: (ts ++ '\x27' :: rest)) =
      (literal? (ts ++ '\x27' :: rest)).map fun p => (String.ofList p.1, p.2) := by
  rw [text?.eq_def]
  split
  · rename_i heq
    cases heq
  · rename_i heq
    cases heq
  · rename_i heq
    cases ts with
    | nil => exact absurd (by rw [(List.cons.inj (List.cons.inj heq).2).2]; rfl) hr
    | cons c ts => exact absurd (congrArg some (List.cons.inj (List.cons.inj heq).2).1) hts
  · rename_i heq
    rw [(List.cons.inj heq).2]
  · rename_i hno
    exact (hno _ rfl).elim

theorem StringText.text?_append {s : String} {ts : List Char} (h : StringText s ts)
    (hr : Ends rest) : text? (ts ++ rest) = some (s, rest) := by
  have hall : ∀ c ∈ endings, c ≠ '"' ∧ c ≠ '\x27' := List.all_iff_forall_prop.1 (by decide)
  have hquotes : ∀ c ∈ rest.head?, c ≠ '"' ∧ c ≠ '\x27' := fun c hc => hall c (hr c hc)
  cases h with
  | @double ts h =>
    rw [List.cons_append, List.append_assoc, List.singleton_append,
      text?_double h.head_ne fun hc => (hquotes _ hc).1 rfl, h.basic?_append]
    simp
  | single h =>
    have hhead : s.toList.head? ≠ some '\x27' := fun hc =>
      (h _ (List.mem_of_mem_head? hc)).2 rfl
    rw [List.cons_append, List.append_assoc, List.singleton_append,
      text?_single hhead fun hc => (hquotes _ hc).2 rfl, literal?_append h]
    simp

/-! ## Keys -/

/-- A text in quotes begins with one of them. -/
theorem StringText.exists_quote {s : String} {ts : List Char} (h : StringText s ts) :
    ∃ c tail, ts = c :: tail ∧ (c = '"' ∨ c = '\x27') := by
  cases h with
  | double _ => exact ⟨_, _, rfl, .inl rfl⟩
  | single _ => exact ⟨_, _, rfl, .inr rfl⟩

/-- What may stand behind a key. -/
def EndsKey (cs : List Char) : Prop := ∀ c ∈ cs.head?, c ∈ [' ', '\t', '.', '=', ']']

theorem KeyText.key?_append {s : String} {ts : List Char} (h : KeyText s ts)
    (hr : EndsKey rest) : key? (ts ++ rest) = some (s, rest) := by
  have hall : ∀ c ∈ [' ', '\t', '.', '=', ']'], isBare c = false :=
    List.all_iff_forall_prop.1 (by decide)
  cases h with
  | bare h hne =>
    obtain ⟨c, cs, hcs⟩ := List.exists_cons_of_ne_nil hne
    have hc : isBare c = true := h c (by rw [hcs]; exact List.mem_cons_self)
    have hspan : (s.toList ++ rest).span isBare = (s.toList, rest) := by
      rw [List.span_eq_takeWhile_dropWhile, List.takeWhile_append_of_pos h,
        List.dropWhile_append_of_pos h]
      cases rest with
      | nil => simp
      | cons d ds =>
        have hd : isBare d = false := hall d (hr d rfl)
        simp [hd]
    rw [key?.eq_def]
    split
    · rename_i heq
      rw [hcs] at heq
      obtain rfl := (List.cons.inj heq).1
      exact absurd hc (by decide)
    · rename_i heq
      rw [hcs] at heq
      obtain rfl := (List.cons.inj heq).1
      exact absurd hc (by decide)
    · rw [hspan]
      simp [hne]
  | quoted h =>
    cases h with
    | double h => simp [key?, h.basic?_append]
    | single h => simp [key?, literal?_append h]

/-- No key begins with a blank, with the sign of a comment, or with what else stands on a line. -/
def BeginsKey (cs : List Char) : Prop :=
  ∃ c tail, cs = c :: tail ∧ c ∉ [' ', '\t', '\n', '\r', '#', '[', '\ufeff']

theorem KeyText.beginsKey {s : String} {ts : List Char} (h : KeyText s ts) (cs : List Char) :
    BeginsKey (ts ++ cs) := by
  have hall : ∀ c ∈ [' ', '\t', '\n', '\r', '#', '[', '\ufeff'], isBare c = false :=
    List.all_iff_forall_prop.1 (by decide)
  cases h with
  | bare h hne =>
    obtain ⟨c, tail, hc⟩ := List.exists_cons_of_ne_nil hne
    refine ⟨c, tail ++ cs, by rw [hc]; rfl, fun hmem => ?_⟩
    have hbare := h c (by rw [hc]; exact List.mem_cons_self)
    rw [hall c hmem] at hbare
    cases hbare
  | quoted h =>
    obtain ⟨c, tail, rfl, rfl | rfl⟩ := h.exists_quote
    · exact ⟨_, _, rfl, by decide⟩
    · exact ⟨_, _, rfl, by decide⟩

theorem PathText.beginsKey {path : List String} {ts : List Char} (h : PathText path ts)
    (cs : List Char) : BeginsKey (ts ++ cs) := by
  cases h with
  | last h _ => rw [List.append_assoc]; exact h.beginsKey _
  | more h _ _ _ => rw [List.append_assoc]; exact h.beginsKey _

theorem BeginsKey.isSpace_head {cs : List Char} (h : BeginsKey cs) :
    ∀ c ∈ cs.head?, isSpace c = false := by
  obtain ⟨c, tail, rfl, hc⟩ := h
  simpa using isSpace_of_not_mem hc

/-- Blanks, if there are any, and then what may stand behind a key anyway. -/
theorem EndsKey.append {w : List Char} (hw : Blank w) (hr : EndsKey rest) :
    EndsKey (w ++ rest) := by
  cases w with
  | nil => exact hr
  | cons d w => rcases hw d List.mem_cons_self with rfl | rfl <;> simp [EndsKey]

/-- A path is read up to an equals sign or a bracket. -/
theorem PathText.path?_append {path : List String} {ts : List Char} (h : PathText path ts)
    {n : Nat} (hn : path.length ≤ n) {w : List Char} (hw : Blank w)
    (hr : ∀ c ∈ rest.head?, c = '=' ∨ c = ']') :
    path? n (w ++ (ts ++ rest)) = some (path, rest) := by
  have hend : EndsKey rest := fun c hc => by rcases hr c hc with rfl | rfl <;> decide
  have hspace : ∀ c ∈ rest.head?, isSpace c = false := fun c hc => by
    rcases hr c hc with rfl | rfl <;> rfl
  induction h generalizing n w with
  | @last k ts w' hk hw' =>
    obtain ⟨n, rfl⟩ : ∃ m, n = m + 1 := ⟨n - 1, by simp at hn; omega⟩
    have hkey : skipSpaces (w ++ (ts ++ (w' ++ rest))) = ts ++ (w' ++ rest) :=
      skipSpaces_append hw (hk.beginsKey _).isSpace_head
    rw [List.append_assoc, path?, hkey, hk.key?_append (hend.append hw')]
    simp only [Option.bind_eq_bind, Option.bind_some, skipSpaces_append hw' hspace]
    split
    · exact absurd (hr '.' rfl) (by decide)
    · rfl
  | @more k ks ts w' w'' us hk hw' hw'' hs ih =>
    obtain ⟨n, rfl⟩ : ∃ m, n = m + 1 := ⟨n - 1, by simp at hn; omega⟩
    have hpoint : EndsKey ('.' :: (w'' ++ (us ++ rest))) := by simp [EndsKey]
    have hkey : skipSpaces (w ++ (ts ++ (w' ++ '.' :: (w'' ++ (us ++ rest))))) =
        ts ++ (w' ++ '.' :: (w'' ++ (us ++ rest))) :=
      skipSpaces_append hw (hk.beginsKey _).isSpace_head
    have hbehind : skipSpaces (w' ++ '.' :: (w'' ++ (us ++ rest))) =
        '.' :: (w'' ++ (us ++ rest)) := skipSpaces_append hw' (by simp [isSpace])
    have hrest := ih (by simpa using hn) hw''
    simp only [List.append_assoc, List.cons_append]
    rw [path?, hkey, hk.key?_append (hpoint.append hw')]
    simp [hbehind, hrest]

/-! ## Values -/

/-- A text that begins with no blank and no bracket. -/
def BeginsScalar (cs : List Char) : Prop :=
  ∃ c tail, cs = c :: tail ∧ c ∉ [' ', '\t', '\n', '\r', '#', ']', '[', '\x7b']

theorem ScalarText.beginsScalar {v : Value} {cs : List Char} (h : ScalarText v cs)
    (rest : List Char) : BeginsScalar (cs ++ rest) := by
  cases h with
  | number h =>
    obtain ⟨c, tail, rfl, hc⟩ := h.beginsNumber
    refine ⟨c, tail ++ rest, rfl, fun hmem => hc ?_⟩
    exact List.mem_append_left ['"', '\x27', 't', 'f'] hmem
  | text h =>
    obtain ⟨c, tail, rfl, rfl | rfl⟩ := h.exists_quote
    · exact ⟨_, _, rfl, by decide⟩
    · exact ⟨_, _, rfl, by decide⟩

/-- What begins like a number is a date, a time or a number. -/
theorem scalar?_of_beginsNumber {cs : List Char} (h : BeginsNumber cs) :
    scalar? cs = if beginsMoment cs then moment? cs else number? cs := by
  obtain ⟨c, tail, rfl, hc⟩ := h
  have hne {d : Char} {ds : List Char} (heq : c :: tail = d :: ds) :
      d ∉ ['"', '\x27', 't', 'f'] := by
    rw [← (List.cons.inj heq).1]
    exact fun hmem =>
      hc (List.mem_append_right [' ', '\t', '\n', '\r', '#', ']', '[', '\x7b'] hmem)
  rw [scalar?.eq_def]
  split <;> rename_i heq
  · exact absurd (by decide) (hne heq)
  · exact absurd (by decide) (hne heq)
  · exact absurd (by decide) (hne heq)
  · exact absurd (by decide) (hne heq)
  · rfl

/-- Numbers and texts are read wherever a value may end. -/
theorem ScalarText.scalar?_append {v : Value} {cs : List Char} (h : ScalarText v cs)
    (hr : Ends rest) : scalar? (cs ++ rest) = some (v, rest) := by
  cases h with
  | number h =>
    obtain ⟨c, tail, hcs, hc⟩ := h.beginsNumber
    have hbegins : BeginsNumber (cs ++ rest) := ⟨c, tail ++ rest, by rw [hcs]; rfl, hc⟩
    rw [scalar?_of_beginsNumber hbegins, h.beginsMoment_append hr, if_neg Bool.false_ne_true,
      h.number?_append hr]
  | text h =>
    have hread := h.text?_append hr
    obtain ⟨c, tail, rfl, rfl | rfl⟩ := h.exists_quote
    · rw [List.cons_append] at hread ⊢
      rw [scalar?, hread]
      rfl
    · rw [List.cons_append] at hread ⊢
      rw [scalar?, hread]
      rfl

theorem ScalarText.value?_append {v : Value} {cs : List Char} (h : ScalarText v cs)
    (hr : Ends rest) (n : Nat) : value? n (cs ++ rest) = some (v, rest) := by
  have hread := h.scalar?_append hr
  cases n with
  | zero => rw [value?, hread]
  | succ n =>
    obtain ⟨c, tail, heq, hc⟩ := h.beginsScalar rest
    rw [heq] at hread ⊢
    have hne {d : Char} {ds : List Char} (heq : c :: tail = d :: ds) : d ∉ ['[', '\x7b'] := by
      rw [← (List.cons.inj heq).1]
      exact fun hmem => hc (List.mem_append_right [' ', '\t', '\n', '\r', '#', ']'] hmem)
    rw [value?, hread]
    · exact fun _ heq => absurd (by decide) (hne heq)
    · exact fun _ heq => absurd (by decide) (hne heq)

/-! ## Arrays -/

theorem skipLines_comment {cs nl : List Char} (h : ∀ c ∈ cs, isPlain c = true)
    (hn : NewlineText nl) (rest : List Char) :
    skipLines true (cs ++ (nl ++ rest)) = skipLines false rest := by
  induction cs with
  | nil => cases hn <;> simp [skipLines]
  | cons c cs ih =>
    obtain ⟨hc, hcs⟩ := List.forall_mem_cons.1 h
    have hfeed : c ≠ '\n' := by rintro rfl; exact absurd hc (by decide)
    rw [List.cons_append, skipLines.eq_def]
    split
    · rename_i heq
      cases heq
    · rename_i heq
      obtain rfl := (List.cons.inj heq).1
      exact absurd hc (by decide)
    · rename_i heq
      cases heq
      rw [if_neg hfeed, if_pos rfl, if_pos hc, ih hcs]

/-- A gap is skipped. -/
theorem GapText.skipLines_append {g : List Char} (hg : GapText g) (rest : List Char) :
    skipLines false (g ++ rest) = skipLines false rest := by
  induction hg with
  | nil => rfl
  | space hc _ ih =>
    rw [List.cons_append, ← ih]
    rcases hc with rfl | rfl <;> simp [skipLines, isSpace]
  | line hc hn _ ih =>
    rw [List.append_assoc, List.append_assoc, ← ih]
    cases hc with
    | absent => cases hn <;> simp [skipLines]
    | sign h =>
      rw [List.cons_append, skipLines, if_neg (by decide), if_neg Bool.false_ne_true,
        if_neg (by decide), if_pos rfl, skipLines_comment h hn]
      intro _ hreturn
      cases hreturn

theorem skipLines_of_head {c : Char} (h : c ∉ [' ', '\t', '\n', '\r', '#']) (cs : List Char) :
    skipLines false (c :: cs) = c :: cs := by
  simp only [List.mem_cons, List.not_mem_nil, or_false, not_or] at h
  obtain ⟨hblank, htab, hfeed, hreturn, hsign⟩ := h
  rw [skipLines.eq_def]
  split <;> rename_i heq <;> cases heq
  · exact absurd rfl hreturn
  · simp [isSpace, *]

/-- A gap, if there is one, and then what may stand behind a value anyway. -/
theorem GapText.ends_append {g : List Char} (hg : GapText g) (hr : Ends rest) :
    Ends (g ++ rest) := by
  cases hg with
  | nil => exact hr
  | space hc _ => rcases hc with rfl | rfl <;> simp [Ends, endings]
  | line hc hn _ =>
    rw [List.append_assoc, List.append_assoc]
    exact hc.ends_append (hn.ends _)

section Items

variable {v : Value} {g cs g' : List Char} (hg : GapText g) (h : ScalarText v cs)
  (hg' : GapText g')

include h in
/-- An item is no bracket, and no gap begins with it. -/
theorem ScalarText.exists_head (rest : List Char) : ∃ c tail, cs ++ rest = c :: tail ∧ c ≠ ']' ∧
    skipLines false (c :: tail) = c :: tail := by
  obtain ⟨c, tail, heq, hc⟩ := h.beginsScalar rest
  refine ⟨c, tail, heq, ?_, skipLines_of_head (fun hmem => hc ?_) tail⟩
  · rintro rfl
    exact absurd (by decide) hc
  · exact List.mem_append_left [']', '[', '\x7b'] hmem

include hg h hg'

theorem items?_last (depth n : Nat) (rest : List Char) :
    items? (value? depth) (n + 1) (g ++ (cs ++ (g' ++ ']' :: rest))) = some ([v], rest) := by
  have hend : Ends (']' :: rest) := by simp [Ends, endings]
  have hread := h.value?_append (hg'.ends_append hend) depth
  obtain ⟨c, tail, heq, hne, hhead⟩ := h.exists_head (g' ++ ']' :: rest)
  rw [heq] at hread
  rw [items?, hg.skipLines_append, heq, hhead]
  split
  · rename_i hbracket
    exact absurd (List.cons.inj hbracket).1 hne
  · simp [hread, hg'.skipLines_append, skipLines_of_head]

theorem items?_more (depth n : Nat) (rest : List Char) :
    items? (value? depth) (n + 1) (g ++ (cs ++ (g' ++ ',' :: rest))) =
      (items? (value? depth) n rest).map fun r => (v :: r.1, r.2) := by
  have hend : Ends (',' :: rest) := by simp [Ends, endings]
  have hread := h.value?_append (hg'.ends_append hend) depth
  obtain ⟨c, tail, heq, hne, hhead⟩ := h.exists_head (g' ++ ',' :: rest)
  rw [heq] at hread
  rw [items?, hg.skipLines_append, heq, hhead]
  split
  · rename_i hbracket
    exact absurd (List.cons.inj hbracket).1 hne
  · simp only [hread, hg'.skipLines_append, skipLines_of_head (by decide : ',' ∉ _),
      Option.bind_eq_bind, Option.bind_some]
    cases items? (value? depth) n rest <;> rfl

end Items

/-- An array is read up to its bracket.  Each item takes one step, and has a comma of its own. -/
theorem ItemsText.items?_append {vs : List Value} {ts : List Char} (h : ItemsText vs ts)
    (depth : Nat) {n : Nat} (hn : ts.length ≤ n) (rest : List Char) :
    items? (value? depth) n (ts ++ rest) = some (vs, rest) := by
  induction h generalizing n with
  | close hg =>
    obtain ⟨n, rfl⟩ : ∃ m, n = m + 1 := ⟨n - 1, by simp at hn; omega⟩
    rw [List.append_assoc, items?, hg.skipLines_append, List.singleton_append,
      skipLines_of_head (by decide)]
    rfl
  | last hg h hg' =>
    obtain ⟨n, rfl⟩ : ∃ m, n = m + 1 := ⟨n - 1, by simp at hn; omega⟩
    simp only [List.append_assoc, List.singleton_append]
    exact items?_last hg h hg' depth n rest
  | @more v vs g cs g' ts hg h hg' _ ih =>
    obtain ⟨n, rfl⟩ : ∃ m, n = m + 1 := ⟨n - 1, by simp at hn; omega⟩
    have hrest : ts.length ≤ n := by simp at hn; omega
    simp only [List.append_assoc, List.cons_append]
    rw [items?_more hg h hg', ih hrest]
    rfl

/-- **A value is read as it was written**, where values may nest once at least. -/
theorem ValueText.value?_append {v : Value} {cs : List Char} (h : ValueText v cs)
    (hr : Ends rest) (n : Nat) : value? (n + 1) (cs ++ rest) = some (v, rest) := by
  cases h with
  | scalar h => exact h.value?_append hr (n + 1)
  | @array vs cs h =>
    have hlength : cs.length ≤ (cs ++ rest).length + 1 := by simp; omega
    rw [List.cons_append, value?, h.items?_append n hlength]
    rfl

/-! ## Statements -/

theorem ValueText.isSpace_head {v : Value} {cs : List Char} (h : ValueText v cs) :
    ∀ c ∈ (cs ++ rest).head?, isSpace c = false := by
  cases h with
  | scalar h =>
    obtain ⟨c, tail, heq, hc⟩ := h.beginsScalar rest
    rw [heq]
    simpa using isSpace_of_not_mem hc
  | array h => simp [isSpace]

/-- A key and its value are read with the blanks behind them. -/
theorem entry?_append {path : List String} {v : Value} {ts w vs : List Char}
    (h : PathText path ts) (hshort : path.length ≤ deepest) (hw : Blank w) (hv : ValueText v vs)
    (hr : Ends rest) : entry? (value? deepest) (ts ++ '=' :: (w ++ (vs ++ rest))) =
      some ((path, v), skipSpaces rest) := by
  have hpath : path? deepest (ts ++ '=' :: (w ++ (vs ++ rest))) =
      some (path, '=' :: (w ++ (vs ++ rest))) :=
    h.path?_append hshort blank_nil (by simp)
  have hvalue : value? deepest (vs ++ rest) = some (v, rest) := hv.value?_append hr 78
  rw [ entry?, hpath]
  simp [skipSpaces_append hw hv.isSpace_head, hvalue]

theorem lineEnd?_skipSpaces (cs : List Char) : lineEnd? (skipSpaces cs) = lineEnd? cs := by
  rw [lineEnd?, lineEnd?, skipSpaces, skipSpaces, List.dropWhile_idempotent]

/-- The header of a table has one bracket. -/
theorem statement?_table {path : List String} {w ts : List Char} (hw : Blank w)
    (h : PathText path ts) (hshort : path.length ≤ deepest) (rest : List Char) :
    statement? ('[' :: (w ++ (ts ++ ']' :: rest))) =
      (lineEnd? rest).map fun rest => (.table path, rest) := by
  have hpath : path? deepest (w ++ (ts ++ ']' :: rest)) = some (path, ']' :: rest) :=
    h.path?_append hshort hw (by simp)
  have hbracket : (w ++ (ts ++ ']' :: rest)).head? ≠ some '[' := by
    cases w with
    | nil =>
      obtain ⟨c, tail, heq, hc⟩ := h.beginsKey (']' :: rest)
      rw [List.nil_append, heq]
      rintro hhead
      obtain rfl := Option.some_inj.1 hhead
      exact absurd (by decide) hc
    | cons c w =>
      rintro hhead
      obtain rfl := Option.some_inj.1 hhead
      exact absurd (hw _ List.mem_cons_self) (by decide)
  rw [statement?.eq_def]
  split
  · rename_i heq
    exact absurd (by rw [(List.cons.inj heq).2]; rfl) hbracket
  · rename_i heq
    rw [← (List.cons.inj heq).2, hpath]
    simp only [Option.bind_eq_bind, Option.bind_some]
    cases lineEnd? rest <;> rfl
  · rename_i hno
    exact (hno _ rfl).elim

theorem statement?_entry {path : List String} {v : Value} {ts w vs : List Char}
    (h : PathText path ts) (hshort : path.length ≤ deepest) (hw : Blank w) (hv : ValueText v vs)
    (hr : Ends rest) : statement? (ts ++ '=' :: (w ++ (vs ++ rest))) =
      (lineEnd? rest).map fun rest => (.entry path v, rest) := by
  have hentry := entry?_append h hshort hw hv hr
  obtain ⟨c, tail, heq, hc⟩ := h.beginsKey ('=' :: (w ++ (vs ++ rest)))
  have hne {ds : List Char} (hds : c :: tail = '[' :: ds) : False := by
    obtain rfl := (List.cons.inj hds).1
    exact absurd (by decide) hc
  rw [heq] at hentry ⊢
  rw [statement?.eq_def]
  split
  · rename_i hds
    exact (hne hds).elim
  · rename_i hds
    exact (hne hds).elim
  · rw [hentry]
    simp only [Option.bind_eq_bind, Option.bind_some, lineEnd?_skipSpaces]
    cases lineEnd? rest <;> rfl

theorem StatementText.statement?_append {s : Statement} {t : List Char} (h : StatementText s t)
    (hr : Ends rest) :
    statement? (t ++ rest) = (lineEnd? rest).map fun rest => (s, rest) := by
  cases h with
  | table hw h hshort => simpa using statement?_table hw h hshort rest
  | entry h hshort hw hv => simpa using statement?_entry h hshort hw hv hr

/-! ## Lines -/

/-- Blanks and a comment are skipped up to the end of the line. -/
theorem skipComment_skipSpaces {w c : List Char} (hw : Blank w) (hc : CommentText c)
    (hr : ∀ d ∈ rest.head?, isPlain d = false ∧ d ≠ '#') :
    skipComment (skipSpaces (w ++ (c ++ rest))) = rest := by
  have hspace : ∀ d ∈ (c ++ rest).head?, isSpace d = false := by
    intro d hd
    cases hc with
    | absent =>
      refine Bool.eq_false_iff.2 fun hblank => ?_
      simp only [isSpace, Bool.or_eq_true, beq_iff_eq] at hblank
      rcases hblank with rfl | rfl <;> exact absurd (hr _ hd).1 (by decide)
    | sign _ =>
      obtain rfl := Option.some_inj.1 hd
      rfl
  rw [skipSpaces_append hw hspace, hc.skipComment_append hr]

theorem lineEnd?_append {w c nl : List Char} (hw : Blank w) (hc : CommentText c)
    (hn : NewlineText nl) (rest : List Char) :
    lineEnd? (w ++ (c ++ (nl ++ rest))) = some rest := by
  rw [lineEnd?, skipComment_skipSpaces hw hc (hn.head_plain rest)]
  cases hn <;> rfl

theorem skipComment_skipSpaces_last {w c : List Char} (hw : Blank w) (hc : CommentText c) :
    skipComment (skipSpaces (w ++ c)) = [] := by
  have hskip : skipComment (skipSpaces (w ++ (c ++ []))) = [] :=
    skipComment_skipSpaces hw hc (by simp)
  rwa [List.append_nil] at hskip

theorem lineEnd?_last {w c : List Char} (hw : Blank w) (hc : CommentText c) :
    lineEnd? (w ++ c) = some [] := by
  rw [lineEnd?, skipComment_skipSpaces_last hw hc]

/-- A value may end where only blanks and a comment stand up to the end of the line. -/
theorem ends_append {w c : List Char} (hw : Blank w) (hc : CommentText c) (hr : Ends rest) :
    Ends (w ++ (c ++ rest)) := by
  cases w with
  | nil => exact hc.ends_append hr
  | cons d w => rcases hw d List.mem_cons_self with rfl | rfl <;> simp [Ends, endings]

/-- A statement begins with neither a blank, a line end nor the sign of a comment. -/
theorem StatementText.exists_head {s : Statement} {t : List Char} (h : StatementText s t)
    (rest : List Char) : ∃ c tail, t ++ rest = c :: tail ∧
      c ∉ [' ', '\t', '\n', '\r', '#', '\ufeff'] := by
  cases h with
  | table _ _ _ => exact ⟨_, _, rfl, by decide⟩
  | entry h _ _ _ =>
    rw [List.append_assoc]
    obtain ⟨c, tail, heq, hc⟩ := h.beginsKey _
    have hsub : ∀ d ∈ [' ', '\t', '\n', '\r', '#', '\ufeff'],
        d ∈ [' ', '\t', '\n', '\r', '#', '[', '\ufeff'] := List.all_iff_forall_prop.1 (by decide)
    exact ⟨c, tail, heq, fun hmem => hc (hsub c hmem)⟩

/-- What is read if a statement comes next. -/
theorem statements?_statement {s : Statement} {w t : List Char} (hw : Blank w)
    (hs : StatementText s t) (hr : Ends rest) (n : Nat) :
    statements? (n + 1) (w ++ (t ++ rest)) =
      (lineEnd? rest).bind fun rest => (statements? n rest).map (s :: ·) := by
  obtain ⟨c, tail, heq, hc⟩ := hs.exists_head rest
  have hread := hs.statement?_append hr
  have hspace : ∀ d ∈ (t ++ rest).head?, isSpace d = false := by
    rw [heq]
    simpa using isSpace_of_not_mem hc
  have hskip : skipComment (skipSpaces (w ++ (t ++ rest))) = t ++ rest := by
    rw [skipSpaces_append hw hspace, heq, skipComment.eq_def]
    split
    · rename_i hds
      obtain rfl := (List.cons.inj hds).1
      exact absurd (by decide) hc
    · rfl
  have hne {d : Char} {ds : List Char} (hds : c :: tail = d :: ds)
      (hd : d ∈ [' ', '\t', '\n', '\r', '#', '\ufeff']) : False := by
    obtain rfl := (List.cons.inj hds).1
    exact hc hd
  rw [statements?, hskip, heq]
  rw [heq] at hread
  split
  · rename_i hds
    cases hds
  · rename_i hds
    exact (hne hds (by decide)).elim
  · rename_i hds
    exact (hne hds (by decide)).elim
  · rw [hread]
    simp only [Option.bind_eq_bind]
    cases lineEnd? rest with
    | none => rfl
    | some rest =>
      simp only [Option.map_some, Option.bind_some]
      cases statements? n rest <;> rfl

/-- **Lines are read as the statements on them.**  Each line takes one step, and has a character
that ends it. -/
theorem LinesText.statements?_eq {ss : List Statement} {cs : List Char} (h : LinesText ss cs)
    {n : Nat} (hn : cs.length < n) : statements? n cs = some ss := by
  have hlength {nl : List Char} (h : NewlineText nl) : 0 < nl.length := by cases h <;> simp
  induction h generalizing n with
  | @finish w c hw hc =>
    obtain ⟨n, rfl⟩ : ∃ m, n = m + 1 := ⟨n - 1, by omega⟩
    rw [statements?, skipComment_skipSpaces_last hw hc]
  | @blank ss w c nl cs hw hc hnl _ ih =>
    obtain ⟨n, rfl⟩ : ∃ m, n = m + 1 := ⟨n - 1, by omega⟩
    have hrest : cs.length < n := by
      have := hlength hnl
      simp only [List.length_append] at hn
      omega
    rw [statements?, skipComment_skipSpaces hw hc (hnl.head_plain cs)]
    cases hnl with
    | feed => exact ih hrest
    | carriage => exact ih hrest
  | @last s w t w' c hw hs hw' hc =>
    obtain ⟨n, rfl⟩ : ∃ m, n = m + 1 := ⟨n - 1, by omega⟩
    have hend : Ends (w' ++ (c ++ [])) := ends_append hw' hc (by simp [Ends])
    rw [List.append_nil] at hend
    rw [statements?_statement hw hs hend, lineEnd?_last hw' hc, Option.bind_some]
    obtain ⟨d, tail, heq, -⟩ := hs.exists_head []
    rw [List.append_nil] at heq
    have hpos : 0 < n := by
      rw [heq] at hn
      simp only [List.length_append, List.length_cons] at hn
      omega
    obtain ⟨n, rfl⟩ : ∃ m, n = m + 1 := ⟨n - 1, by omega⟩
    rfl
  | @more s ss w t w' c nl cs hw hs hw' hc hnl _ ih =>
    obtain ⟨n, rfl⟩ : ∃ m, n = m + 1 := ⟨n - 1, by omega⟩
    have hrest : cs.length < n := by
      have := hlength hnl
      simp only [List.length_append] at hn
      omega
    rw [statements?_statement hw hs (ends_append hw' hc (hnl.ends cs)),
      lineEnd?_append hw' hc hnl, Option.bind_some, ih hrest]
    rfl

/-! ## Documents -/

/-- No line begins with a mark of the byte order, as only comments and quoted texts have characters
like that. -/
theorem LinesText.head_ne {ss : List Statement} {cs : List Char} (h : LinesText ss cs) :
    cs.head? ≠ some '\ufeff' := by
  have hblank {w cs : List Char} (hw : Blank w) (h : cs.head? ≠ some '\ufeff') :
      (w ++ cs).head? ≠ some '\ufeff' := by
    cases w with
    | nil => exact h
    | cons c w => rcases hw c List.mem_cons_self with rfl | rfl <;> simp
  have hcomment {c cs : List Char} (hc : CommentText c) (h : cs.head? ≠ some '\ufeff') :
      (c ++ cs).head? ≠ some '\ufeff' := by
    cases hc with
    | absent => exact h
    | sign _ => simp
  have hstatement {s : Statement} {t cs : List Char} (hs : StatementText s t) :
      (t ++ cs).head? ≠ some '\ufeff' := by
    obtain ⟨c, tail, heq, hc⟩ := hs.exists_head cs
    rw [heq]
    intro hhead
    obtain rfl := Option.some_inj.1 hhead
    exact absurd (by decide) hc
  cases h with
  | @finish w c hw hc =>
    have hhead : (c ++ []).head? ≠ some '\ufeff' := hcomment hc (by simp)
    exact hblank hw (by rwa [List.append_nil] at hhead)
  | blank hw hc hn _ => exact hblank hw (hcomment hc (by cases hn <;> simp))
  | last hw hs _ _ => exact hblank hw (hstatement hs)
  | more hw hs _ _ _ _ => exact hblank hw (hstatement hs)

/-- **A text is read as the statements that it was written from.** -/
theorem DocumentText.parse?_eq {ss : List Statement} {cs : List Char} (h : DocumentText ss cs) :
    parse? cs = build? ss := by
  have hbuild {cs : List Char} (h : LinesText ss cs) :
      (statements? (cs.length + 1) cs).bind build? = build? ss := by
    rw [h.statements?_eq (Nat.lt_succ_self _), Option.bind_some]
  cases h with
  | plain h =>
    rw [parse?.eq_def]
    split
    · exact absurd rfl h.head_ne
    · exact hbuild h
  | marked h => exact hbuild h

end DriveDelta.Toml
