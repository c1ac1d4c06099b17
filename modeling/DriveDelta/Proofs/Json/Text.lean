import DriveDelta.Json.Lexer

/-!
# JSON texts

What a JSON value is does not depend on how it is written down, and there are many ways: blanks may
stand between tokens, a character may be escaped, and a number may have an exponent.  This file says
which texts a value has, without regard to how they are read.

## What is here

* `Json.Datum`, a value, with `Json.Decimal`, a number;
* `Json.CharText` and `Json.StringText`, ways to write a string, and `Json.DecimalText`, ways to
  write a number;
* `Json.Writes`, ways to write a value, and `Json.Document`, whole texts;
* `Json.Datum.text`, the text without blanks and with as few escapes as can be, which is one of
  these (`Json.document_text`).
-/

set_option autoImplicit false

namespace DriveDelta.Json

/-! ## Values -/

/-- A number: its sign, the whole part, the digits behind the point, the exponent. -/
structure Decimal where
  negative : Bool
  whole : Nat
  fraction : List (Fin 10)
  exponent : Int
  deriving DecidableEq, Repr

/-- A number as it is kept when it has been read. -/
def Decimal.numeral (d : Decimal) : Numeral where
  negative := d.negative
  whole := d.whole
  fraction := d.fraction.map (·.val)
  exponent := d.exponent

/-- A JSON value. -/
inductive Datum where
  | null
  | bool (b : Bool)
  | number (d : Decimal)
  | string (s : String)
  | array (items : List Datum)
  | object (members : List (String × Datum))

/-! ## Characters and strings -/

/-- The byte of a character in ASCII. -/
def asciiByte (c : Char) : UInt8 := UInt8.ofNat c.toNat

/-- What may stand between tokens. -/
def Blank (bs : Bytes) : Prop := ∀ b ∈ bs, b ∈ ascii " \n\t\r"

/-- A hexadecimal digit, in upper or lower case. -/
def hexDigit (upper : Bool) (d : Nat) : UInt8 :=
  UInt8.ofNat (if d < 10 then 48 + d else if upper then 55 + d else 87 + d)

/-- The cases of the digits of an escape. -/
structure Cases where
  first : Bool
  second : Bool
  third : Bool
  fourth : Bool

/-- The escape of a UTF-16 unit. -/
def unitEscape (u : Cases) (n : Nat) : Bytes :=
  [asciiByte '\\', asciiByte 'u', hexDigit u.first (n / 4096 % 16),
    hexDigit u.second (n / 256 % 16), hexDigit u.third (n / 16 % 16), hexDigit u.fourth (n % 16)]

/-- The letters of the short escapes, with what they stand for. -/
def shortEscapes : List (Char × Char) :=
  [('"', '"'), ('\\', '\\'), ('/', '/'), ('b', '\x08'), ('f', '\x0c'), ('n', '\n'), ('r', '\r'),
    ('t', '\t')]

/-- The units of the surrogate pair of a character. -/
def highUnit (c : Char) : Nat := 0xD800 + (c.toNat - 0x10000) / 0x400

def lowUnit (c : Char) : Nat := 0xDC00 + (c.toNat - 0x10000) % 0x400

/-- The ways to write a character of a string. -/
inductive CharText : Char → Bytes → Prop where
  /-- As it is, if it is no control character and not special. -/
  | plain {c : Char} (h : 0x20 ≤ c.toNat) (hquote : c ≠ '"') (hslash : c ≠ '\\') :
      CharText c (String.utf8EncodeChar c)
  | short {letter c : Char} (h : (letter, c) ∈ shortEscapes) :
      CharText c [asciiByte '\\', asciiByte letter]
  | unit {c : Char} (h : c.toNat < 0x10000) (u : Cases) : CharText c (unitEscape u c.toNat)
  | pair {c : Char} (h : 0x10000 ≤ c.toNat) (u u' : Cases) :
      CharText c (unitEscape u (highUnit c) ++ unitEscape u' (lowUnit c))

/-- The ways to write characters one after the other. -/
inductive CharsText : List Char → Bytes → Prop where
  | nil : CharsText [] []
  | cons {c : Char} {cs : List Char} {bs bs' : Bytes} (h : CharText c bs) (hs : CharsText cs bs') :
      CharsText (c :: cs) (bs ++ bs')

/-- The ways to write a string. -/
inductive StringText (s : String) : Bytes → Prop where
  | quoted {bs : Bytes} (h : CharsText s.toList bs) :
      StringText s (asciiByte '"' :: (bs ++ [asciiByte '"']))

/-! ## Numbers -/

def digitByte (d : Fin 10) : UInt8 := UInt8.ofNat (48 + d)

/-- Decimal digits. -/
inductive DigitsText : Nat → Bytes → Prop where
  | digit (d : Fin 10) : DigitsText d [digitByte d]
  | more {n : Nat} {bs : Bytes} (h : DigitsText n bs) (d : Fin 10) :
      DigitsText (n * 10 + d) (bs ++ [digitByte d])

/-- Decimal digits without a leading zero. -/
inductive WholeText : Nat → Bytes → Prop where
  | digit (d : Fin 10) : WholeText d [digitByte d]
  | more {n : Nat} {bs : Bytes} (hn : 0 < n) (h : WholeText n bs) (d : Fin 10) :
      WholeText (n * 10 + d) (bs ++ [digitByte d])

/-- The point with the digits behind it, if there are any. -/
def fractionText : List (Fin 10) → Bytes
  | [] => []
  | ds => asciiByte '.' :: ds.map digitByte

/-- The ways to write an exponent. -/
inductive ExponentText : Int → Bytes → Prop where
  | absent : ExponentText 0 []
  | unsigned {letter : UInt8} {n : Nat} {bs : Bytes} (hletter : letter ∈ ascii "eE")
      (h : DigitsText n bs) : ExponentText n (letter :: bs)
  | positive {letter : UInt8} {n : Nat} {bs : Bytes} (hletter : letter ∈ ascii "eE")
      (h : DigitsText n bs) : ExponentText n (letter :: asciiByte '+' :: bs)
  | negative {letter : UInt8} {n : Nat} {bs : Bytes} (hletter : letter ∈ ascii "eE")
      (h : DigitsText n bs) : ExponentText (-n) (letter :: asciiByte '-' :: bs)

def signText (negative : Bool) : Bytes := if negative then [asciiByte '-'] else []

/-- The ways to write a number. -/
inductive DecimalText (d : Decimal) : Bytes → Prop where
  | intro {ws es : Bytes} (hw : WholeText d.whole ws) (he : ExponentText d.exponent es) :
      DecimalText d (signText d.negative ++ (ws ++ (fractionText d.fraction ++ es)))

/-! ## Values and documents -/

/-- What a part of a text stands for.  An array or object is taken apart into its items or members,
each with what is behind it up to the bracket that closes it. -/
inductive Part where
  | value (v : Datum)
  /-- Items from one of them on. -/
  | items (vs : List Datum)
  /-- What stands behind an item: a comma and further items, or the bracket. -/
  | afterItem (vs : List Datum)
  | members (ms : List (String × Datum))
  | afterMember (ms : List (String × Datum))

/-- The ways to write a part. -/
inductive Writes : Part → Bytes → Prop where
  | null : Writes (.value .null) (ascii "null")
  | bool (b : Bool) : Writes (.value (.bool b)) (ascii (if b then "true" else "false"))
  | number {d : Decimal} {bs : Bytes} (h : DecimalText d bs) : Writes (.value (.number d)) bs
  | string {s : String} {bs : Bytes} (h : StringText s bs) : Writes (.value (.string s)) bs
  | emptyArray {w : Bytes} (hw : Blank w) :
      Writes (.value (.array [])) (asciiByte '[' :: (w ++ [asciiByte ']']))
  | array {vs : List Datum} {bs : Bytes} (h : Writes (.items vs) bs) :
      Writes (.value (.array vs)) (asciiByte '[' :: bs)
  | emptyObject {w : Bytes} (hw : Blank w) :
      Writes (.value (.object [])) (asciiByte '\x7b' :: (w ++ [asciiByte '\x7d']))
  | object {ms : List (String × Datum)} {bs : Bytes} (h : Writes (.members ms) bs) :
      Writes (.value (.object ms)) (asciiByte '\x7b' :: bs)
  | items {v : Datum} {vs : List Datum} {w₁ bs w₂ ts : Bytes} (hw₁ : Blank w₁)
      (h : Writes (.value v) bs) (hw₂ : Blank w₂) (ht : Writes (.afterItem vs) ts) :
      Writes (.items (v :: vs)) (w₁ ++ (bs ++ (w₂ ++ ts)))
  | lastItem : Writes (.afterItem []) [asciiByte ']']
  | nextItem {vs : List Datum} {bs : Bytes} (h : Writes (.items vs) bs) :
      Writes (.afterItem vs) (asciiByte ',' :: bs)
  | members {name : String} {v : Datum} {ms : List (String × Datum)} {w₁ ns w₂ w₃ bs w₄ ts : Bytes}
      (hw₁ : Blank w₁) (hn : StringText name ns) (hw₂ : Blank w₂) (hw₃ : Blank w₃)
      (h : Writes (.value v) bs) (hw₄ : Blank w₄) (ht : Writes (.afterMember ms) ts) :
      Writes (.members ((name, v) :: ms))
        (w₁ ++ (ns ++ (w₂ ++ (asciiByte ':' :: (w₃ ++ (bs ++ (w₄ ++ ts)))))))
  | lastMember : Writes (.afterMember []) [asciiByte '\x7d']
  | nextMember {ms : List (String × Datum)} {bs : Bytes} (h : Writes (.members ms) bs) :
      Writes (.afterMember ms) (asciiByte ',' :: bs)

/-- The texts of a value. -/
inductive Document (v : Datum) : Bytes → Prop where
  | intro {w bs w' : Bytes} (hw : Blank w) (h : Writes (.value v) bs) (hw' : Blank w') :
      Document v (w ++ (bs ++ w'))

/-! ## The shortest text -/

/-- The digits of a number, from the first one on. -/
def wholeText (n : Nat) : Bytes :=
  if n < 10 then [digitByte (Fin.ofNat 10 n)]
  else wholeText (n / 10) ++ [digitByte (Fin.ofNat 10 n)]

def exponentText (e : Int) : Bytes :=
  if e = 0 then []
  else asciiByte 'e' :: (signText (e < 0) ++ wholeText e.natAbs)

def Decimal.text (d : Decimal) : Bytes :=
  signText d.negative ++ (wholeText d.whole ++ (fractionText d.fraction ++ exponentText d.exponent))

/-- The cases of an escape whose digits are all in lower case. -/
def lower : Cases := ⟨false, false, false, false⟩

/-- A character that is escaped if it has to be. -/
def charText (c : Char) : Bytes :=
  if c.toNat < 0x20 ∨ c = '"' ∨ c = '\\' then unitEscape lower c.toNat else String.utf8EncodeChar c

def stringText (s : String) : Bytes :=
  asciiByte '"' :: (s.toList.flatMap charText ++ [asciiByte '"'])

mutual

/-- The text of a value without blanks. -/
def Datum.text : Datum → Bytes
  | .null => ascii "null"
  | .bool b => ascii (if b then "true" else "false")
  | .number d => d.text
  | .string s => stringText s
  | .array [] => ascii "[]"
  | .array (v :: vs) => asciiByte '[' :: (v.text ++ itemsText vs)
  | .object [] => ascii "\x7b\x7d"
  | .object ((name, v) :: ms) =>
    asciiByte '\x7b' :: (stringText name ++ (asciiByte ':' :: (v.text ++ membersText ms)))

/-- What stands behind an item. -/
def itemsText : List Datum → Bytes
  | [] => ascii "]"
  | v :: vs => asciiByte ',' :: (v.text ++ itemsText vs)

/-- What stands behind a member. -/
def membersText : List (String × Datum) → Bytes
  | [] => ascii "\x7d"
  | (name, v) :: ms =>
    asciiByte ',' :: (stringText name ++ (asciiByte ':' :: (v.text ++ membersText ms)))

end

theorem wholeText_whole (n : Nat) : WholeText n (wholeText n) := by
  induction n using Nat.strongRecOn with
  | ind n ih =>
    rw [wholeText]
    split
    · rename_i hn
      have hdigit := WholeText.digit (Fin.ofNat 10 n)
      rwa [Fin.val_ofNat, Nat.mod_eq_of_lt hn] at hdigit
    · rename_i hn
      have hmore := (ih (n / 10) (by omega)).more (by omega) (Fin.ofNat 10 n)
      rwa [Fin.val_ofNat, Nat.div_add_mod'] at hmore

theorem WholeText.digits {n : Nat} {bs : Bytes} (h : WholeText n bs) : DigitsText n bs := by
  induction h with
  | digit d => exact .digit d
  | more _ _ d ih => exact .more ih d

theorem exponentText_exponent (e : Int) : ExponentText e (exponentText e) := by
  have hletter : asciiByte 'e' ∈ ascii "eE" := List.mem_cons_self
  have hdigits := (wholeText_whole e.natAbs).digits
  rw [exponentText]
  by_cases hzero : e = 0
  · rw [if_pos hzero, hzero]
    exact .absent
  · rw [if_neg hzero]
    by_cases hneg : e < 0
    · have htext := ExponentText.negative hletter hdigits
      rw [show -(e.natAbs : Int) = e by omega] at htext
      rw [signText, if_pos (decide_eq_true hneg)]
      exact htext
    · have htext := ExponentText.unsigned hletter hdigits
      rw [show (e.natAbs : Int) = e by omega] at htext
      rw [signText, if_neg (by simpa using hneg)]
      exact htext

theorem charText_char (c : Char) : CharText c (charText c) := by
  rw [charText]
  split
  · rename_i h
    refine .unit ?_ lower
    rcases h with h | rfl | rfl
    · omega
    · decide
    · decide
  · rename_i h
    rw [not_or, not_or] at h
    exact .plain (Nat.le_of_not_lt h.1) h.2.1 h.2.2

theorem stringText_string (s : String) : StringText s (stringText s) := by
  have hchars (cs : List Char) : CharsText cs (cs.flatMap charText) := by
    induction cs with
    | nil => exact .nil
    | cons c cs ih => exact .cons (charText_char c) ih
  exact .quoted (hchars s.toList)

theorem blank_nil : Blank [] := fun _ h => absurd h List.not_mem_nil

/-- Items and members without blanks between their parts. -/
theorem Writes.items_tight {v : Datum} {vs : List Datum} {bs ts : Bytes}
    (h : Writes (.value v) bs) (ht : Writes (.afterItem vs) ts) :
    Writes (.items (v :: vs)) (bs ++ ts) := .items blank_nil h blank_nil ht

theorem Writes.members_tight {name : String} {v : Datum} {ms : List (String × Datum)}
    {bs ts : Bytes} (h : Writes (.value v) bs) (ht : Writes (.afterMember ms) ts) :
    Writes (.members ((name, v) :: ms)) (stringText name ++ (asciiByte ':' :: (bs ++ ts))) :=
  .members blank_nil (stringText_string name) blank_nil blank_nil h blank_nil ht

mutual

theorem Datum.writes_text : ∀ v : Datum, Writes (.value v) v.text
  | .null => .null
  | .bool b => .bool b
  | .number d => .number ⟨wholeText_whole d.whole, exponentText_exponent d.exponent⟩
  | .string s => .string (stringText_string s)
  | .array [] => .emptyArray blank_nil
  | .array (v :: vs) => .array (.items_tight v.writes_text (writes_itemsText vs))
  | .object [] => .emptyObject blank_nil
  | .object ((_, v) :: ms) => .object (.members_tight v.writes_text (writes_membersText ms))

theorem writes_itemsText : ∀ vs : List Datum, Writes (.afterItem vs) (itemsText vs)
  | [] => .lastItem
  | v :: vs => .nextItem (.items_tight v.writes_text (writes_itemsText vs))

theorem writes_membersText : ∀ ms : List (String × Datum),
    Writes (.afterMember ms) (membersText ms)
  | [] => .lastMember
  | (_, v) :: ms => .nextMember (.members_tight v.writes_text (writes_membersText ms))

end

/-- Every value has a text. -/
theorem document_text (v : Datum) : Document v v.text := by
  have htext := Document.intro blank_nil v.writes_text blank_nil
  rwa [List.nil_append, List.append_nil] at htext

end DriveDelta.Json
