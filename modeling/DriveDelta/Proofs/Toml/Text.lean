import DriveDelta.Toml.Document

/-!
# TOML texts

There are many ways to write the same document: spaces, comments and empty lines may stand between
its parts, keys may have quotes, and a number may have a sign, underscores or another base.  This
file says which texts a document has, without regard to how they are read.  Of the values it has
those that records of numbers and names are made of; tables are opened by headers.

## What is here

* `Toml.GapText`, what may stand between the items of an array;
* `Toml.NumberText`, ways to write a number, `Toml.StringText`, ways to write a text on one line,
  and `Toml.ValueText`, with arrays of these;
* `Toml.PathText` and `Toml.StatementText`, ways to write a path of keys and a statement;
* `Toml.LinesText` and `Toml.DocumentText`, ways to write statements one after the other.
-/

set_option autoImplicit false

namespace DriveDelta.Toml

/-! ## Blanks -/

/-- Spaces and tabulators. -/
def Blank (cs : List Char) : Prop := ∀ c ∈ cs, c = ' ' ∨ c = '\t'

theorem blank_nil : Blank [] := List.forall_mem_nil _

/-- A comment, or nothing. -/
inductive CommentText : List Char → Prop where
  | absent : CommentText []
  | sign {cs : List Char} (h : ∀ c ∈ cs, isPlain c = true) : CommentText ('#' :: cs)

/-- The ways to end a line. -/
inductive NewlineText : List Char → Prop where
  | feed : NewlineText ['\n']
  | carriage : NewlineText ['\r', '\n']

/-- What may stand between the items of an array. -/
inductive GapText : List Char → Prop where
  | nil : GapText []
  | space {c : Char} {cs : List Char} (hc : c = ' ' ∨ c = '\t') (h : GapText cs) :
      GapText (c :: cs)
  | line {comment newline cs : List Char} (hc : CommentText comment) (hn : NewlineText newline)
      (h : GapText cs) : GapText (comment ++ (newline ++ cs))

/-! ## Numbers -/

/-- A digit; those from ten on are letters in upper or lower case. -/
def digitChar (upper : Bool) (d : Nat) : Char :=
  if upper then (Nat.digitChar d).toUpper else Nat.digitChar d

/-- Digits of a base, their number, and how many they are.  An underscore may stand between two
digits. -/
inductive DigitsText (base : Nat) : Nat → Nat → List Char → Prop where
  | digit {d : Nat} (hd : d < base) (upper : Bool) : DigitsText base d 1 [digitChar upper d]
  | more {n k d : Nat} {cs : List Char} (h : DigitsText base n k cs) (hd : d < base)
      (upper : Bool) : DigitsText base (n * base + d) (k + 1) (cs ++ [digitChar upper d])
  | apart {n k d : Nat} {cs : List Char} (h : DigitsText base n k cs) (hd : d < base)
      (upper : Bool) : DigitsText base (n * base + d) (k + 1) (cs ++ ['_', digitChar upper d])

/-- Decimal digits without a leading zero. -/
inductive WholeText : Nat → List Char → Prop where
  | zero : WholeText 0 ['0']
  | digits {n k : Nat} {cs : List Char} (h : DigitsText 10 n k cs) (hz : cs.head? ≠ some '0') :
      WholeText n cs

/-- The ways to write a sign. -/
inductive SignText : Bool → List Char → Prop where
  | absent : SignText false []
  | plus : SignText false ['+']
  | minus : SignText true ['-']

/-- A whole number with its sign. -/
def withSign (negative : Bool) (n : Nat) : Int := if negative then -(n : Int) else n

/-- The ways to write an exponent; none at all stands for zero. -/
inductive ExponentText : Int → List Char → Prop where
  | absent : ExponentText 0 []
  | letter {c : Char} {negative : Bool} {n k : Nat} {ss ds : List Char} (hc : c = 'e' ∨ c = 'E')
      (hs : SignText negative ss) (hd : DigitsText 10 n k ds) :
      ExponentText (withSign negative n) (c :: (ss ++ ds))

/-- The ways to write a number.  A whole number has 64 bits, and a fraction is the nearest double,
which positive infinity must not be. -/
inductive NumberText : Value → List Char → Prop where
  | whole {negative : Bool} {n : Nat} {ss ws : List Char} (hs : SignText negative ss)
      (hw : WholeText n ws) (hlow : -0x8000000000000000 ≤ withSign negative n)
      (hhigh : withSign negative n < 0x8000000000000000) :
      NumberText (.integer (withSign negative n)) (ss ++ ws)
  | based {letter : Char} {base n k : Nat} {ds : List Char}
      (hb : (letter, base) ∈ [('x', 16), ('o', 8), ('b', 2)]) (hd : DigitsText base n k ds)
      (hn : n < 0x8000000000000000) : NumberText (.integer n) ('0' :: letter :: ds)
  | fraction {d : Decimal} {n f k : Nat} {e : Int} {ss ws fs es : List Char}
      (hs : SignText d.negative ss) (hw : WholeText n ws) (hf : DigitsText 10 f k fs)
      (he : ExponentText e es) (hdigits : d.digits = n * Nat.pow 10 k + f)
      (hexponent : d.exponent = e - k) (hd : d.toDouble ≠ .infinity) :
      NumberText (.float d.toDouble) (ss ++ (ws ++ '.' :: (fs ++ es)))
  | scientific {d : Decimal} {ss ws es : List Char} (hs : SignText d.negative ss)
      (hw : WholeText d.digits ws) (he : ExponentText d.exponent es) (hne : es ≠ [])
      (hd : d.toDouble ≠ .infinity) : NumberText (.float d.toDouble) (ss ++ (ws ++ es))
  | infinite {negative : Bool} {ss : List Char} (hs : SignText negative ss) :
      NumberText (.float ⟨negative, Double.infiniteMagnitude⟩) (ss ++ ['i', 'n', 'f'])
  | nan {negative : Bool} {ss : List Char} (hs : SignText negative ss) :
      NumberText (.float .nan) (ss ++ ['n', 'a', 'n'])

/-! ## Texts and keys -/

/-- The letters of the short escapes, with what they stand for. -/
def shortEscapes : List (Char × Char) :=
  [('b', '\x08'), ('t', '\t'), ('n', '\n'), ('f', '\x0c'), ('r', '\r'), ('"', '"'), ('\\', '\\')]

/-- Hexadecimal digits of a code. -/
inductive CodeText : Nat → List Char → Prop where
  | nil : CodeText 0 []
  | more {n d : Nat} {cs : List Char} (h : CodeText n cs) (hd : d < 16) (upper : Bool) :
      CodeText (n * 16 + d) (cs ++ [digitChar upper d])

/-- The ways to write a character between double quotes. -/
inductive CharText (c : Char) : List Char → Prop where
  | plain (h : isPlain c = true) (hquote : c ≠ '"') (hslash : c ≠ '\\') : CharText c [c]
  | short {letter : Char} (h : (letter, c) ∈ shortEscapes) : CharText c ['\\', letter]
  | four {ds : List Char} (h : CodeText c.toNat ds) (hds : ds.length = 4) :
      CharText c ('\\' :: 'u' :: ds)
  | eight {ds : List Char} (h : CodeText c.toNat ds) (hds : ds.length = 8) :
      CharText c ('\\' :: 'U' :: ds)

/-- The ways to write characters one after the other. -/
inductive CharsText : List Char → List Char → Prop where
  | nil : CharsText [] []
  | cons {c : Char} {cs ts ts' : List Char} (h : CharText c ts) (hs : CharsText cs ts') :
      CharsText (c :: cs) (ts ++ ts')

/-- The ways to write a text on one line. -/
inductive StringText (s : String) : List Char → Prop where
  | double {ts : List Char} (h : CharsText s.toList ts) : StringText s ('"' :: (ts ++ ['"']))
  | single (h : ∀ c ∈ s.toList, isPlain c = true ∧ c ≠ '\x27') :
      StringText s ('\x27' :: (s.toList ++ ['\x27']))

/-- The ways to write a key. -/
inductive KeyText (s : String) : List Char → Prop where
  | bare (h : ∀ c ∈ s.toList, isBare c = true) (hne : s.toList ≠ []) : KeyText s s.toList
  | quoted {ts : List Char} (h : StringText s ts) : KeyText s ts

/-- The ways to write a path of keys, with the blanks behind it. -/
inductive PathText : List String → List Char → Prop where
  | last {k : String} {ts w : List Char} (h : KeyText k ts) (hw : Blank w) :
      PathText [k] (ts ++ w)
  | more {k : String} {ks : List String} {ts w w' us : List Char} (h : KeyText k ts)
      (hw : Blank w) (hw' : Blank w') (hs : PathText ks us) :
      PathText (k :: ks) (ts ++ (w ++ '.' :: (w' ++ us)))

/-! ## Values -/

/-- The ways to write a number or a text. -/
inductive ScalarText : Value → List Char → Prop where
  | number {v : Value} {cs : List Char} (h : NumberText v cs) : ScalarText v cs
  | text {s : String} {cs : List Char} (h : StringText s cs) : ScalarText (.text s) cs

/-- The ways to write the items of an array and the bracket that closes it.  A comma may stand
behind the last one. -/
inductive ItemsText : List Value → List Char → Prop where
  | close {g : List Char} (hg : GapText g) : ItemsText [] (g ++ [']'])
  | last {v : Value} {g cs g' : List Char} (hg : GapText g) (h : ScalarText v cs)
      (hg' : GapText g') : ItemsText [v] (g ++ (cs ++ (g' ++ [']'])))
  | more {v : Value} {vs : List Value} {g cs g' ts : List Char} (hg : GapText g)
      (h : ScalarText v cs) (hg' : GapText g') (hs : ItemsText vs ts) :
      ItemsText (v :: vs) (g ++ (cs ++ (g' ++ ',' :: ts)))

/-- The ways to write a value. -/
inductive ValueText : Value → List Char → Prop where
  | scalar {v : Value} {cs : List Char} (h : ScalarText v cs) : ValueText v cs
  | array {vs : List Value} {cs : List Char} (h : ItemsText vs cs) :
      ValueText (.array vs) ('[' :: cs)

/-! ## Documents -/

/-- The ways to write a statement. -/
inductive StatementText : Statement → List Char → Prop where
  | table {path : List String} {w cs : List Char} (hw : Blank w) (h : PathText path cs)
      (hshort : path.length ≤ deepest) : StatementText (.table path) ('[' :: (w ++ (cs ++ [']'])))
  | entry {path : List String} {v : Value} {cs w vs : List Char} (h : PathText path cs)
      (hshort : path.length ≤ deepest) (hw : Blank w) (hv : ValueText v vs) :
      StatementText (.entry path v) (cs ++ '=' :: (w ++ vs))

/-- The ways to write statements, each on a line of its own.  The last line need not be ended. -/
inductive LinesText : List Statement → List Char → Prop where
  | finish {w c : List Char} (hw : Blank w) (hc : CommentText c) : LinesText [] (w ++ c)
  | blank {ss : List Statement} {w c nl cs : List Char} (hw : Blank w) (hc : CommentText c)
      (hn : NewlineText nl) (h : LinesText ss cs) : LinesText ss (w ++ (c ++ (nl ++ cs)))
  | last {s : Statement} {w t w' c : List Char} (hw : Blank w) (hs : StatementText s t)
      (hw' : Blank w') (hc : CommentText c) : LinesText [s] (w ++ (t ++ (w' ++ c)))
  | more {s : Statement} {ss : List Statement} {w t w' c nl cs : List Char} (hw : Blank w)
      (hs : StatementText s t) (hw' : Blank w') (hc : CommentText c) (hn : NewlineText nl)
      (h : LinesText ss cs) : LinesText (s :: ss) (w ++ (t ++ (w' ++ (c ++ (nl ++ cs)))))

/-- The ways to write a document.  A mark of the byte order may stand before it. -/
inductive DocumentText (ss : List Statement) : List Char → Prop where
  | plain {cs : List Char} (h : LinesText ss cs) : DocumentText ss cs
  | marked {cs : List Char} (h : LinesText ss cs) : DocumentText ss ('\ufeff' :: cs)

end DriveDelta.Toml
