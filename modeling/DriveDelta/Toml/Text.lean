import DriveDelta.Toml.Layout

/-!
# TOML texts and keys

A text stands between quotes on one line, or between tripled quotes on several.  Behind a backslash
double quotes allow escapes; single quotes take each character for itself.

## What is here

* `Toml.escaped?`, the escapes of one letter, and `Toml.coded?`, those that give a code;
* `Toml.text?`, a text of any of the four kinds;
* `Toml.key?`, one key, and `Toml.path?`, keys with points between them.
-/

set_option autoImplicit false

namespace DriveDelta.Toml

/-- The value of a digit in a base of at most sixteen. -/
def digit? (base : Nat) (c : Char) : Option Nat :=
  let n := c.toNat
  let d :=
    if 48 ≤ n ∧ n ≤ 57 then n - 48
    else if 65 ≤ n ∧ n ≤ 70 then n - 55
    else if 97 ≤ n ∧ n ≤ 102 then n - 87
    else base
  if d < base then some d else none

/-- The character that a letter behind a backslash stands for. -/
def escaped? (c : Char) : Option Char :=
  if c = 'b' then some '\x08'
  else if c = 't' then some '\t'
  else if c = 'n' then some '\n'
  else if c = 'f' then some '\x0c'
  else if c = 'r' then some '\r'
  else if c = '"' then some '"'
  else if c = '\\' then some '\\'
  else none

/-- The character of a code in hexadecimal digits. -/
def coded? (digits : List Char) : Option Char := do
  let n ← digits.foldlM (fun n c => (digit? 16 c).map fun d => n * 16 + d) 0
  if n.isValidChar then some (Char.ofNat n) else none

/-- A character before a text that was read. -/
def before (c : Char) (r : Option (List Char × List Char)) : Option (List Char × List Char) :=
  r.map fun (text, rest) => (c :: text, rest)

/-- The text behind a double quote, up to the next one. -/
def basic? : Reader (List Char)
  | [] => none
  | '"' :: cs => some ([], cs)
  | '\\' :: 'u' :: a :: b :: c :: d :: cs =>
    (coded? [a, b, c, d]).bind fun x => before x (basic? cs)
  | '\\' :: 'U' :: a :: b :: c :: d :: e :: f :: g :: h :: cs =>
    (coded? [a, b, c, d, e, f, g, h]).bind fun x => before x (basic? cs)
  | '\\' :: c :: cs => (escaped? c).bind fun x => before x (basic? cs)
  | c :: cs => if isPlain c && c != '\\' then before c (basic? cs) else none

/-- The text behind a single quote, up to the next one. -/
def literal? : Reader (List Char)
  | [] => none
  | '\x27' :: cs => some ([], cs)
  | c :: cs => if isPlain c then before c (literal? cs) else none

/-- Where a text over several lines stands: in a line, or behind a backslash that joins lines. -/
inductive Fold where
  | no
  /-- The line that the backslash ends is not yet at its end. -/
  | joining
  /-- Blanks are skipped until the text goes on. -/
  | skipping
  deriving DecidableEq, Repr, Inhabited

/-- The text behind three double quotes.  Of the quotes at its end only the
last three close it. -/
def basicLines? : Fold → Reader (List Char)
  | _, [] => none
  | .joining, '\n' :: cs => basicLines? .skipping cs
  | .joining, '\r' :: '\n' :: cs => basicLines? .skipping cs
  | .joining, c :: cs => if isSpace c then basicLines? .joining cs else none
  | .skipping, '\n' :: cs => basicLines? .skipping cs
  | .skipping, '\r' :: '\n' :: cs => basicLines? .skipping cs
  | .skipping, ' ' :: cs => basicLines? .skipping cs
  | .skipping, '\t' :: cs => basicLines? .skipping cs
  | _, '"' :: '"' :: '"' :: '"' :: '"' :: cs => some (['"', '"'], cs)
  | _, '"' :: '"' :: '"' :: '"' :: cs => some (['"'], cs)
  | _, '"' :: '"' :: '"' :: cs => some ([], cs)
  | _, '\r' :: '\n' :: cs => before '\n' (basicLines? .no cs)
  | _, '\n' :: cs => before '\n' (basicLines? .no cs)
  | _, '\\' :: '\n' :: cs => basicLines? .skipping cs
  | _, '\\' :: '\r' :: '\n' :: cs => basicLines? .skipping cs
  | _, '\\' :: ' ' :: cs => basicLines? .joining cs
  | _, '\\' :: '\t' :: cs => basicLines? .joining cs
  | _, '\\' :: 'u' :: a :: b :: c :: d :: cs =>
    (coded? [a, b, c, d]).bind fun x => before x (basicLines? .no cs)
  | _, '\\' :: 'U' :: a :: b :: c :: d :: e :: f :: g :: h :: cs =>
    (coded? [a, b, c, d, e, f, g, h]).bind fun x => before x (basicLines? .no cs)
  | _, '\\' :: c :: cs => (escaped? c).bind fun x => before x (basicLines? .no cs)
  | _, c :: cs => if isPlain c && c != '\\' then before c (basicLines? .no cs) else none

/-- The text behind three single quotes.  Of the quotes at its end only the
last three close it. -/
def literalLines? : Reader (List Char)
  | [] => none
  | '\x27' :: '\x27' :: '\x27' :: '\x27' :: '\x27' :: cs => some (['\x27', '\x27'], cs)
  | '\x27' :: '\x27' :: '\x27' :: '\x27' :: cs => some (['\x27'], cs)
  | '\x27' :: '\x27' :: '\x27' :: cs => some ([], cs)
  | '\r' :: '\n' :: cs => before '\n' (literalLines? cs)
  | c :: cs => if isPlain c || c == '\n' then before c (literalLines? cs) else none

/-- The line end right behind three opening quotes does not count. -/
def skipFirstNewline (cs : List Char) : List Char := (newline? cs).getD cs

/-- A text of any kind. -/
def text? : Reader String
  | '"' :: '"' :: '"' :: cs =>
    (basicLines? .no (skipFirstNewline cs)).map fun (s, rest) => (String.ofList s, rest)
  | '"' :: cs => (basic? cs).map fun (s, rest) => (String.ofList s, rest)
  | '\x27' :: '\x27' :: '\x27' :: cs =>
    (literalLines? (skipFirstNewline cs)).map fun (s, rest) => (String.ofList s, rest)
  | '\x27' :: cs => (literal? cs).map fun (s, rest) => (String.ofList s, rest)
  | _ => none

/-- The characters of a key that needs no quotes. -/
def isBare (c : Char) : Bool := c.isAlphanum || c == '-' || c == '_'

/-- One key. -/
def key? : Reader String
  | '"' :: cs => (basic? cs).map fun (s, rest) => (String.ofList s, rest)
  | '\x27' :: cs => (literal? cs).map fun (s, rest) => (String.ofList s, rest)
  | cs =>
    let (key, rest) := cs.span isBare
    if key.isEmpty then none else some (String.ofList key, rest)

/-- At most `n` keys with points between them, and the spaces around each. -/
def path? : Nat → Reader (List String)
  | 0, _ => none
  | n + 1, cs => do
    let (key, rest) ← key? (skipSpaces cs)
    match skipSpaces rest with
    | '.' :: rest =>
      let (keys, rest) ← path? n rest
      return (key :: keys, rest)
    | rest => return ([key], rest)

/-- The longest path of keys, and the deepest nesting of values. -/
def deepest : Nat := 79

end DriveDelta.Toml
