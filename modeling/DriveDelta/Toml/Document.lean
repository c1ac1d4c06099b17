import DriveDelta.Toml.Number
import DriveDelta.Toml.Table

/-!
# TOML documents

A document is a list of statements: headers, and keys with their values.

## What is here

* `Toml.value?`, a value of any kind, with `Toml.items?` and `Toml.entries?` for what nests;
* `Toml.Statement`, `Toml.statement?` and `Toml.statements?`;
* `Toml.build?`, the table that statements describe;
* `Toml.parse?`, from text to table.
-/

set_option autoImplicit false

namespace DriveDelta.Toml

/-- The items of an array up to its closing bracket, at most `n` of them. -/
def items? (item? : Reader Value) : Nat → Reader (List Value)
  | 0, _ => none
  | n + 1, cs =>
    match skipLines false cs with
    | ']' :: rest => some ([], rest)
    | cs => do
      let (v, rest) ← item? cs
      match skipLines false rest with
      | ',' :: rest =>
        let (vs, rest) ← items? item? n rest
        return (v :: vs, rest)
      | ']' :: rest => return ([v], rest)
      | _ => none

/-- A key and its value on one line, with the spaces behind them. -/
def entry? (item? : Reader Value) (cs : List Char) :
    Option ((List String × Value) × List Char) := do
  let (path, rest) ← path? deepest cs
  match rest with
  | '=' :: rest =>
    let (v, rest) ← item? (skipSpaces rest)
    return ((path, v), skipSpaces rest)
  | _ => none

/-- The pairs of a table on one line up to its closing brace, at most `n` of them.  No comma may
stand behind the last one. -/
def entries? (item? : Reader Value) : Nat → Reader (List (List String × Value))
  | 0, _ => none
  | n + 1, cs => do
    let (p, rest) ← entry? item? cs
    match rest with
    | ',' :: rest =>
      let (ps, rest) ← entries? item? n rest
      return (p :: ps, rest)
    | '\x7d' :: rest => return ([p], rest)
    | _ => none

/-- Give a value to the last key of a path. -/
def putPath? (path : List String) (v : Value) (ms : Members) : Option Members :=
  path.getLast?.bind fun key => put? key v path.dropLast ms

/-- A table on one line, behind its opening brace. -/
def inlineTable? (item? : Reader Value) (cs : List Char) : Option (Value × List Char) :=
  match skipSpaces cs with
  | '\x7d' :: rest => some (.table [], rest)
  | cs => do
    let (ps, rest) ← entries? item? cs.length cs
    let ms ← ps.foldlM (fun ms p => putPath? p.1 p.2 ms) []
    return (.table (valuesOf ms), rest)

/-- A value that holds no others. -/
def scalar? (cs : List Char) : Option (Value × List Char) :=
  match cs with
  | '"' :: _ | '\x27' :: _ => (text? cs).map fun (s, rest) => (.text s, rest)
  | 't' :: 'r' :: 'u' :: 'e' :: rest => some (.boolean true, rest)
  | 'f' :: 'a' :: 'l' :: 's' :: 'e' :: rest => some (.boolean false, rest)
  | cs => if beginsMoment cs then moment? cs else number? cs

/-- A value in which arrays and tables nest at most `n` deep. -/
def value? : Nat → Reader Value
  | 0, cs => scalar? cs
  | n + 1, cs =>
    match cs with
    | '[' :: rest =>
      (items? (value? n) (rest.length + 1) rest).map fun (vs, rest) => (.array vs, rest)
    | '\x7b' :: rest => inlineTable? (value? n) rest
    | cs => scalar? cs

inductive Statement where
  /-- The header of a table. -/
  | table (path : List String)
  /-- The header of an element of an array of tables. -/
  | element (path : List String)
  /-- A value for a key. -/
  | entry (path : List String) (v : Value)
  deriving Repr, Inhabited

/-- A statement that begins here, and what follows its line. -/
def statement? (cs : List Char) : Option (Statement × List Char) := do
  match cs with
  | '[' :: '[' :: rest =>
    let (path, rest) ← path? deepest rest
    match rest with
    | ']' :: ']' :: rest => return (.element path, ← lineEnd? rest)
    | _ => none
  | '[' :: rest =>
    let (path, rest) ← path? deepest rest
    match rest with
    | ']' :: rest => return (.table path, ← lineEnd? rest)
    | _ => none
  | cs =>
    let ((path, v), rest) ← entry? (value? deepest) cs
    return (.entry path v, ← lineEnd? rest)

/-- The statements of a text of at most `n` lines. -/
def statements? : Nat → List Char → Option (List Statement)
  | 0, _ => none
  | n + 1, cs =>
    match skipComment (skipSpaces cs) with
    | [] => some []
    | '\n' :: rest => statements? n rest
    | '\r' :: '\n' :: rest => statements? n rest
    | cs => do
      let (s, rest) ← statement? cs
      return s :: (← statements? n rest)

/-- A table under construction, and the path of the header that was seen last. -/
structure Draft where
  members : Members := []
  path : List String := []

/-- Open what the last key of a path names. -/
def Draft.openPath? (f : String → Members → Option Members) (path : List String) (d : Draft) :
    Option Draft := do
  let key ← path.getLast?
  let members ← within? (f key) path.dropLast d.members
  return ⟨members, path⟩

/-- Do what a statement says. -/
def Draft.add? (d : Draft) : Statement → Option Draft
  | .table path => d.openPath? openTable? path
  | .element path => d.openPath? openElement? path
  | .entry path v =>
    (within? (putPath? path v) d.path d.members).map fun members => { d with members }

/-- The table that statements describe. -/
def build? (statements : List Statement) : Option (List (String × Value)) :=
  (statements.foldlM Draft.add? {}).map fun d => valuesOf d.members

/-- The table that a text describes.  A mark of the byte order may stand before it. -/
def parse? (cs : List Char) : Option (List (String × Value)) :=
  let cs := match cs with
    | '\ufeff' :: rest => rest
    | cs => cs
  (statements? (cs.length + 1) cs).bind build?

end DriveDelta.Toml
