import DriveDelta.Json.Value

/-!
# JSON tokens

The reader of tokens takes one byte at a time.  Its state says what the bytes so far have begun; a
byte that cannot continue a number ends it and is then looked at as the start of the next token.

## What is here

* `Json.Token` and `Json.LexState`;
* `Json.lexByte`, one byte, and `Json.tokens?`, all of them.
-/

set_option autoImplicit false

namespace DriveDelta.Json

inductive Token where
  | openArray | closeArray | openObject | closeObject | comma | colon
  | null
  | bool (b : Bool)
  | number (n : Numeral)
  | string (s : List Piece)
  deriving DecidableEq, Repr, Inhabited

/-- What has been read of a number; fraction digits are held in reverse. -/
inductive NumberPart where
  /-- The sign alone. -/
  | sign
  /-- A zero, after which no digit may follow in the whole part. -/
  | zero
  /-- Digits of the whole part. -/
  | whole (n : Nat)
  /-- The point, without a digit behind it. -/
  | point (whole : Nat)
  | fraction (whole : Nat) (digits : List Nat)
  /-- The letter of the exponent. -/
  | letter (whole : Nat) (digits : List Nat)
  /-- The sign of the exponent. -/
  | exponentSign (whole : Nat) (digits : List Nat) (negative : Bool)
  | exponent (whole : Nat) (digits : List Nat) (negative : Bool) (n : Nat)
  deriving DecidableEq, Repr, Inhabited

/-- What the bytes so far have begun; pieces of a string are held in reverse. -/
inductive LexState where
  | between
  /-- A word of which these bytes are still to come. -/
  | word (rest : Bytes) (token : Token)
  | string (pieces : List Piece)
  /-- Behind a backslash. -/
  | escape (pieces : List Piece)
  /-- In the code of an escape, of which `left` digits are still to come. -/
  | code (pieces : List Piece) (left n : Nat)
  | number (negative : Bool) (part : NumberPart)
  deriving DecidableEq, Repr, Inhabited

/-- Whether a byte is a character. -/
def isChar (b : UInt8) (c : Char) : Bool := b.toNat == c.toNat

def isSpace (b : UInt8) : Bool := isChar b ' ' || isChar b '\n' || isChar b '\t' || isChar b '\r'

/-- The value of a decimal digit. -/
def digit? (b : UInt8) : Option Nat :=
  if 48 ≤ b.toNat ∧ b.toNat ≤ 57 then some (b.toNat - 48) else none

/-- The value of a hexadecimal digit. -/
def hexDigit? (b : UInt8) : Option Nat :=
  let n := b.toNat
  if 48 ≤ n ∧ n ≤ 57 then some (n - 48)
  else if 65 ≤ n ∧ n ≤ 70 then some (n - 55)
  else if 97 ≤ n ∧ n ≤ 102 then some (n - 87)
  else none

/-- The unit that a one-letter escape names. -/
def escapeUnit? (b : UInt8) : Option Nat :=
  if isChar b '"' then some 0x22
  else if isChar b '\\' then some 0x5C
  else if isChar b '/' then some 0x2F
  else if isChar b 'b' then some 0x8
  else if isChar b 'f' then some 0xC
  else if isChar b 'n' then some 0xA
  else if isChar b 'r' then some 0xD
  else if isChar b 't' then some 0x9
  else none

/-- The bytes of a word in ASCII. -/
def ascii (s : String) : Bytes := s.toList.map fun c => UInt8.ofNat c.toNat

/-- A byte between tokens. -/
def lexStart (b : UInt8) : Option (LexState × List Token) :=
  if isSpace b then some (.between, [])
  else if isChar b '[' then some (.between, [.openArray])
  else if isChar b ']' then some (.between, [.closeArray])
  else if isChar b '\x7b' then some (.between, [.openObject])
  else if isChar b '\x7d' then some (.between, [.closeObject])
  else if isChar b ',' then some (.between, [.comma])
  else if isChar b ':' then some (.between, [.colon])
  else if isChar b '"' then some (.string [], [])
  else if isChar b 'n' then some (.word (ascii "ull") .null, [])
  else if isChar b 't' then some (.word (ascii "rue") (.bool true), [])
  else if isChar b 'f' then some (.word (ascii "alse") (.bool false), [])
  else if isChar b '-' then some (.number true .sign, [])
  else
    match digit? b with
    | some 0 => some (.number false .zero, [])
    | some d => some (.number false (.whole d), [])
    | none => none

/-- The part of a number that a byte leads to; none if the byte does not belong to the number. -/
def NumberPart.next? (p : NumberPart) (b : UInt8) : Option NumberPart :=
  let isLetter := isChar b 'e' || isChar b 'E'
  match p, digit? b with
  | .sign, some 0 => some .zero
  | .sign, some d => some (.whole d)
  | .sign, none => none
  | .zero, some _ => none
  | .zero, none =>
    if isChar b '.' then some (.point 0) else if isLetter then some (.letter 0 []) else none
  | .whole n, some d => some (.whole (n * 10 + d))
  | .whole n, none =>
    if isChar b '.' then some (.point n) else if isLetter then some (.letter n []) else none
  | .point w, some d => some (.fraction w [d])
  | .point _, none => none
  | .fraction w ds, some d => some (.fraction w (d :: ds))
  | .fraction w ds, none => if isLetter then some (.letter w ds) else none
  | .letter w ds, some d => some (.exponent w ds false d)
  | .letter w ds, none =>
    if isChar b '+' then some (.exponentSign w ds false)
    else if isChar b '-' then some (.exponentSign w ds true)
    else none
  | .exponentSign w ds neg, some d => some (.exponent w ds neg d)
  | .exponentSign .., none => none
  | .exponent w ds neg n, some d => some (.exponent w ds neg (n * 10 + d))
  | .exponent .., none => none

/-- The number that ends with a part; none if something has to follow. -/
def NumberPart.finish? (p : NumberPart) (negative : Bool) : Option Numeral :=
  match p with
  | .zero => some ⟨negative, 0, [], 0⟩
  | .whole n => some ⟨negative, n, [], 0⟩
  | .fraction w ds => some ⟨negative, w, ds.reverse, 0⟩
  | .exponent w ds neg n => some ⟨negative, w, ds.reverse, if neg then -(n : Int) else n⟩
  | .sign | .point _ | .letter .. | .exponentSign .. => none

/-- A byte inside or behind a number.  A zero is never followed by a digit. -/
def lexNumber (negative : Bool) (p : NumberPart) (b : UInt8) :
    Option (LexState × List Token) :=
  match p.next? b with
  | some p' => some (.number negative p', [])
  | none =>
    if (digit? b).isSome then none
    else do
      let n ← p.finish? negative
      let r ← lexStart b
      return (r.1, .number n :: r.2)

/-- One byte: the state after it and the tokens that it completes. -/
def lexByte (s : LexState) (b : UInt8) : Option (LexState × List Token) :=
  match s with
  | .between => lexStart b
  | .word [] _ => none
  | .word [c] token => if b = c then some (.between, [token]) else none
  | .word (c :: rest) token => if b = c then some (.word rest token, []) else none
  | .string pieces =>
    if isChar b '"' then some (.between, [.string pieces.reverse])
    else if isChar b '\\' then some (.escape pieces, [])
    else if b.toNat < 0x20 then none
    else some (.string (.byte b :: pieces), [])
  | .escape pieces =>
    if isChar b 'u' then some (.code pieces 4 0, [])
    else (escapeUnit? b).map fun n => (.string (.unit n :: pieces), [])
  | .code pieces left n =>
    (hexDigit? b).map fun d =>
      let m := n * 16 + d
      if left ≤ 1 then (.string (.unit m :: pieces), []) else (.code pieces (left - 1) m, [])
  | .number negative p => lexNumber negative p b

/-- The tokens that end with the last byte. -/
def lexEnd : LexState → Option (List Token)
  | .between => some []
  | .number negative p => (p.finish? negative).map fun n => [.number n]
  | _ => none

/-- The tokens of the bytes that follow a state. -/
def lex : LexState → Bytes → Option (List Token)
  | s, [] => lexEnd s
  | s, b :: rest => (lexByte s b).bind fun r => (lex r.1 rest).map (r.2 ++ ·)

/-- The tokens of a text. -/
def tokens? (bs : Bytes) : Option (List Token) := lex .between bs

end DriveDelta.Json
