/-!
# Characters and bytes

A text travels as bytes in UTF-8.  Reading bytes back can fail; a failure covers the longest
beginning of a character that the bytes still allowed, so that reading can go on behind it.

## What is here

* `Utf8.encode`, the bytes of a list of characters;
* `Utf8.readChar`, one character, or a failure, off the front of the bytes;
* `Utf8.decode?`, which refuses bytes that are no text, and `Utf8.decodeLossy`, which writes a
  replacement character for each failure;
* `Utf8.excerpt`, the first characters of a body for use in a message.
-/

set_option autoImplicit false

namespace DriveDelta

/-- The content of a message, byte by byte. -/
abbrev Bytes := List UInt8

namespace Utf8

/-- The bytes of a list of characters. -/
def encode (cs : List Char) : Bytes := cs.flatMap String.utf8EncodeChar

/-- Whether a byte lies in a range. -/
def within (low high : Nat) (b : UInt8) : Bool := low ≤ b.toNat && b.toNat ≤ high

/-- The low six bits of a continuation byte. -/
def tailBits (b : UInt8) : Nat := b.toNat % 64

/-- The range of the second byte after a first byte, and how many bytes follow the second. -/
def shape (b : UInt8) : Option (Nat × Nat × Nat) :=
  let n := b.toNat
  if 0xC2 ≤ n ∧ n ≤ 0xDF then some (0x80, 0xBF, 0)
  else if n = 0xE0 then some (0xA0, 0xBF, 1)
  else if n = 0xED then some (0x80, 0x9F, 1)
  else if 0xE1 ≤ n ∧ n ≤ 0xEF then some (0x80, 0xBF, 1)
  else if n = 0xF0 then some (0x90, 0xBF, 2)
  else if 0xF1 ≤ n ∧ n ≤ 0xF3 then some (0x80, 0xBF, 2)
  else if n = 0xF4 then some (0x80, 0x8F, 2)
  else none

/-- The bits that a first byte contributes, given how many bytes follow the second. -/
def leadBits (b : UInt8) (more : Nat) : Nat := b.toNat % Nat.pow 2 (5 - more)

/-- Read `more` continuation bytes behind the code read so far. -/
def readTail (code : Nat) : Nat → Bytes → Option Char × Bytes
  | 0, rest => (some (Char.ofNat code), rest)
  | _ + 1, [] => (none, [])
  | more + 1, b :: rest =>
    if within 0x80 0xBF b then readTail (code * 64 + tailBits b) more rest else (none, b :: rest)

/-- Read the character that begins with `b`.  On failure the rest begins behind the longest part
that could have begun a character. -/
def readChar (b : UInt8) (rest : Bytes) : Option Char × Bytes :=
  if b.toNat < 0x80 then (some (Char.ofNat b.toNat), rest)
  else
    match shape b, rest with
    | none, _ => (none, rest)
    | some _, [] => (none, [])
    | some (low, high, more), c :: rest' =>
      if within low high c then readTail (leadBits b more * 64 + tailBits c) more rest'
      else (none, c :: rest')

theorem length_readTail_le (code more : Nat) (bs : Bytes) :
    (readTail code more bs).2.length ≤ bs.length := by
  induction more generalizing code bs with
  | zero => simp [readTail]
  | succ more ih =>
    cases bs with
    | nil => simp [readTail]
    | cons b rest =>
      simp only [readTail]
      split
      · exact Nat.le_succ_of_le (ih _ rest)
      · simp

theorem length_readChar_le (b : UInt8) (rest : Bytes) :
    (readChar b rest).2.length ≤ rest.length := by
  unfold readChar
  split
  · simp
  · split
    · simp
    · simp
    · split
      · exact Nat.le_succ_of_le (length_readTail_le _ _ _)
      · simp

/-- The characters of a text; none if the bytes are not a text. -/
def decode? : Bytes → Option (List Char)
  | [] => some []
  | b :: rest =>
    match h : readChar b rest with
    | (none, _) => none
    | (some c, rest') =>
      have : rest'.length < rest.length + 1 := by
        have := length_readChar_le b rest; rw [h] at this; exact Nat.lt_succ_of_le this
      (decode? rest').map (c :: ·)
termination_by bs => bs.length

/-- What stands for bytes that are no character. -/
def replacement : Char := '\ufffd'

/-- The characters of bytes, with a replacement character for each failure. -/
def decodeLossy : Bytes → List Char
  | [] => []
  | b :: rest =>
    have : (readChar b rest).2.length < rest.length + 1 :=
      Nat.lt_succ_of_le (length_readChar_le b rest)
    (readChar b rest).1.getD replacement :: decodeLossy (readChar b rest).2
termination_by bs => bs.length

/-- How many characters of a body a message quotes. -/
def excerptLength : Nat := 256

/-- The first characters of a body, with an ellipsis if there are more. -/
def excerpt (body : Bytes) : String :=
  let cs := decodeLossy body
  String.ofList (cs.take excerptLength) ++ if cs.length ≤ excerptLength then "" else "..."

end Utf8

end DriveDelta
