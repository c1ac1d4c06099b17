/-!
# Blanks, comments and line ends

Readers take the characters that are left and give back those that follow what they read.

## What is here

* `Toml.isPlain`, the characters that need no escape, and `Toml.isSpace`;
* `Toml.newline?` and `Toml.lineEnd?`, the end of a line and what may stand before it;
* `Toml.skipLines`, everything that may stand between the items of an array.
-/

set_option autoImplicit false

namespace DriveDelta.Toml

/-- A reader gives nothing, or a value and the characters behind it. -/
abbrev Reader (α : Type) := List Char → Option (α × List Char)

/-- The characters of comments and quoted texts: all but the controls, of which only the tabulator
is one of them. -/
def isPlain (c : Char) : Bool := c == '\t' || (0x20 ≤ c.toNat && c.toNat != 0x7F)

/-- The two characters that may stand between the parts of a line. -/
def isSpace (c : Char) : Bool := c == ' ' || c == '\t'

def skipSpaces (cs : List Char) : List Char := cs.dropWhile isSpace

/-- What follows the end of a line: a line feed, with or without a carriage return before it. -/
def newline? : List Char → Option (List Char)
  | '\n' :: cs => some cs
  | '\r' :: '\n' :: cs => some cs
  | _ => none

/-- What follows a comment, if one begins here. -/
def skipComment : List Char → List Char
  | '#' :: cs => cs.dropWhile isPlain
  | cs => cs

/-- Behind a statement stand only spaces and a comment, until the line or the document ends. -/
def lineEnd? (cs : List Char) : Option (List Char) :=
  match skipComment (skipSpaces cs) with
  | [] => some []
  | cs => newline? cs

/-- Skip spaces, line ends and comments; `inComment` says that a comment has begun. -/
def skipLines (inComment : Bool) : List Char → List Char
  | [] => []
  | '\r' :: '\n' :: cs => skipLines false cs
  | c :: cs =>
    if c = '\n' then skipLines false cs
    else if inComment then if isPlain c then skipLines true cs else c :: cs
    else if isSpace c then skipLines false cs
    else if c = '#' then skipLines true cs
    else c :: cs

end DriveDelta.Toml
