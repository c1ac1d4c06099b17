import DriveDelta.Json.Lexer

/-!
# Reading JSON

The arrays and objects that are open are held on a stack, innermost first, so that a text may be
nested as deep as it likes.

## What is here

* `Json.Frame` and `Json.Expect`, what is open and what has to come next;
* `Json.parseToken`, one token, and `Json.parse?`, which reads a whole text.
-/

set_option autoImplicit false

namespace DriveDelta.Json

/-- An array or object that is open; items and members are held in reverse. -/
inductive Frame where
  | array (items : List Json)
  /-- An object that waits for the value of a member. -/
  | object (members : List (List Piece × Json)) (name : List Piece)

/-- What has to come next. -/
inductive Expect where
  | value
  /-- A first item or the end of an array. -/
  | firstItem
  /-- A first member or the end of an object. -/
  | firstMember
  /-- A further member of an object. -/
  | member (members : List (List Piece × Json))
  | colon (members : List (List Piece × Json)) (name : List Piece)
  /-- A comma or the end of an array. -/
  | afterItem (items : List Json)
  /-- A comma or the end of an object. -/
  | afterMember (members : List (List Piece × Json))
  /-- Nothing: this is the value of the text. -/
  | nothing (v : Json)

/-- Put a finished value into the innermost open array or object. -/
def supply (v : Json) : List Frame → List Frame × Expect
  | [] => ([], .nothing v)
  | .array items :: stack => (stack, .afterItem (v :: items))
  | .object members name :: stack => (stack, .afterMember ((name, v) :: members))

/-- A token that begins a value. -/
def parseValue (stack : List Frame) : Token → Option (List Frame × Expect)
  | .null => some (supply .null stack)
  | .bool b => some (supply (.bool b) stack)
  | .number n => some (supply (.number n) stack)
  | .string s => some (supply (.string s) stack)
  | .openArray => some (stack, .firstItem)
  | .openObject => some (stack, .firstMember)
  | _ => none

/-- One token: what is open after it, and what has to come next. -/
def parseToken (stack : List Frame) (e : Expect) (t : Token) : Option (List Frame × Expect) :=
  match e, t with
  | .value, t => parseValue stack t
  | .firstItem, .closeArray => some (supply (.array []) stack)
  | .firstItem, t => parseValue (.array [] :: stack) t
  | .firstMember, .closeObject => some (supply (.object []) stack)
  | .firstMember, .string s => some (stack, .colon [] s)
  | .member members, .string s => some (stack, .colon members s)
  | .colon members name, .colon => some (.object members name :: stack, .value)
  | .afterItem items, .comma => some (.array items :: stack, .value)
  | .afterItem items, .closeArray => some (supply (.array items.reverse) stack)
  | .afterMember members, .comma => some (stack, .member members)
  | .afterMember members, .closeObject => some (supply (.object members.reverse) stack)
  | _, _ => none

/-- The value of the tokens that follow. -/
def parseTokens : List Frame → Expect → List Token → Option Json
  | _, .nothing v, [] => some v
  | _, _, [] => none
  | stack, e, t :: rest => (parseToken stack e t).bind fun r => parseTokens r.1 r.2 rest

/-- The value that a text has. -/
def parse? (bs : Bytes) : Option Json := (tokens? bs).bind (parseTokens [] .value)

end DriveDelta.Json
