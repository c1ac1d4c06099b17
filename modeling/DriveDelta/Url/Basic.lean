import DriveDelta.Text.Blank
import DriveDelta.Url.Host
import DriveDelta.Url.Path

/-!
# URLs

A URL is read into its parts, each as it will be written.

## What is here

* `Url` and `Url.text`;
* `Url.parse`, which reads a URL that stands alone;
* `Url.addSegments` and `Url.addPairs`, which add to the path and to the query.
-/

set_option autoImplicit false

namespace DriveDelta

/-- The parts of a URL, encoded. -/
structure Url where
  scheme : List Char
  /-- Credentials, host and service number, if there is a double slash. -/
  authority : Option (List Char)
  /-- None for a URL whose path is a text without structure. -/
  path : Option Url.Path
  query : Option (List Char)
  fragment : Option (List Char)
  deriving DecidableEq, Repr, Inhabited

namespace Url

/-! ## Schemes -/

/-- What is known about a scheme. -/
inductive SchemeKind where
  /-- Hosts are required, and the usual service number is left out. -/
  | special (usual : Nat)
  | file
  | other
  deriving DecidableEq, Repr, Inhabited

def schemeKind (scheme : List Char) : SchemeKind :=
  if scheme = ['h', 't', 't', 'p'] ∨ scheme = ['w', 's'] then .special 80
  else if scheme = ['h', 't', 't', 'p', 's'] ∨ scheme = ['w', 's', 's'] then .special 443
  else if scheme = ['f', 't', 'p'] then .special 21
  else if scheme = ['f', 'i', 'l', 'e'] then .file
  else .other

def SchemeKind.isSpecial : SchemeKind → Bool
  | special _ | file => true
  | other => false

/-- The scheme before a colon. -/
def readScheme? (cs : List Char) : Option (List Char) :=
  let (name, rest) := cs.span fun c => c.isAlphanum || c == '+' || c == '-' || c == '.'
  match name, rest with
  | c :: _, ':' :: _ => if c.isAlpha then some (name.map Char.toLower) else none
  | _, _ => none

/-! ## Authority -/

/-- Whether a character ends the authority. -/
def endsAuthority (special : Bool) (c : Char) : Bool :=
  c == '/' || c == '?' || c == '#' || (special && c == '\\')

/-- The part before the last at sign, and the part behind it. -/
def splitLastAt (cs : List Char) : Option (List Char × List Char) :=
  let behind := (cs.reverse.takeWhile (· != '@')).reverse
  if behind.length = cs.length then none
  else some (cs.take (cs.length - behind.length - 1), behind)

/-- Credentials as they are written: nothing, or a user, a password if there is one, and an at
sign. -/
def credentialText (cs : List Char) : List Char :=
  let (user, rest) := cs.span (· != ':')
  let user := percentEncode inUserinfo user
  let password := percentEncode inUserinfo (rest.drop 1)
  let password := if password.isEmpty then [] else ':' :: password
  if user.isEmpty && password.isEmpty then [] else user ++ password ++ ['@']

/-- The host, up to a colon outside brackets, and the rest. -/
def spanHost (inside : Bool) : List Char → List Char × List Char
  | [] => ([], [])
  | c :: cs =>
    if c == ':' && !inside then ([], c :: cs)
    else
      let r := spanHost (if c == '[' then true else if c == ']' then false else inside) cs
      (c :: r.1, r.2)

/-- The service number behind its colon as it is written: left out if it is the usual one.  The rest
is what follows the digits; only a character that could end the authority may. -/
def readService (kind : SchemeKind) (cs : List Char) : Except ParseError (List Char × List Char) :=
  let (digits, rest) := cs.span (·.isDigit)
  let number := (Text.digitsFrom 0 digits).getD 0
  if 65535 < number then .error .invalidPort
  else
    let text :=
      if digits.isEmpty || kind = .special number then [] else ':' :: (toString number).toList
    match rest with
    | [] => .ok (text, [])
    | c :: _ => if endsAuthority true c then .ok (text, rest) else .error .invalidPort

/-- A host and a service number as they are written behind credentials, and what follows them. -/
def readAddress (kind : SchemeKind) (credentials address : List Char) :
    Except ParseError (List Char × List Char) := do
  let (hostText, afterHost) := spanHost false address
  if kind.isSpecial && hostText.isEmpty then throw .emptyHost
  let host ← if kind.isSpecial then readHost hostText else readOpaqueHost hostText
  if hostText.isEmpty && !afterHost.isEmpty then throw .emptyHost
  if hostText.isEmpty && !credentials.isEmpty then throw .emptyHost
  let (service, afterService) ←
    match afterHost with
    | ':' :: digits => readService kind digits
    | _ => pure ([], [])
  return (credentials ++ host ++ service, afterService)

/-- The authority as it is written, and what follows it. -/
def readAuthority (kind : SchemeKind) (cs : List Char) :
    Except ParseError (List Char × List Char) := do
  let (authority, rest) := cs.span fun c => !endsAuthority kind.isSpecial c
  let (credentials, address) ←
    match splitLastAt authority with
    | none => pure ([], authority)
    | some ([], behind) =>
      if behind.isEmpty && !rest.isEmpty then throw .emptyHost else pure ([], behind)
    | some (before, behind) => pure (credentialText before, behind)
  let (text, behind) ← readAddress kind credentials address
  return (text, behind ++ rest)

/-! ## Reading -/

/-- The part before the first occurrence of a character, and, if there is one, the part behind. -/
def cut (sep : Char) (cs : List Char) : List Char × Option (List Char) :=
  let (before, rest) := cs.span (· != sep)
  (before, rest.head?.map fun _ => rest.drop 1)

/-- The path text, the query and the fragment, the latter two encoded. -/
def splitTail (special : Bool) (cs : List Char) :
    List Char × Option (List Char) × Option (List Char) :=
  let encode (set : Char → Bool) (cs : List Char) := percentEncode set (cs.filter (!isIgnored ·))
  let (rest, fragment) := cut '#' cs
  let (path, query) := cut '?' rest
  (path, query.map (encode (if special then inSpecialQuery else inQuery)),
    fragment.map (encode inFragment))

/-- The path behind an authority. -/
def readPathStart (special : Bool) (cs : List Char) : Path :=
  match cs with
  | [] => if special then [[]] else []
  | c :: rest => readPath special (if isSlash special c then rest else c :: rest)

/-- The URL of a file on a host, or on none, with the text of its path.  A host does not count where
the path names a drive. -/
def fileUrl (scheme host cs : List Char) : Url :=
  let (text, query, fragment) := splitTail true cs
  let p := readFilePath text
  { scheme, authority := some (if p.hasDrive then [] else host), path := some p.path, query,
    fragment }

/-- The URL of a file, behind a double slash.  Without a host the slash before the path counts as
one more segment, which is empty. -/
def readFileAuthority (scheme cs : List Char) : Except ParseError Url := do
  let (raw, rest) := cs.span (!endsAuthority true ·)
  let hostText := raw.filter (!isIgnored ·)
  if isDriveLetter hostText then return fileUrl scheme [] cs
  else if hostText.isEmpty then return fileUrl scheme [] rest
  else
    let host ← readHost hostText
    if host = "localhost".toList then return fileUrl scheme [] rest
    else
      match rest with
      | [] => return fileUrl scheme host []
      | c :: behind => return fileUrl scheme host (if isSlash true c then behind else rest)

/-- The URL of a file, behind its scheme.  Ignored characters are still there. -/
def readFileUrl (scheme cs : List Char) : Except ParseError Url :=
  match cs.dropWhile isIgnored with
  | a :: rest =>
    if isSlash true a then
      match rest.dropWhile isIgnored with
      | b :: behind =>
        if isSlash true b then readFileAuthority scheme behind else .ok (fileUrl scheme [] rest)
      | [] => .ok (fileUrl scheme [] rest)
    else .ok (fileUrl scheme [] cs)
  | [] => .ok (fileUrl scheme [] cs)

/-- A URL behind its scheme. -/
def readBody (scheme raw : List Char) : Except ParseError Url := do
  let kind := schemeKind scheme
  let cs := raw.filter (!isIgnored ·)
  let withAuthority (cs : List Char) : Except ParseError Url := do
    let (authority, rest) ← readAuthority kind cs
    let (path, query, fragment) := splitTail kind.isSpecial rest
    return { scheme, authority := some authority, path := some (readPathStart kind.isSpecial path),
             query, fragment }
  match kind with
  | .file => readFileUrl scheme raw
  | .special _ => withAuthority (cs.dropWhile (isSlash true))
  | .other =>
    match cs with
    | '/' :: '/' :: rest => withAuthority rest
    | '/' :: rest =>
      let (path, query, fragment) := splitTail false rest
      return { scheme, authority := none, path := some (readPath false path), query, fragment }
    | _ =>
      let (_, query, fragment) := splitTail false cs
      return { scheme, authority := none, path := none, query, fragment }

/-- Blanks and controls, which may surround a URL. -/
def isMargin (c : Char) : Bool := c.toNat ≤ 0x20

/-- Read a URL that stands alone. -/
def parse (s : String) : Except ParseError Url :=
  let inner := ((s.toList.dropWhile isMargin).reverse.dropWhile isMargin).reverse
  match readScheme? (inner.filter (!isIgnored ·)) with
  | none => .error .noScheme
  | some scheme => readBody scheme ((inner.dropWhile (· ≠ ':')).drop 1)

/-! ## Writing -/

/-- A path that could be taken for an authority is written behind a dot. -/
def guardText (u : Url) : List Char :=
  match u.authority, u.path with
  | none, some ([] :: _ :: _) => ['/', '.']
  | _, _ => []

def text (u : Url) : List Char :=
  u.scheme ++ [':'] ++ (u.authority.map (['/', '/'] ++ ·)).getD [] ++ u.guardText ++
    (u.path.map pathText).getD [] ++ (u.query.map ('?' :: ·)).getD [] ++
    (u.fragment.map ('#' :: ·)).getD []

/-! ## Adding -/

/-- Add segments to the path; none for a URL whose path has no segments. -/
def addSegments? (u : Url) (segments : List (List Char)) : Option Url :=
  u.path.map fun p =>
    let kind := schemeKind u.scheme
    let add (p : Path) (s : List Char) : Path :=
      let q := addSegment kind.isSpecial p s
      if kind = .file then dropEmpty q else q
    { u with path := some (segments.foldl add p) }

/-- Whether a byte stands for itself in a form. -/
def isPlainInForm (b : UInt8) : Bool :=
  let c := Char.ofNat b.toNat
  c.isAlphanum || c == '*' || c == '-' || c == '.' || c == '_'

/-- A text in a form: a blank is written as a plus sign. -/
def formText (cs : List Char) : List Char :=
  (Utf8.encode cs).flatMap fun b =>
    if b.toNat = 0x20 then ['+']
    else if isPlainInForm b then [Char.ofNat b.toNat]
    else encodeByte b

/-- Add a pair to a form. -/
def addPair (form : List Char) (pair : List Char × List Char) : List Char :=
  form ++ (if form.isEmpty then [] else ['&']) ++ formText pair.1 ++ ['='] ++ formText pair.2

/-- Add pairs to the query, which there is even if they are none. -/
def addPairs (u : Url) (pairs : List (List Char × List Char)) : Url :=
  { u with query := some (pairs.foldl addPair (u.query.getD [])) }

end Url

end DriveDelta
