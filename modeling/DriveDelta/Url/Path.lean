import DriveDelta.Url.Percent

/-!
# Paths

A path is a list of segments, written with a slash before each.  The last one is the one that is
being written: it is empty after a slash.  A segment of one dot says where it is; one of two dots
takes back the segment before it.

## What is here

* `Url.Path` and `Url.pathText`;
* `Url.isSingleDot` and `Url.isDoubleDot`, dots written as such or percent-encoded;
* `Url.writeSegment`, which writes a segment in the place of the last one;
* `Url.addSegment`, which adds one behind the last, and `Url.readPath`, which reads a path.
-/

set_option autoImplicit false

namespace DriveDelta.Url

/-- The segments of a path, encoded.  No segment stands for an empty path, and one empty segment for
a lone slash. -/
abbrev Path := List (List Char)

/-- A path as it is written. -/
def pathText (p : Path) : List Char := p.flatMap ('/' :: ·)

/-- Characters that are passed over wherever they stand. -/
def isIgnored (c : Char) : Bool := c == '\t' || c == '\n' || c == '\r'

/-- The ways to write one dot. -/
def dots : List (List Char) := [['.'], ['%', '2', 'e'], ['%', '2', 'E']]

def isSingleDot (s : List Char) : Bool := dots.contains s

def isDoubleDot (s : List Char) : Bool := dots.any fun a => dots.any fun b => s == a ++ b

/-- A letter and a colon or bar, which name a drive. -/
def isDriveLetter : List Char → Bool
  | [c, d] => c.isAlpha && (d == ':' || d == '|')
  | _ => false

/-- Take back the segment before the last one and begin it anew.  A drive is not taken back. -/
def shorten (p : Path) : Path :=
  match p.reverse with
  | _ :: before :: rest => if isDriveLetter before then p else ([] :: rest).reverse
  | _ => [[]]

/-- Write an encoded segment in the place of the last one, which is empty. -/
def writeSegment (p : Path) (segment : List Char) : Path :=
  if isDoubleDot segment then shorten p
  else if isSingleDot segment then p
  else p.dropLast ++ [segment]

/-- Add a segment, encoded whole, behind the last one.  A lone slash is taken for its beginning. -/
def addSegment (special : Bool) (p : Path) (segment : List Char) : Path :=
  if segment = ['.'] ∨ segment = ['.', '.'] then p
  else
    let opened := if p = [[]] then p else p ++ [[]]
    writeSegment opened
      (percentEncode (if special then inSpecialSegment else inSegment)
        (segment.filter fun c => !isIgnored c))

/-- Whether a character ends a segment. -/
def isSlash (special : Bool) (c : Char) : Bool := c == '/' || (special && c == '\\')

/-- The pieces between slashes. -/
def splitSlashes (special : Bool) : List Char → List (List Char)
  | [] => [[]]
  | c :: cs =>
    if isSlash special c then [] :: splitSlashes special cs
    else
      match splitSlashes special cs with
      | s :: rest => (c :: s) :: rest
      | [] => [[c]]

/-- Write segments one after the other, with a slash between them. -/
def writeSegments (write : Path → List Char → Path) (p : Path) : List (List Char) → Path
  | [] => p
  | [s] => write p s
  | s :: rest =>
    let q := write p s
    writeSegments write (if isDoubleDot s || isSingleDot s then q else q ++ [[]]) rest

/-- Read a path that begins behind its first slash. -/
def readPath (special : Bool) (cs : List Char) : Path :=
  writeSegments writeSegment [[]]
    ((splitSlashes special (cs.filter fun c => !isIgnored c)).map (percentEncode inPath))

/-! ## Paths of files -/

/-- A drive letter with its colon, if ignored characters stand between these and what follows: that
is then a segment of its own. -/
def splitDrive? (raw : List Char) : Option (List Char × List Char) :=
  match raw.dropWhile isIgnored with
  | [] => none
  | c :: rest =>
    match rest.dropWhile isIgnored with
    | ':' :: d :: rest =>
      let behind := (d :: rest).filter (!isIgnored ·)
      if c.isAlpha && isIgnored d && !behind.isEmpty then some ([c, ':'], behind) else none
    | _ => none

/-- The path of a file that is being read, and whether it named a drive. -/
structure FilePath where
  path : Path := [[]]
  hasDrive : Bool := false
  deriving DecidableEq, Repr, Inhabited

/-- Write a segment in the place of the last one.  A drive that comes first is written with a
colon. -/
def FilePath.write (p : FilePath) (raw : List Char) : FilePath :=
  let segment := percentEncode inPath (raw.filter (!isIgnored ·))
  if p.path = [[]] then
    match splitDrive? raw with
    | some (drive, behind) => { p with path := [drive, percentEncode inPath behind] }
    | none =>
      if isDriveLetter segment then ⟨[segment.take 1 ++ [':']], true⟩
      else { p with path := writeSegment p.path segment }
  else { p with path := writeSegment p.path segment }

/-- Write segments one after the other, with a slash between them. -/
def FilePath.writeAll (p : FilePath) : List (List Char) → FilePath
  | [] => p
  | [s] => p.write s
  | s :: rest =>
    let q := p.write s
    let t := s.filter (!isIgnored ·)
    (if isDoubleDot t || isSingleDot t then q else { q with path := q.path ++ [[]] }).writeAll rest

/-- A path without the empty segments at its beginning. -/
def dropEmpty (p : Path) : Path :=
  match p.dropWhile (·.isEmpty) with
  | [] => [[]]
  | q => q

/-- Read the path of a file, and whether it names a drive. -/
def readFilePath (cs : List Char) : FilePath :=
  let p := FilePath.writeAll {} (splitSlashes true cs)
  { p with path := dropEmpty p.path }

end DriveDelta.Url
