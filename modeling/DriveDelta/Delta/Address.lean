import DriveDelta.Delta.Page
import DriveDelta.Url.Basic

/-!
# The first page of a drive

The first page of a full listing stands at a fixed place below the base URL of the service; how the
pages should look is said in the query.

## What is here

* `DriveAddress.base`, a base URL as it is kept, and `DriveAddress.firstPage`, the address.
-/

set_option autoImplicit false

namespace DriveDelta.DriveAddress

/-- A base URL without the slashes at its end. -/
def base (s : String) : String :=
  String.ofList (s.toList.reverse.dropWhile (· == '/')).reverse

def badBase (base : String) (e : Url.ParseError) : Error :=
  .invalidArgument ("invalid base url " ++ base ++ ": " ++ e.message)

def flatBase (base : String) : Error :=
  .invalidArgument ("base url cannot be a base: " ++ base)

/-- The segments below the base that lead to the listing of a drive. -/
def segments (drive : String) : List (List Char) :=
  ["drives".toList, drive.toList, "root".toList, "delta".toList]

/-- What the query says about pages. -/
def pairs (page : PageConfig) : List (List Char × List Char) :=
  (page.pageSize.map fun n => ("$top".toList, (toString n).toList)).toList ++
    if page.select.isEmpty then []
    else [("$select".toList, (String.intercalate "," page.select).toList)]

/-- A text without a question mark at its end. -/
def dropQuestionMark (cs : List Char) : List Char :=
  if cs.getLast? = some '?' then cs.dropLast else cs

/-- The address of the first page of a drive's listing below a base URL. -/
def firstPage (baseUrl drive : String) (page : PageConfig) : Except Error String :=
  let base := base baseUrl
  match Url.parse base with
  | .error e => .error (badBase base e)
  | .ok url =>
    match url.addSegments? (segments drive) with
    | none => .error (flatBase base)
    | some url => .ok (String.ofList (dropQuestionMark (url.addPairs (pairs page)).text))

end DriveDelta.DriveAddress
