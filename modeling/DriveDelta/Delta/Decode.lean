import DriveDelta.Delta.Page
import DriveDelta.Json.Parser

/-!
# Reading a page

The body of a page is a JSON object with the items under `value`, and one of two links: to the next
page, or to where the next round of changes begins.  An item that has a `file` is a file, one that
has a `deleted` was deleted, and its download address stands under one of two annotations.  What is
not mentioned here may be there and is passed over; but members of items have to be storable, since
any of them may be asked for.

## What is here

* `DeltaItem.ofJson?` and `DeltaPage.ofJson?`;
* `DeltaPage.decode`, a page from its bytes.
-/

set_option autoImplicit false

namespace DriveDelta

/-- The annotations that may hold the download address of an item, first choice first. -/
def downloadUrlKeys : List String := ["@microsoft.graph.downloadUrl", "@content.downloadUrl"]

/-- The link to the next page. -/
def nextLinkKey : String := "@odata.nextLink"

/-- The link to the next round of changes. -/
def deltaLinkKey : String := "@odata.deltaLink"

/-- How deep the values of an item's members may be nested: at most 127 levels in all, of which the
page, its list of items and the item are three. -/
def memberLevels : Nat := 124

namespace Json

/-- A text that may be absent or null. -/
def optionalText? : Option Json → Option (Option String)
  | none | some .null => some none
  | some (.string s) => (textOf? s).map some
  | some _ => none

/-- Whether a member is there and is not null. -/
def isPresent : Option Json → Bool
  | none | some .null => false
  | some _ => true

/-- The text of a member, if it is a string. -/
def text? : Option Json → Option String
  | some (.string s) => textOf? s
  | _ => none

/-- The members of a name occur at most once each. -/
def once (members : List (List Piece × Json)) (names : List String) : Bool :=
  names.all fun name => count members name ≤ 1

/-- The names of all members are texts. -/
def namesAreTexts (members : List (List Piece × Json)) : Bool :=
  members.all fun m => (textOf? m.1).isSome

end Json

open Json

/-- The item that a value describes. -/
def DeltaItem.ofJson? : Json → Option DeltaItem
  | .object members => do
    if !once members ["id", "file", "deleted"] then none
    if !membersStorable memberLevels members then none
    let id ← optionalText? (get? members "id")
    return {
      id
      isFile := isPresent (get? members "file")
      deleted := isPresent (get? members "deleted")
      downloadUrl := downloadUrlKeys.findSome? fun k => text? (get? members k) }
  | _ => none

namespace DeltaPage

/-- The page of a list of items and two links. -/
def ofParts? (items next delta : Option Json) : Option DeltaPage := do
  let items ←
    match items with
    | none => some []
    | some (.array vs) => vs.mapM DeltaItem.ofJson?
    | some _ => none
  let next ← optionalText? next
  let delta ← optionalText? delta
  return { items, cursor := next.or delta, hasMore := next.isSome }

/-- The page that a value describes: an object, or an array of its three parts. -/
def ofJson? : Json → Option DeltaPage
  | .object members => do
    if !once members ["value", nextLinkKey, deltaLinkKey] then none
    if !namesAreTexts members then none
    ofParts? (get? members "value") (get? members nextLinkKey) (get? members deltaLinkKey)
  | .array [items, next, delta] => ofParts? (some items) (some next) (some delta)
  | _ => none

/-- The error for a body that is no page.  What the reader has to say of the place where it gave up
is left out of the message. -/
def malformed : Error := .fatal none "malformed delta page"

/-- The page that a body holds. -/
def decode (body : Bytes) : Except Error DeltaPage :=
  match (Json.parse? body).bind ofJson? with
  | some page => .ok page
  | none => .error malformed

end DeltaPage

end DriveDelta
