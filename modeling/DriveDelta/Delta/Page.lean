import DriveDelta.Error

/-!
# Pages of a listing

A container lists its changes page by page.  Each page holds items and, usually, a cursor: where
the next page begins, or, on the last page, where the next round of changes will begin.
-/

set_option autoImplicit false

namespace DriveDelta

/-- One entry of a page. -/
structure DeltaItem where
  id : Option String := none
  /-- Entries without this mark, such as folders, are not cached. -/
  isFile : Bool := false
  downloadUrl : Option String := none
  deleted : Bool := false
  deriving DecidableEq, Repr, Inhabited

namespace DeltaItem

def file (id url : String) : DeltaItem :=
  { id := some id, isFile := true, downloadUrl := some url }

def tombstone (id : String) : DeltaItem := { id := some id, isFile := true, deleted := true }

def folder (id : String) : DeltaItem := { id := some id }

end DeltaItem

/-- A page of items, and the cursor of what comes next. -/
structure DeltaPage where
  items : List DeltaItem := []
  cursor : Option String := none
  hasMore : Bool := false
  deriving DecidableEq, Repr, Inhabited

/-- How large pages should be, and which properties they should list; an empty list leaves that to
the remote. -/
structure PageConfig where
  pageSize : Option Nat := none
  select : List String := []
  deriving DecidableEq, Repr, Inhabited

end DriveDelta
