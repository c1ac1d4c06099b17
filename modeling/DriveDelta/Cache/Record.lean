import DriveDelta.Delta.Page

/-!
# Records

The cache knows each item by its latest record.  Items are merged into records one after the other,
so the last item with a given id decides.

## What is here

* `Record` and `Record.isAvailable`; `Records`, with `Records.get?` and `Records.put`;
* `Record.ofItem?`, the record that an item stands for;
* `Records.merge`, which merges a list of items and counts what it had to pass over.
-/

set_option autoImplicit false

namespace DriveDelta

/-- The latest known state of an item. -/
structure Record where
  id : String
  accessLocator : Option String := none
  tombstoned : Bool := false
  deriving DecidableEq, Repr, Inhabited

/-- Present and downloadable. -/
def Record.isAvailable (r : Record) : Bool := !r.tombstoned && r.accessLocator.isSome

/-- Records by id. -/
abbrev Records := List (String × Record)

namespace Records

def get? (rs : Records) (id : String) : Option Record := List.lookup id rs

/-- Replace the record of an id, or add it. -/
def put : Records → String → Record → Records
  | [], id, r => [(id, r)]
  | e :: rs, id, r => if id == e.1 then (id, r) :: rs else e :: put rs id r

end Records

/-- Why an item leaves no record. -/
inductive ItemFault where
  /-- It is not a file. -/
  | notAFile
  /-- It is a file without an id. -/
  | nameless
  deriving DecidableEq, Repr, Inhabited

/-- The record error for a file without an id. -/
def ItemFault.error : Error := .fatal none "delta item has a file marker but no id"

/-- The record that an item stands for.  A tombstone has no locator, and an empty locator is
none. -/
def Record.ofItem? (item : DeltaItem) : Except ItemFault Record :=
  if !item.isFile then .error .notAFile
  else
    match item.id.filter (· ≠ "") with
    | none => .error .nameless
    | some id =>
      if item.deleted then .ok { id, tombstoned := true }
      else .ok { id, accessLocator := item.downloadUrl.filter (· ≠ "") }

/-- What merging a list of items gave. -/
structure Merge where
  records : Records
  /-- One error for each file without an id. -/
  errors : List Error := []
  /-- How many items were no files. -/
  skipped : Nat := 0
  deriving DecidableEq, Repr, Inhabited

namespace Merge

/-- Merge one item. -/
def add (m : Merge) (item : DeltaItem) : Merge :=
  match Record.ofItem? item with
  | .ok r => { m with records := m.records.put r.id r }
  | .error .notAFile => { m with skipped := m.skipped + 1 }
  | .error .nameless => { m with errors := m.errors ++ [ItemFault.error] }

end Merge

/-- Merge items into records, in order. -/
def Records.merge (rs : Records) (items : List DeltaItem) : Merge :=
  items.foldl Merge.add { records := rs }

end DriveDelta
