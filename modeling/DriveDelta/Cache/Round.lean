import DriveDelta.Delta.Page

/-!
# Rounds of a listing

A round fetches pages until one says that nothing more follows.  It starts at the saved cursor, or
from nothing for a full listing.  If the remote rejects the cursor of a round that is not a full
listing, the round starts over as one, and what it had fetched is dropped.

## What is here

* `Round`, what has been fetched so far and where the next page begins, and `Round.start`;
* `Listing`, a finished round;
* `Round.next`, what the answer to the request for a page leads to.
-/

set_option autoImplicit false

namespace DriveDelta

/-- A round in progress. -/
structure Round where
  /-- Where the next page begins; nothing asks for the first page of a full listing. -/
  cursor : Option String
  /-- Whether this is a full listing, which replaces all that was known. -/
  reset : Bool
  items : List DeltaItem := []
  pages : Nat := 0
  deriving DecidableEq, Repr, Inhabited

/-- A finished round: its items, and where the next one begins. -/
structure Listing where
  items : List DeltaItem
  cursor : Option String
  reset : Bool
  pages : Nat
  deriving DecidableEq, Repr, Inhabited

/-- What a round leaves in the log. -/
inductive RoundEvent where
  | restarted
  | fetched (page items : Nat) (hasMore : Bool)
  deriving DecidableEq, Repr, Inhabited

namespace Round

/-- The round that begins at a saved cursor. -/
def start (cursor : Option String) : Round := { cursor, reset := cursor.isNone }

/-- Where an answer leads. -/
inductive Next where
  /-- Another page is to be fetched. -/
  | more (round : Round)
  | complete (listing : Listing)
  | failed (error : Error)
  deriving Repr, Inhabited

def expiredInFullListing : Error :=
  .fatal none "delta cursor expired during a full enumeration"

def moreWithoutCursor : Error :=
  .fatal none "delta page reported more results without a cursor"

/-- Take in one page. -/
def take (r : Round) (page : DeltaPage) : Next :=
  let items := r.items ++ page.items
  let pages := r.pages + 1
  if !page.hasMore then .complete ⟨items, page.cursor, r.reset, pages⟩
  else
    match page.cursor with
    | some c => .more { r with cursor := some c, items, pages }
    | none => .failed moreWithoutCursor

/-- What the answer to the request for a page leads to, and what it leaves in the log. -/
def next (r : Round) (answer : Except Error DeltaPage) : Next × List RoundEvent :=
  match answer with
  | .error .cursorExpired =>
    if r.reset then (.failed expiredInFullListing, [])
    else (.more (start none), [.restarted])
  | .error e => (.failed e, [])
  | .ok page => (r.take page, [.fetched (r.pages + 1) page.items.length page.hasMore])

end Round

end DriveDelta
