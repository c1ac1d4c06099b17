import DriveDelta.Cache.Queue
import DriveDelta.Cache.Record
import DriveDelta.Cache.Round
import DriveDelta.Nanos

/-!
# The cache

A cache maps the items of one container to their records.  It is stale while it is empty, and again
when more than its refresh interval has passed since the last refresh that went through.

## What is here

* `CacheOptions`, `RefreshStrategy`, and `Cache` with `Cache.new?`;
* `Cache.needsRefresh`, whether the cache is stale;
* `Records.answer` and `Cache.lookup`, what the records say about an id;
* `Cache.commit`, which installs a finished round, and `Cache.record`, which notes how a refresh
  ended.
-/

set_option autoImplicit false

namespace DriveDelta

/-- How a refresh treats those who want to read meanwhile. -/
inductive RefreshStrategy where
  /-- They wait until it has ended. -/
  | exclusive
  /-- They read what was there before. -/
  | shadow
  deriving DecidableEq, Repr, Inhabited

structure CacheOptions where
  /-- How long a refresh keeps the cache fresh. -/
  refreshInterval : Nat
  strategy : RefreshStrategy := .exclusive
  page : PageConfig := {}
  deriving DecidableEq, Repr, Inhabited

/-- The records of a container, what is known about their age, and the two locks: one that
refreshers pass through one by one, and one on the records. -/
structure Cache where
  container : String
  options : CacheOptions
  records : Records := []
  /-- Where the next round begins; nothing stands for a full listing. -/
  cursor : Option String := none
  /-- Whether the last refresh that went through left any record. -/
  populated : Bool := false
  lastRefresh : Option Nat := none
  /-- Refreshes that went through. -/
  commits : Nat := 0
  /-- Refreshes that ended other than by cancellation. -/
  attempts : Nat := 0
  /-- How the last of them ended. -/
  outcome : Except Error Unit := .ok ()
  /-- The line of refreshers. -/
  refreshers : Queue := []
  /-- The line of readers and writers of the records. -/
  accessors : Queue := []

/-- What records say about an id. -/
def Records.answer (rs : Records) (id : String) : Except Error Record :=
  match rs.get? id with
  | some r =>
    if r.tombstoned then .error (.gone id)
    else if r.isAvailable then .ok r
    else .error (.notFound id)
  | none => .error (.notFound id)

namespace Cache

/-- The shortest refresh interval. -/
def shortestInterval : Nat := Nanos.second

/-- An empty cache for a container. -/
def new? (container : String) (options : CacheOptions) : Except Error Cache :=
  if container = "" then .error (.invalidArgument "container id is empty")
  else if options.refreshInterval < shortestInterval then
    .error (.invalidArgument
      ("refresh interval " ++ Nanos.text options.refreshInterval ++ " is below " ++
        Nanos.text shortestInterval))
  else .ok { container, options }

/-- Whether the cache is stale. -/
def needsRefresh (c : Cache) (now : Nat) : Bool :=
  !c.populated ||
    match c.lastRefresh with
    | some t => c.options.refreshInterval < now - t
    | none => true

def lookup (c : Cache) (id : String) : Except Error Record := c.records.answer id

/-- What installing a round leaves in the log. -/
structure Merged where
  pages : Nat
  items : Nat
  records : Nat
  skipped : Nat
  reset : Bool
  deriving DecidableEq, Repr, Inhabited

/-- Install a finished round: merge its items into the records, or into none after a full listing.
Malformed items do not keep the rest from being installed. -/
def commit (c : Cache) (l : Listing) (now : Nat) : Cache × Except Error Unit × Merged :=
  let m := Records.merge (if l.reset then [] else c.records) l.items
  ({ c with
      records := m.records
      cursor := l.cursor
      populated := !m.records.isEmpty
      lastRefresh := some now
      commits := c.commits + 1 },
    if m.errors.isEmpty then .ok () else .error (.incomplete m.errors),
    ⟨l.pages, l.items.length, m.records.length, m.skipped, l.reset⟩)

/-- Whether the outcome of a refresh is for those who waited, too.  A cancellation is nobody else's
concern. -/
def isShareable : Except Error Unit → Bool
  | .error (.cancelled _) => false
  | _ => true

/-- Note how a refresh ended. -/
def record (c : Cache) (outcome : Except Error Unit) : Cache :=
  if isShareable outcome then { c with outcome, attempts := c.attempts + 1 } else c

end Cache

end DriveDelta
