import DriveDelta.Toml.Value

/-!
# Tables under construction

A document fills its tables bit by bit: headers open them, and keys with points in them reach into
them.  How a table came to be says what may still be done to it.

## What is here

* `Toml.Standing` and `Toml.Node`;
* `Toml.put?`, which gives a key its value, `Toml.openTable?` and `Toml.openElement?`, which open
  what a header names, and `Toml.within?`, which works in a table that is open;
* `Toml.Node.value`, what has been built.
-/

set_option autoImplicit false

namespace DriveDelta.Toml

/-- How a table came to be. -/
inductive Standing where
  /-- Its header has been seen. -/
  | opened
  /-- The header of a table inside it has been seen. -/
  | implied
  /-- A key with a point has reached into it. -/
  | dotted
  deriving DecidableEq, Repr, Inhabited

/-- What stands at a key. -/
inductive Node where
  /-- A value, which nothing can be added to. -/
  | value (v : Value)
  | table (standing : Standing) (members : List (String × Node))
  /-- An array of tables, the last one first. -/
  | tables (last : List (String × Node)) (others : List (List (String × Node)))
  deriving Inhabited

/-- The members of a table. -/
abbrev Members := List (String × Node)

/-- Give a value to a key, reached through tables.  No key has two values, and only tables that
have no header of their own can be reached into. -/
def put? (key : String) (v : Value) : List String → Members → Option Members
  | [], ms =>
    match get? key ms with
    | some _ => none
    | none => some (set key (.value v) ms)
  | k :: path, ms =>
    match get? k ms with
    | none => (put? key v path []).map fun t => set k (.table .dotted t) ms
    | some (.table .dotted t) => (put? key v path t).map fun t => set k (.table .dotted t) ms
    | some (.table .implied t) =>
      if path.isEmpty then none
      else (put? key v path t).map fun t => set k (.table .implied t) ms
    | some (.tables t ts) =>
      if path.isEmpty then none
      else (put? key v path t).map fun t => set k (.tables t ts) ms
    | some (.table .opened _) | some (.value _) => none

/-- Work in the table that a path leads to.  Missing tables are implied, and an array of tables
leads into its last one. -/
def within? (f : Members → Option Members) : List String → Members → Option Members
  | [], ms => f ms
  | k :: path, ms =>
    match get? k ms with
    | none => (within? f path []).map fun t => set k (.table .implied t) ms
    | some (.table s t) => (within? f path t).map fun t => set k (.table s t) ms
    | some (.tables t ts) => (within? f path t).map fun t => set k (.tables t ts) ms
    | some (.value _) => none

/-- Open a table, which must be new or only implied so far. -/
def openTable? (key : String) (ms : Members) : Option Members :=
  match get? key ms with
  | none => some (set key (.table .opened []) ms)
  | some (.table .implied t) => some (set key (.table .opened t) ms)
  | some _ => none

/-- Open another element of an array of tables, or its first one. -/
def openElement? (key : String) (ms : Members) : Option Members :=
  match get? key ms with
  | none => some (set key (.tables [] []) ms)
  | some (.tables t ts) => some (set key (.tables [] (t :: ts)) ms)
  | some _ => none

mutual

/-- The value that has been built at a key. -/
def Node.toValue : Node → Value
  | .value v => v
  | .table _ members => .table (valuesOf members)
  | .tables last others => .array (elementsOf others [.table (valuesOf last)])

/-- The values of the members of a table. -/
def valuesOf : List (String × Node) → List (String × Value)
  | [] => []
  | (k, n) :: rest => (k, n.toValue) :: valuesOf rest

/-- The elements of an array of tables, the last one first, before those that follow. -/
def elementsOf : List (List (String × Node)) → List Value → List Value
  | [], after => after
  | t :: ts, after => elementsOf ts (.table (valuesOf t) :: after)

end

end DriveDelta.Toml
