import DriveDelta.Config.Basic
import DriveDelta.Toml.Value

/-!
# Configurations as TOML

A record is written as a table, or as an array of its members in their order.  Members that are not
known are passed over, and so is a date or a time in the place of a record, which has no member that
is known.

## What is here

* `Config.members?`, the members of a record;
* a reader for each kind of member, of which `Config.choice?` reads a name out of a few;
* `Config.ofToml?`, a whole configuration.
-/

set_option autoImplicit false

namespace DriveDelta

/-- The double that is nearest to a whole number. -/
def Double.ofInt (n : Int) : Double := .round (n < 0) n.natAbs 1

namespace Config

open Toml (Value)

/-- The members of a record by name or, in an array, by place. -/
def members? (names : List String) : Value → Option (List (Option Value))
  | .table ms => some (names.map fun name => Toml.get? name ms)
  | .array vs => some ((List.range names.length).map fun i => vs[i]?)
  | .moment => some (names.map fun _ => none)
  | _ => none

/-- A whole number below a bound. -/
def natural? (bound : Nat) : Value → Option Nat
  | .integer n => if 0 ≤ n ∧ n < bound then some n.toNat else none
  | _ => none

/-- A number of 32 bits. -/
def count? : Value → Option Nat := natural? 0x100000000

/-- A number of seconds. -/
def seconds? : Value → Option Nat := natural? 0x10000000000000000

/-- A rate or a span with a fraction; a whole number will do. -/
def double? : Value → Option Double
  | .float x => some x
  | .integer n => some (.ofInt n)
  | _ => none

/-- One of a few names.  A name may also be the only key of a table, with nothing in it. -/
def choice? {α : Type} (choices : List (String × α)) : Value → Option α
  | .text s => Toml.get? s choices
  | .table [(k, .table [])] => Toml.get? k choices
  | .table [(k, .array [])] => Toml.get? k choices
  | _ => none

def serviceClass? : Value → Option ServiceClass :=
  choice? [("default", .standard), ("bulk_container", .bulkContainer)]

def serviceClasses? : Value → Option (List ServiceClass)
  | .array vs => vs.mapM serviceClass?
  | _ => none

def strategy? : Value → Option RefreshStrategy :=
  choice? [("exclusive", .exclusive), ("shadow", .shadow)]

/-- A member that may be left out for a value of its own. -/
def orElse? {α : Type} (read? : Value → Option α) (absent : α) : Option Value → Option α
  | none => some absent
  | some v => read? v

/-- A member that may be left out. -/
def optional? {α : Type} (read? : Value → Option α) : Option Value → Option (Option α)
  | none => some none
  | some v => (read? v).map some

def retry? (v : Value) : Option RetryConfig := do
  let [attempts, shortest, longest, timeout] ←
      members? ["max_attempts", "min_backoff_secs", "max_backoff_secs", "per_call_timeout_secs"] v
    | none
  return {
    maxAttempts := ← attempts.bind count?
    minBackoffSeconds := ← shortest.bind double?
    maxBackoffSeconds := ← longest.bind seconds?
    perCallTimeoutSeconds := ← timeout.bind seconds? }

def pool? (v : Value) : Option (PoolConfig Double) := do
  let [capacity, rate] ← members? ["capacity", "refill_per_sec"] v | none
  return { capacity := ← capacity.bind count?, refillPerSecond := ← rate.bind double? }

/-- The adaptive pools are those of the standard class, unless others are named. -/
def sliding? (v : Value) : Option (SlidingConfig Double) := do
  let [lowest, successes, classes] ←
      members? ["floor_per_sec", "recovery_successes", "classes"] v
    | none
  return {
    floorPerSecond := ← lowest.bind double?
    recoverySuccesses := ← successes.bind count?
    classes := ← orElse? serviceClasses? [.standard] classes }

/-- A limiter that is configured has adaptive pools only if they are configured too. -/
def limiter? (v : Value) : Option (LimiterConfig Double) := do
  let [standard, bulk, sliding] ← members? ["default", "bulk", "sliding"] v | none
  return {
    standard := ← orElse? pool? LimiterConfig.builtin.standard standard
    bulk := ← orElse? pool? LimiterConfig.builtin.bulk bulk
    sliding := ← optional? sliding? sliding }

def cache? (v : Value) : Option CacheConfig := do
  let [interval, strategy, pageSize] ←
      members? ["refresh_interval_secs", "strategy", "page_size"] v
    | none
  return {
    refreshIntervalSeconds :=
      ← orElse? seconds? CacheConfig.builtin.refreshIntervalSeconds interval
    strategy := ← orElse? strategy? CacheConfig.builtin.strategy strategy
    pageSize := ← optional? count? pageSize }

/-- A configuration; each section that is left out has its built-in values. -/
def ofToml? (document : List (String × Value)) : Option Config := do
  return {
    retry := ← optional? retry? (Toml.get? "retry" document)
    limiter := ← orElse? limiter? .builtin (Toml.get? "limiter" document)
    urlCache := ← orElse? cache? .builtin (Toml.get? "url_cache" document) }

end Config

end DriveDelta
