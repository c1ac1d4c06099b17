import DriveDelta.Config.Basic
import DriveDelta.Text.Decimal

/-!
# Sections of a configuration, as they are written

## What is here

* `Decimal.text`, a number with a fraction;
* `Config.Section`, a section with the values that it gives, and `Config.Section.text`;
* `Config.text`, sections one after the other, and `Config.builtinSections`, which say what the
  built-in configuration says.
-/

set_option autoImplicit false

namespace DriveDelta

/-- A decimal in digits: with a point if its exponent is negative, else with its exponent. -/
def Decimal.text (d : Decimal) : String :=
  let sign := if d.negative then "-" else ""
  if d.exponent < 0 then
    let places := d.exponent.natAbs
    let fraction := toString (d.digits % Nat.pow 10 places)
    sign ++ toString (d.digits / Nat.pow 10 places) ++ "." ++
      String.ofList (List.replicate (places - fraction.length) '0') ++ fraction
  else sign ++ toString d.digits ++ "e" ++ toString d.exponent.natAbs

namespace Config

/-- A section of a configuration.  A value that may be left out is optional here. -/
inductive Section where
  | retry (maxAttempts : Nat) (minBackoff : Decimal) (maxBackoff perCallTimeout : Nat)
  | pool (c : ServiceClass) (capacity : Nat) (refill : Decimal)
  | sliding (lowest : Decimal) (recoverySuccesses : Nat) (classes : Option (List ServiceClass))
  | cache (interval : Option Nat) (strategy : Option RefreshStrategy) (pageSize : Option Nat)
  deriving DecidableEq, Repr

namespace Section

def className : ServiceClass → String
  | .standard => "default"
  | .bulkContainer => "bulk_container"

def strategyName : RefreshStrategy → String
  | .exclusive => "exclusive"
  | .shadow => "shadow"

def quoted (s : String) : String := "\"" ++ s ++ "\""

/-- The path in the header of a section. -/
def path : Section → List String
  | retry .. => ["retry"]
  | pool .standard .. => ["limiter", "default"]
  | pool .bulkContainer .. => ["limiter", "bulk"]
  | sliding .. => ["limiter", "sliding"]
  | cache .. => ["url_cache"]

/-- The keys of a section and their values as text. -/
def entries : Section → List (String × String)
  | retry maxAttempts minBackoff maxBackoff perCallTimeout =>
    [("max_attempts", toString maxAttempts), ("min_backoff_secs", minBackoff.text),
      ("max_backoff_secs", toString maxBackoff), ("per_call_timeout_secs", toString perCallTimeout)]
  | pool _ capacity refill => [("capacity", toString capacity), ("refill_per_sec", refill.text)]
  | sliding lowest recoverySuccesses classes =>
    [("floor_per_sec", lowest.text), ("recovery_successes", toString recoverySuccesses)] ++
      (classes.map fun cs =>
        ("classes", "[" ++ ", ".intercalate (cs.map fun c => quoted (className c)) ++ "]")).toList
  | cache interval strategy pageSize =>
    (interval.map fun n => ("refresh_interval_secs", toString n)).toList ++
      (strategy.map fun s => ("strategy", quoted (strategyName s))).toList ++
      (pageSize.map fun n => ("page_size", toString n)).toList

/-- The header of a section and a line for each of its keys. -/
def text (s : Section) : String :=
  "[" ++ ".".intercalate s.path ++ "]\n" ++
    String.join (s.entries.map fun (key, value) => key ++ " = " ++ value ++ "\n")

end Section

/-- Sections with a blank line between them. -/
def text (sections : List Section) : String := "\n".intercalate (sections.map Section.text)

/-- Sections that say what the built-in configuration says. -/
def builtinSections : List Section :=
  [.pool .standard 200 ⟨false, 160, -1⟩, .pool .bulkContainer 300 ⟨false, 200, -1⟩,
    .sliding ⟨false, 20, -1⟩ 10 (some [.standard]), .cache (some 3600) (some .exclusive) none]

end Config

end DriveDelta
