/-!
# Points in time and spans

Both are natural numbers of nanoseconds: a point in time counts from the start of the run, a span
from nothing.  The clock of a run only ever shows whole milliseconds, so whatever is due between
two of them is seen at the later one.

## What is here

* the units `Nanos.second`, `Nanos.milli` and `Nanos.micro`;
* `Nanos.longest`, the longest span that can be written down, and `Nanos.times`, which stops there;
* `Nanos.after?`, a point in time that may lie beyond the clock, and `Nanos.wake`, the end of a
  sleep, which always exists;
* `Nanos.tick`, the first whole millisecond that is not before a point in time;
* `Nanos.text`, the short form of a span used in messages: `1s`, `999.999999ms`.
-/

set_option autoImplicit false

namespace DriveDelta.Nanos

def micro : Nat := 1000
def milli : Nat := 1000000
def second : Nat := 1000000000

def ofSeconds (n : Nat) : Nat := n * second

/-- The longest span: `2 ^ 64 - 1` seconds and `999999999` nanoseconds. -/
def longest : Nat := ofSeconds 0xFFFFFFFFFFFFFFFF + 999999999

/-- The last point in time that the clock can represent. -/
def lastInstant : Nat := ofSeconds 0x7FFFFFFFFFFFFFFF + 999999999

/-- `d` taken `k` times, or the longest span when that is shorter. -/
def times (d k : Nat) : Nat := min (d * k) longest

/-- Whole seconds of a span. -/
def wholeSeconds (d : Nat) : Nat := d / second

/-- Nanoseconds left over after the whole seconds. -/
def subsecond (d : Nat) : Nat := d % second

/-- Whole milliseconds as a 64-bit counter keeps them. -/
def milliCount (d : Nat) : Nat := d / milli % 0x10000000000000000

/-- The first whole millisecond that is not before `t`. -/
def tick (t : Nat) : Nat := (t + (milli - 1)) / milli * milli

/-- The point `d` after `now`, when the clock can represent it. -/
def after? (now d : Nat) : Option Nat :=
  if now + d ≤ lastInstant then some (now + d) else none

/-- How long a sleep lasts whose end the clock cannot represent: thirty years. -/
def patience : Nat := ofSeconds (86400 * 365 * 30)

/-- When a sleep of `d` that begins at `now` ends. -/
def wake (now d : Nat) : Nat := (after? now d).getD (now + patience)

theorem le_tick (t : Nat) : t ≤ tick t := by
  simp only [tick, milli]; omega

theorem tick_lt (t : Nat) : tick t < t + milli := by
  simp only [tick, milli]; omega

theorem wake_of_le {now d : Nat} (h : now + d ≤ lastInstant) : wake now d = now + d := by
  simp [wake, after?, h]

theorem le_wake (now d : Nat) : now ≤ wake now d := by
  unfold wake after?
  split <;> simp

/-! ## Short text -/

/-- The decimals of `part / 10 ^ width` without trailing zeros, behind a point if any are left. -/
def decimals (part width : Nat) : String :=
  let digits := Nat.toDigits 10 part
  let padded := List.replicate (width - digits.length) '0' ++ digits
  let kept := (padded.reverse.dropWhile (· == '0')).reverse
  if kept.isEmpty then "" else "." ++ String.ofList kept

/-- A span in the largest unit that leaves a whole part, with as many decimals as it needs. -/
def text (d : Nat) : String :=
  if second ≤ d then toString (d / second) ++ decimals (d % second) 9 ++ "s"
  else if milli ≤ d then toString (d / milli) ++ decimals (d % milli) 6 ++ "ms"
  else if micro ≤ d then toString (d / micro) ++ decimals (d % micro) 3 ++ "µs"
  else toString d ++ "ns"

end DriveDelta.Nanos
