import DriveDelta.Admission.Limiter
import DriveDelta.Cache.Basic
import DriveDelta.Retry.Budget

/-!
# Configuration

Everything that can be configured, as it is written in a configuration: spans in seconds, of which
only the shortest pause may have a fraction.

## What is here

* `RetryConfig`, with the budget that it stands for, `RetryConfig.toBudget`;
* `CacheConfig`, with `CacheConfig.toOptions`;
* `Config`, the three sections together, and the built-in values of each.
-/

set_option autoImplicit false

namespace DriveDelta

structure RetryConfig where
  maxAttempts : Nat
  minBackoffSeconds : Double
  maxBackoffSeconds : Nat
  perCallTimeoutSeconds : Nat
  deriving DecidableEq, Repr

namespace RetryConfig

def builtin : RetryConfig where
  maxAttempts := RetryBudget.standard.maxAttempts
  minBackoffSeconds := Double.seconds RetryBudget.standard.minBackoff
  maxBackoffSeconds := Nanos.wholeSeconds RetryBudget.standard.maxBackoff
  perCallTimeoutSeconds := Nanos.wholeSeconds RetryBudget.standard.perCallTimeout

/-- The budget that a configuration stands for.  A shortest pause that is no span, or is longer
than the longest pause, is brought into range, and neither attempts nor timeout can be zero. -/
def toBudget (c : RetryConfig) : RetryBudget where
  maxAttempts := max c.maxAttempts 1
  minBackoff :=
    let longest := Nanos.ofSeconds c.maxBackoffSeconds
    min (((c.minBackoffSeconds.max .zero).nanos?).getD longest) longest
  maxBackoff := Nanos.ofSeconds c.maxBackoffSeconds
  perCallTimeout := Nanos.ofSeconds (max c.perCallTimeoutSeconds 1)

end RetryConfig

structure CacheConfig where
  refreshIntervalSeconds : Nat
  strategy : RefreshStrategy
  pageSize : Option Nat
  deriving DecidableEq, Repr

namespace CacheConfig

def builtin : CacheConfig := ⟨3600, .exclusive, none⟩

def toOptions (c : CacheConfig) : CacheOptions where
  refreshInterval := Nanos.ofSeconds c.refreshIntervalSeconds
  strategy := c.strategy
  page := { pageSize := c.pageSize }

end CacheConfig

/-- The sections of a configuration. -/
structure Config where
  /-- Without this section the standard budget holds. -/
  retry : Option RetryConfig
  limiter : LimiterConfig Double
  urlCache : CacheConfig
  deriving DecidableEq, Repr

namespace Config

def builtin : Config := ⟨none, .builtin, .builtin⟩

def retryBudget (c : Config) : RetryBudget := (c.retry.map (·.toBudget)).getD .standard

end Config

end DriveDelta
