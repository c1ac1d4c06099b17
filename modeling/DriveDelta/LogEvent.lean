import DriveDelta.Cache.Visit
import DriveDelta.Retry.Call
import DriveDelta.Text.Quoted

/-!
# The log

Limiter, calls and cache visits tell what they do in events of their own.  A log event is one of
them; here each gets its level, its message and its fields.

## What is here

* `LogEvent` and `LogLevel`;
* `LogEvent.level`, `LogEvent.message` and `LogEvent.fields`, the fields as text, by name.
-/

set_option autoImplicit false

namespace DriveDelta

inductive LogLevel where
  | debug | info | warn
  deriving DecidableEq, Repr, Inhabited

/-- Anything that is told in the log. -/
inductive LogEvent (α : Type) where
  | admission (event : AdmissionEvent α)
  | call (event : CallEvent)
  | visit (container : String) (event : Visit.Event)

namespace LogEvent

def className : ServiceClass → String
  | .standard => "Default"
  | .bulkContainer => "BulkContainer"

def strategyName : RefreshStrategy → String
  | .exclusive => "Exclusive"
  | .shadow => "Shadow"

def flag : Bool → String
  | true => "true"
  | false => "false"

/-- A transport error by name, with its problem between quotes. -/
def transportName : TransportError → String
  | .connectionReset => "ConnectionReset"
  | .handlerTimeout => "HandlerTimeout"
  | .auth problem => "Auth(" ++ Text.quoted problem ++ ")"
  | .other problem => "Other(" ++ Text.quoted problem ++ ")"

def outcomeStatus : Except TransportError Nat → Option String
  | .ok status => some (toString status)
  | .error _ => none

def outcomeError : Except TransportError Nat → Option String
  | .ok _ => none
  | .error e => some (transportName e)

variable {α : Type}

def level : LogEvent α → LogLevel
  | admission _ => .debug
  | call _ => .warn
  | visit _ (.refreshing _) | visit _ (.refreshed _) => .info
  | visit _ (.round .restarted) | visit _ (.refreshFailed _) | visit _ (.malformedSkipped _) =>
    .warn
  | visit _ (.round (.fetched ..)) | visit _ (.merged _) => .debug

def message : LogEvent α → String
  | admission (.waiting ..) => "waiting for admission tokens"
  | admission (.rateChanged _ change) =>
    if change.raised then "sliding limiter sped up" else "sliding limiter slowed down"
  | call (.retrying ..) => "retrying outbound call"
  | call (.exhausted ..) => "retry budget exhausted"
  | visit _ (.refreshing _) => "refreshing url cache"
  | visit _ (.refreshed _) => "url cache refreshed"
  | visit _ (.refreshFailed _) => "url cache refresh failed; keeping previous state"
  | visit _ (.round .restarted) => "delta cursor expired; restarting full enumeration"
  | visit _ (.round (.fetched ..)) => "delta page fetched"
  | visit _ (.merged _) => "delta merged"
  | visit _ (.malformedSkipped _) => "url cache refresh skipped malformed records"

/-- The fields of an event; `amount` writes a rate. -/
def fields (amount : α → String) : LogEvent α → List (String × String)
  | admission (.waiting c cost wait) =>
    [("service_class", className c), ("cost", toString cost),
      ("wait_ms", toString (Nanos.milliCount wait))]
  | admission (.rateChanged c change) =>
    [("service_class", className c), ("from", amount change.before), ("to", amount change.after)]
  | call (.retrying url attempt maxAttempts outcome pause) =>
    [("url", url), ("attempt", toString attempt), ("max_attempts", toString maxAttempts),
      ("status", Text.optional (outcomeStatus outcome)),
      ("error", Text.optional (outcomeError outcome)),
      ("delay_ms", toString (Nanos.milliCount pause))]
  | call (.exhausted attempts (.ok status)) =>
    [("attempts", toString attempts), ("status", toString status)]
  | call (.exhausted attempts (.error e)) =>
    [("attempts", toString attempts), ("error", e.message)]
  | visit container event =>
    ("container_id", container) ::
      match event with
      | .refreshing strategy => [("strategy", strategyName strategy)]
      | .refreshed elapsed => [("elapsed_ms", toString (Nanos.milliCount elapsed))]
      | .refreshFailed e => [("error", e.message)]
      | .malformedSkipped errors => [("errors", toString errors)]
      | .round .restarted => []
      | .round (.fetched page items hasMore) =>
        [("page", toString page), ("items", toString items), ("has_more", flag hasMore)]
      | .merged m =>
        [("pages", toString m.pages), ("items", toString m.items),
          ("records", toString m.records), ("skipped", toString m.skipped),
          ("reset", flag m.reset)]

end LogEvent

end DriveDelta
