import DriveDelta.Text.Utf8

/-!
# The log file

A program that embeds this library may have the log written to a file, or to its error stream.
Only one subscriber can be installed; the file is opened before that is tried.

## What is here

* `LogFile.StateHome`, the place of the file, and `LogFile.Failure`;
* `LogFile.locate`, `LogFile.attach`, `LogFile.attachStderr` and `LogFile.attachOrStderr`.
-/

set_option autoImplicit false

namespace DriveDelta.LogFile

/-- The file below the directory for state. -/
def path : String := "graphsync/graphsync.log"

/-- What is logged unless the environment says otherwise. -/
def standardFilter : String := "info,graphsync_core=debug"

/-- The directory for state. -/
inductive StateHome where
  /-- A directory, in which the log file may exist. -/
  | directory (log : Option Bytes)
  /-- Something else, below which nothing can be created. -/
  | obstructed
  deriving DecidableEq, Repr, Inhabited

/-- The content of the log file. -/
def StateHome.log : StateHome → Option Bytes
  | directory log => log
  | obstructed => none

/-- Why the log could not be set up. -/
inductive Failure where
  /-- The file could not be reached. -/
  | unreachable
  /-- A subscriber is installed already. -/
  | occupied
  deriving DecidableEq, Repr, Inhabited

/-- The text of a failure that has one of its own. -/
def Failure.message? : Failure → Option String
  | unreachable => none
  | occupied =>
    some "installing log subscriber: a global default trace dispatcher has already been set"

/-- What is to hold of the log: where it lies, and whether a subscriber is installed. -/
structure State where
  home : StateHome
  installed : Bool
  deriving DecidableEq, Repr, Inhabited

/-- Install a subscriber, of which there is at most one. -/
def install (s : State) : State × Except Failure Unit :=
  if s.installed then (s, .error .occupied) else ({ s with installed := true }, .ok ())

/-- The path of the log file, whose directory is created. -/
def locate (s : State) : Except Failure String :=
  match s.home with
  | .directory _ => .ok path
  | .obstructed => .error .unreachable

/-- Log to the file, which is created if it does not exist. -/
def attach (s : State) : State × Except Failure Unit :=
  match s.home with
  | .directory log => install { s with home := .directory (some (log.getD [])) }
  | .obstructed => (s, .error .unreachable)

/-- Log to the error stream, unless a subscriber is installed. -/
def attachStderr (s : State) : State := (install s).1

/-- Log to the file or, if that fails, to the error stream. -/
def attachOrStderr (s : State) : State :=
  match attach s with
  | (s, .ok ()) => s
  | (s, .error _) => attachStderr s

end DriveDelta.LogFile
