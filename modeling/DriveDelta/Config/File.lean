import DriveDelta.Config.Decode
import DriveDelta.Config.Section
import DriveDelta.Text.Utf8
import DriveDelta.Toml.Document

/-!
# The configuration file

## What is here

* `Config.parse?`, from text to configuration;
* `Config.LoadError` and `Config.load`, which reads the file;
* `Config.loadOrInit`, which writes a file with the built-in configuration if there is none.
-/

set_option autoImplicit false

namespace DriveDelta.Config

/-- The configuration that a text describes. -/
def parse? (cs : List Char) : Option Config := (Toml.parse? cs).bind ofToml?

/-- Why a file gives no configuration. -/
inductive LoadError where
  /-- There is no such file. -/
  | missing
  /-- Its bytes are no text. -/
  | notText
  /-- Its text describes no configuration. -/
  | malformed
  deriving DecidableEq, Repr, Inhabited

/-- The file below the directory for configurations. -/
def path : String := "graphsync/config.toml"

/-- The configuration in a file with this content, if it exists. -/
def load (file : Option Bytes) : Except LoadError Config := do
  let bytes ← file.elim (.error .missing) .ok
  let cs ← (Utf8.decode? bytes).elim (.error .notText) .ok
  (parse? cs).elim (.error .malformed) .ok

/-- Load the file.  If it does not exist, the built-in configuration holds and is written to it. -/
def loadOrInit (file : Option Bytes) : Bytes × Except LoadError Config :=
  match file with
  | none => (Utf8.encode (text builtinSections).toList, .ok builtin)
  | some bytes => (bytes, load (some bytes))

end DriveDelta.Config
