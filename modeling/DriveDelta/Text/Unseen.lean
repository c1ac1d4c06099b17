import DriveDelta.Text.Mark
import DriveDelta.Text.Unprinted

/-!
# Characters that leave no mark of their own

Characters that are not printed, the marks that are attached to the character before them, and the
fillers of Korean writing, which are printed as nothing.
-/

set_option autoImplicit false

namespace DriveDelta.Text

def fillers : CodeSet := .ofText "115f-1160 3164 ffa0"

/-- Whether a character is written as its code where every character has to be seen. -/
def isUnseen (c : Char) : Bool := isUnprinted c || isAttached c || fillers.has c

end DriveDelta.Text
