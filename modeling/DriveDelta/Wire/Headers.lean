import DriveDelta.Text.Blank

/-!
# Header lists

Headers are kept in order, and a name is looked up without regard to the case of ASCII letters.
Setting a header removes every earlier one of that name and writes the new one last, so a list
that is only ever built by `set` has no two headers of one name.
-/

set_option autoImplicit false

namespace DriveDelta

/-- Names and values in order. -/
abbrev Headers := List (String × String)

namespace Headers

/-- The value of the first header of a name. -/
def get? (hs : Headers) (name : String) : Option String :=
  (hs.find? fun h => Text.sameIgnoringCase h.1 name).map (·.2)

/-- Replace every header of a name by one at the end. -/
def set (hs : Headers) (name value : String) : Headers :=
  (hs.filter fun h => !Text.sameIgnoringCase h.1 name) ++ [(name, value)]

end Headers

end DriveDelta
