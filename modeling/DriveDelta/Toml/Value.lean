import DriveDelta.Double

/-!
# TOML values

## What is here

* `Toml.Value`, the values that a document can give to a key;
* `Toml.get?`, a member of a table by its key.
-/

set_option autoImplicit false

namespace DriveDelta.Toml

/-- A value.  Of a date or a time only its place is kept. -/
inductive Value where
  | text (s : String)
  | integer (n : Int)
  | float (x : Double)
  | boolean (b : Bool)
  | moment
  | array (items : List Value)
  | table (members : List (String × Value))
  deriving Repr, Inhabited

/-- The first member of that key. -/
def get? {α : Type} (key : String) : List (String × α) → Option α
  | [] => none
  | (k, v) :: rest => if k = key then some v else get? key rest

/-- Put a member in the place of the first one of its key, or behind all others. -/
def set {α : Type} (key : String) (v : α) : List (String × α) → List (String × α)
  | [] => [(key, v)]
  | (k, w) :: rest => if k = key then (k, v) :: rest else (k, w) :: set key v rest

variable {α : Type}

theorem get?_set_self (key : String) (v : α) (members : List (String × α)) :
    get? key (set key v members) = some v := by
  induction members with
  | nil => simp [set, get?]
  | cons m rest ih =>
    obtain ⟨k, w⟩ := m
    by_cases h : k = key <;> simp [set, get?, h, ih]

theorem get?_set_of_ne {key other : String} (h : other ≠ key) (v : α)
    (members : List (String × α)) : get? other (set key v members) = get? other members := by
  induction members with
  | nil => simp [set, get?, h.symm]
  | cons m rest ih =>
    obtain ⟨k, w⟩ := m
    by_cases hk : k = key
    · subst hk
      simp [set, get?, h.symm]
    · by_cases ho : k = other <;> simp_all [set, get?]

end DriveDelta.Toml
