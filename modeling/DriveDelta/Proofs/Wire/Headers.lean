import Mathlib.Data.List.Forall2
import Mathlib.Data.List.Induction
import DriveDelta.Wire.Message

/-!
# The headers of a request

A request gets its headers one at a time, and a header that is set again moves to the end of the
list under its new spelling.  So whatever is set in whatever order, the list holds each name once,
as it was set last, and in the order in which the names were set last.

## What is here

* `Text.SameName`, names that differ at most in the case of ASCII letters; by
  `Text.sameIgnoringCase_iff` they are what header lists take for one name, so this is an
  equivalence;
* `Headers.filter_set_self` and `Headers.filter_set_others`, what setting a header does to the
  headers of that name and to the others;
* `Headers.latest?` and `Headers.since`, read off the settings alone, and `Headers.Reflects`, which
  says that a list is what some settings leave;
* `Request.Step` and `Request.made`, a request made in steps, and
  `Request.headers_reflect_settings`.
-/

set_option autoImplicit false

namespace DriveDelta

/-! ## Names -/

namespace Text

/-- The same character, or an ASCII letter in both cases. -/
def SameLetter (c d : Char) : Prop :=
  c = d ∨ c.isUpper = true ∧ d.toNat = c.toNat + 32 ∨ d.isUpper = true ∧ c.toNat = d.toNat + 32

/-- Names that differ at most in the case of ASCII letters. -/
def SameName (s t : String) : Prop := List.Forall₂ SameLetter s.toList t.toList

theorem isUpper_iff {c : Char} : c.isUpper = true ↔ 65 ≤ c.toNat ∧ c.toNat ≤ 90 := by
  have heq : c.isUpper = decide (c.val ≥ 65 ∧ c.val ≤ 90) := rfl
  rw [heq, decide_eq_true_iff, ge_iff_le, UInt32.le_iff_toNat_le, UInt32.le_iff_toNat_le]
  rfl

theorem toNat_toLower (c : Char) :
    c.toLower.toNat = if 65 ≤ c.toNat ∧ c.toNat ≤ 90 then c.toNat + 32 else c.toNat := by
  split
  next h =>
    have hupper : c.val ≥ 65 ∧ c.val ≤ 90 := of_decide_eq_true (isUpper_iff.2 h)
    have hval : c.toLower.val = c.val + 32 := congrArg Char.val (dif_pos hupper)
    have hfits : c.val.toNat + 32 < 2 ^ 32 := by
      rw [Char.toNat_val]
      omega
    rw [← Char.toNat_val, hval, UInt32.toNat_add]
    exact Nat.mod_eq_of_lt hfits
  next h =>
    have hupper : ¬ (c.val ≥ 65 ∧ c.val ≤ 90) := fun hu => h (isUpper_iff.1 (decide_eq_true hu))
    exact congrArg Char.toNat (dif_neg hupper)

theorem toLower_eq_iff {c d : Char} : c.toLower = d.toLower ↔ SameLetter c d := by
  rw [SameLetter, isUpper_iff, isUpper_iff, ← Char.toNat_inj, ← Char.toNat_inj, toNat_toLower,
    toNat_toLower]
  split <;> split <;> omega

theorem sameIgnoringCase_iff {s t : String} : sameIgnoringCase s t = true ↔ SameName s t := by
  rw [sameIgnoringCase, beq_iff_eq, SameName, ← List.forall₂_eq_eq_eq, List.forall₂_map_left_iff,
    List.forall₂_map_right_iff]
  simp only [toLower_eq_iff]

instance (s t : String) : Decidable (SameName s t) :=
  decidable_of_iff (sameIgnoringCase s t = true) sameIgnoringCase_iff

theorem sameIgnoringCase_eq (s t : String) : sameIgnoringCase s t = decide (SameName s t) :=
  Bool.eq_iff_iff.2 (sameIgnoringCase_iff.trans decide_eq_true_iff.symm)

namespace SameName

variable {s t u : String}

theorem iff_lower : SameName s t ↔ s.toList.map Char.toLower = t.toList.map Char.toLower :=
  sameIgnoringCase_iff.symm.trans beq_iff_eq

theorem refl (s : String) : SameName s s := iff_lower.2 rfl

theorem symm (h : SameName s t) : SameName t s := iff_lower.2 (iff_lower.1 h).symm

theorem trans (h : SameName s t) (h' : SameName t u) : SameName s u :=
  iff_lower.2 ((iff_lower.1 h).trans (iff_lower.1 h'))

end SameName

end Text

open Text (SameName)

/-! ## Setting a header -/

namespace Headers

/-- A header of the name that is set stands alone. -/
theorem filter_set_self (hs : Headers) (name value : String) :
    (hs.set name value).filter (Text.sameIgnoringCase ·.1 name) = [(name, value)] := by
  have hself : Text.sameIgnoringCase name name = true := beq_self_eq_true _
  rw [set, List.filter_append, List.filter_filter]
  simp [hself]

/-- The other headers stay, in their order. -/
theorem filter_set_others (hs : Headers) (name value : String) :
    (hs.set name value).filter (!Text.sameIgnoringCase ·.1 name) =
      hs.filter (!Text.sameIgnoringCase ·.1 name) := by
  have hself : Text.sameIgnoringCase name name = true := beq_self_eq_true _
  rw [set, List.filter_append, List.filter_filter]
  simp [hself]

/-- The headers after one is set: the others, and the new one behind them. -/
theorem set_eq (hs : Headers) (name value : String) :
    hs.set name value = hs.filter (fun h => ¬ SameName h.1 name) ++ [(name, value)] := by
  simp [set, Text.sameIgnoringCase_eq]

theorem get?_eq (hs : Headers) (name : String) :
    hs.get? name = (hs.find? fun h => SameName h.1 name).map (·.2) := by
  simp [get?, Text.sameIgnoringCase_eq]

variable {hs : Headers} {settings : List (String × String)} {name value other : String}

/-- A name that is set has the new value. -/
theorem get?_set_self (h : SameName name other) : (hs.set name value).get? other = some value := by
  have hnone : (hs.filter fun h => ¬ SameName h.1 name).find? (fun h => SameName h.1 other) =
      none := by
    refine List.find?_eq_none.2 fun x hx hsame => ?_
    have hother : ¬ SameName x.1 name := by simpa using (List.mem_filter.1 hx).2
    exact hother ((of_decide_eq_true hsame).trans h.symm)
  rw [get?_eq, set_eq, List.find?_append, hnone, Option.none_or, List.find?_cons_of_pos (by simpa)]
  rfl

/-- Setting a name changes the value of no other one. -/
theorem get?_set_of_ne (h : ¬ SameName name other) :
    (hs.set name value).get? other = hs.get? other := by
  have hkept : (hs.filter fun h => ¬ SameName h.1 name).find? (fun h => SameName h.1 other) =
      hs.find? fun h => SameName h.1 other := by
    rw [List.find?_filter]
    congr 1
    funext x
    have hne : SameName x.1 other → ¬ SameName x.1 name := fun hx hn => h (hn.symm.trans hx)
    grind
  rw [get?_eq, set_eq, List.find?_append, hkept, List.find?_cons_of_neg (by simpa), List.find?_nil,
    Option.or_none, ← get?_eq]

/-! ## Many settings -/

/-- The latest of some settings under a name. -/
def latest? (settings : List (String × String)) (name : String) : Option (String × String) :=
  settings.reverse.find? fun h => SameName h.1 name

/-- How many settings there have been since the latest one under a name. -/
def since (settings : List (String × String)) (name : String) : Nat :=
  settings.reverse.findIdx fun h => SameName h.1 name

theorem latest?_concat (settings : List (String × String)) (h : String × String) (name : String) :
    latest? (settings ++ [h]) name =
      if SameName h.1 name then some h else latest? settings name := by
  rw [latest?, List.reverse_concat, List.find?_cons]
  split <;> simp_all [latest?]

theorem since_concat (settings : List (String × String)) (h : String × String) (name : String) :
    since (settings ++ [h]) name = if SameName h.1 name then 0 else since settings name + 1 := by
  rw [since, List.reverse_concat, List.findIdx_cons, Bool.cond_decide]
  rfl

/-- The list is what some settings leave of one that was empty. -/
structure Reflects (settings : List (String × String)) (hs : Headers) : Prop where
  distinct : hs.Pairwise fun h h' => ¬ SameName h.1 h'.1
  get?_eq : ∀ name, hs.get? name = (latest? settings name).map (·.2)
  latest : ∀ h ∈ hs, latest? settings h.1 = some h
  order : hs.Pairwise fun h h' => since settings h'.1 < since settings h.1

theorem Reflects.nil : Reflects [] [] := ⟨.nil, fun _ => rfl, by simp, .nil⟩

/-- **One more setting.**  It is the latest one of its name, and for the other names nothing changes
but that one more setting has followed. -/
theorem Reflects.set (h : Reflects settings hs) (name value : String) :
    Reflects (settings ++ [(name, value)]) (hs.set name value) := by
  have hothers : ∀ x ∈ hs.filter fun h => ¬ SameName h.1 name, ¬ SameName x.1 name := by
    intro x hx
    simpa using (List.mem_filter.1 hx).2
  refine ⟨?_, ?_, ?_, ?_⟩
  · rw [set_eq, List.pairwise_append]
    refine ⟨h.distinct.filter _, List.pairwise_singleton _ _, fun x hx y hy => ?_⟩
    obtain rfl := List.mem_singleton.1 hy
    exact hothers x hx
  · intro other
    rw [latest?_concat]
    split
    next hsame => rw [get?_set_self hsame, Option.map_some]
    next hne => rw [get?_set_of_ne hne, h.get?_eq]
  · intro x hx
    rw [set_eq, List.mem_append, List.mem_singleton] at hx
    rw [latest?_concat]
    rcases hx with hx | rfl
    · rw [if_neg fun hn => hothers x hx hn.symm]
      exact h.latest x (List.mem_of_mem_filter hx)
    · rw [if_pos (.refl name)]
  · rw [set_eq, List.pairwise_append]
    refine ⟨?_, List.pairwise_singleton _ _, fun x hx y hy => ?_⟩
    · refine (h.order.filter _).imp_of_mem fun {x y} hx hy hlt => ?_
      rw [since_concat, since_concat, if_neg fun hn => hothers y hy hn.symm,
        if_neg fun hn => hothers x hx hn.symm]
      exact Nat.add_lt_add_right hlt 1
    · obtain rfl := List.mem_singleton.1 hy
      rw [since_concat, since_concat, if_pos (.refl name), if_neg fun hn => hothers x hx hn.symm]
      exact Nat.succ_pos _

end Headers

/-! ## Requests -/

namespace Request

/-- One step in making a request. -/
inductive Step where
  /-- A header is set, on the request itself or on one that is passed on. -/
  | header (name value : String)
  | body (body : Bytes)

/-- The header that a step sets. -/
def Step.setting? : Step → Option (String × String)
  | header name value => some (name, value)
  | body _ => none

def follow (r : Request) : Step → Request
  | .header name value => r.setHeader name value
  | .body body => r.withBody body

/-- A request made in steps. -/
def made (method : Method) (url : String) (steps : List Step) : Request :=
  steps.foldl follow { method, url }

/-- The headers that some steps set, in order. -/
def settings (steps : List Step) : List (String × String) := steps.filterMap (·.setting?)

/-- Every step keeps the headers as the settings so far leave them. -/
theorem reflects_made (method : Method) (url : String) (steps : List Step) :
    Headers.Reflects (settings steps) (made method url steps).headers := by
  induction steps using List.reverseRecOn with
  | nil => exact .nil
  | append_singleton steps step ih =>
    rw [settings, List.filterMap_append, made, List.foldl_append]
    cases step with
    | header name value => exact ih.set name value
    | body body =>
      rw [List.filterMap_cons_none rfl, List.filterMap_nil, List.append_nil]
      exact ih

/-- **The headers of a request are a map that ignores the case of ASCII letters.**  Make a request
in any steps.  No two of its headers have the same name.  The value of a name is the one that it was
set to last, under whatever spelling, and there is none if it was never set.  Each header is spelled
as it was when it was set last, and the headers are in the order in which they were set last. -/
theorem headers_reflect_settings (method : Method) (url : String) (steps : List Step) :
    let r := made method url steps
    (r.headers.Pairwise fun h h' => ¬ SameName h.1 h'.1) ∧
      (∀ name, r.header? name = (Headers.latest? (settings steps) name).map (·.2)) ∧
      (∀ h ∈ r.headers, Headers.latest? (settings steps) h.1 = some h) ∧
      r.headers.Pairwise fun h h' =>
        Headers.since (settings steps) h'.1 < Headers.since (settings steps) h.1 := by
  have h := reflects_made method url steps
  exact ⟨h.distinct, h.get?_eq, h.latest, h.order⟩

/-- Setting a name again under another spelling moves it behind the others. -/
example :
    let steps : List Step :=
      [.header "Accept" "a", .header "ETag" "b", .body [1], .header "ACCEPT" "c"]
    (made .get "https://host/items" steps).headers = [("ETag", "b"), ("ACCEPT", "c")] := by decide

end Request

end DriveDelta
