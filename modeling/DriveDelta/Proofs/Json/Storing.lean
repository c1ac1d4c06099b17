import Mathlib.Data.List.Nodup
import DriveDelta.Proofs.Json.Range
import DriveDelta.Proofs.Json.Reading

/-!
# Values that can be stored

What has been read can be stored if its strings are texts, its numbers are finite as doubles and it
is not nested too deep.  The strings of what stands for a value are texts.  The rest can be said of
the value alone, and of its numbers apart from all the rest.

## What is here

* `Json.Datum.isPlain`, values that are not nested too deep and in which no two members of an object
  have one name; `Json.isPlain_eq_of_perm` and `Json.lookup_eq_of_perm` say that the order of the
  members is of no account for this or for what is looked up;
* `Json.Datum.numbers`, the numbers in a value, and `Json.Datum.isStorable`, which says that all of
  these can be stored, with `Json.Datum.isStorable_of_size_le`;
* `Json.isStorable_eq`: what stands for a plain value can be stored if the value can.
-/

set_option autoImplicit false

namespace DriveDelta.Json

/-! ## Plain values -/

mutual

/-- Whether a value is nested in at most `levels` levels of arrays and objects, and no object has
two members of one name. -/
def Datum.isPlain (levels : Nat) : Datum → Bool
  | .null | .bool _ | .number _ | .string _ => true
  | .array items => 0 < levels && itemsPlain (levels - 1) items
  | .object members =>
    0 < levels && decide (members.map (·.1)).Nodup && membersPlain (levels - 1) members

def itemsPlain (levels : Nat) : List Datum → Bool
  | [] => true
  | v :: vs => v.isPlain levels && itemsPlain levels vs

def membersPlain (levels : Nat) : List (String × Datum) → Bool
  | [] => true
  | (_, v) :: ms => v.isPlain levels && membersPlain levels ms

end

variable {levels : Nat}

theorem mem_of_lookup {ms : List (String × Datum)} {name : String} {v : Datum}
    (h : ms.lookup name = some v) : (name, v) ∈ ms := by
  obtain ⟨before, after, rfl, -⟩ := List.lookup_eq_some_iff.1 h
  exact List.mem_append_right _ List.mem_cons_self

theorem membersPlain_eq (ms : List (String × Datum)) :
    membersPlain levels ms = ms.all fun m => m.2.isPlain levels := by
  induction ms with
  | nil => rfl
  | cons m ms ih => rw [membersPlain, ih, List.all_cons]

theorem isPlain_of_lookup {ms : List (String × Datum)} (h : membersPlain levels ms = true)
    {name : String} {v : Datum} (hv : ms.lookup name = some v) : v.isPlain levels = true := by
  rw [membersPlain_eq, List.all_eq_true] at h
  exact h _ (mem_of_lookup hv)

theorem isPlain_object_iff {ms : List (String × Datum)} :
    (Datum.object ms).isPlain levels = true ↔
      0 < levels ∧ (ms.map (·.1)).Nodup ∧ membersPlain (levels - 1) ms = true := by
  rw [Datum.isPlain, Bool.and_eq_true, Bool.and_eq_true, decide_eq_true_eq, decide_eq_true_eq,
    and_assoc]

section Order

variable {ms ms' : List (String × Datum)}

/-- Whether an object is plain does not depend on the order of its members. -/
theorem isPlain_eq_of_perm (h : ms.Perm ms') :
    (Datum.object ms).isPlain levels = (Datum.object ms').isPlain levels := by
  have hnodup : (ms.map (·.1)).Nodup ↔ (ms'.map (·.1)).Nodup := (h.map _).nodup_iff
  rw [Datum.isPlain, Datum.isPlain, membersPlain_eq, membersPlain_eq, h.all_eq,
    decide_eq_decide.2 hnodup]

theorem lookup_eq_of_perm (h : ms.Perm ms') (hnodup : (ms.map (·.1)).Nodup) (name : String) :
    ms.lookup name = ms'.lookup name := by
  induction h with
  | nil => rfl
  | cons m _ ih =>
    rw [List.lookup_cons, List.lookup_cons, ih (List.nodup_cons.1 hnodup).2]
  | swap m m' ms =>
    have hne : m'.1 ≠ m.1 := by
      intro heq
      exact (List.nodup_cons.1 hnodup).1 (List.mem_cons.2 (.inl heq))
    rw [List.lookup_cons, List.lookup_cons, List.lookup_cons, List.lookup_cons]
    by_cases hm : name = m.1
    · have hm' : (name == m'.1) = false := by simpa [hm] using hne.symm
      rw [hm']
    · rw [show (name == m.1) = false by simpa using hm]
  | trans h _ ih ih' =>
    rw [ih hnodup, ih' ((h.map _).nodup_iff.1 hnodup)]

end Order

/-! ## Numbers in values -/

mutual

/-- The numbers in a value. -/
def Datum.numbers : Datum → List Decimal
  | .null | .bool _ | .string _ => []
  | .number d => [d]
  | .array items => itemNumbers items
  | .object members => memberNumbers members

def itemNumbers : List Datum → List Decimal
  | [] => []
  | v :: vs => v.numbers ++ itemNumbers vs

def memberNumbers : List (String × Datum) → List Decimal
  | [] => []
  | (_, v) :: ms => v.numbers ++ memberNumbers ms

end

theorem itemNumbers_eq (vs : List Datum) : itemNumbers vs = vs.flatMap Datum.numbers := by
  induction vs with
  | nil => rfl
  | cons v vs ih => rw [itemNumbers, ih, List.flatMap_cons]

theorem memberNumbers_eq (ms : List (String × Datum)) :
    memberNumbers ms = ms.flatMap fun m => m.2.numbers := by
  induction ms with
  | nil => rfl
  | cons m ms ih => rw [memberNumbers, ih, List.flatMap_cons]

/-- The numbers in a member are numbers in the object. -/
theorem mem_numbers_of_lookup {ms : List (String × Datum)} {name : String} {v : Datum} {d : Decimal}
    (hv : ms.lookup name = some v) (hd : d ∈ v.numbers) : d ∈ (Datum.object ms).numbers := by
  rw [Datum.numbers, memberNumbers_eq, List.mem_flatMap]
  exact ⟨_, mem_of_lookup hv, hd⟩

namespace Datum

/-- Whether every number in a value is finite as it is stored. -/
def isStorable (v : Datum) : Bool := v.numbers.all fun d => d.numeral.isStorable

theorem isStorable_array (vs : List Datum) : (array vs).isStorable = vs.all isStorable := by
  rw [isStorable, numbers, itemNumbers_eq, List.all_flatMap]
  rfl

theorem isStorable_object (ms : List (String × Datum)) :
    (object ms).isStorable = ms.all fun m => m.2.isStorable := by
  rw [isStorable, numbers, memberNumbers_eq, List.all_flatMap]
  rfl

/-- What has no number that is larger than what is surely read can be stored. -/
theorem isStorable_of_size_le {v : Datum} (h : ∀ d ∈ v.numbers, d.size ≤ readable) :
    v.isStorable = true := by
  rw [isStorable, List.all_eq_true]
  exact fun d hd => Decimal.isStorable_of_size_le (h d hd)

end Datum

/-! ## What stands for a value -/

mutual

/-- What stands for a plain value can be stored if the value can. -/
theorem isStorable_eq {levels levels' : Nat} (hle : levels ≤ levels') :
    ∀ {j : Json} {v : Datum},
      meaning? j = some v → v.isPlain levels = true → j.isStorable levels' = v.isStorable
  | .null, _, h, _ | .bool _, _, h, _ => by
    obtain rfl := Option.some_inj.1 h
    rfl
  | .number n, _, h, _ => by
    obtain ⟨d, hd, rfl⟩ := Option.map_eq_some_iff.1 h
    rw [isStorable, decimal?_eq_some_iff.1 hd, Datum.isStorable, Datum.numbers, List.all_cons,
      List.all_nil, Bool.and_true]
  | .string ps, _, h, _ => by
    obtain ⟨s, hs, rfl⟩ := Option.map_eq_some_iff.1 h
    rw [isStorable, hs]
    rfl
  | .array js, _, h, hv => by
    obtain ⟨vs, hvs, rfl⟩ := Option.map_eq_some_iff.1 h
    rw [Datum.isPlain, Bool.and_eq_true, decide_eq_true_eq] at hv
    have hpos : 0 < levels' := Nat.lt_of_lt_of_le hv.1 hle
    rw [isStorable, decide_eq_true hpos, Bool.true_and]
    exact allStorable_eq (Nat.sub_le_sub_right hle 1) hvs hv.2
  | .object ms, _, h, hv => by
    obtain ⟨fs, hfs, rfl⟩ := Option.map_eq_some_iff.1 h
    obtain ⟨hpos, -, hplain⟩ := isPlain_object_iff.1 hv
    have hpos' : 0 < levels' := Nat.lt_of_lt_of_le hpos hle
    rw [isStorable, decide_eq_true hpos', Bool.true_and]
    exact membersStorable_eq (Nat.sub_le_sub_right hle 1) hfs hplain

theorem allStorable_eq {levels levels' : Nat} (hle : levels ≤ levels') :
    ∀ {js : List Json} {vs : List Datum},
      meanings? js = some vs → itemsPlain levels vs = true →
        allStorable levels' js = (Datum.array vs).isStorable
  | [], _, h, _ => by
    obtain rfl := Option.some_inj.1 h
    rfl
  | j :: js, _, h, hvs => by
    obtain ⟨v, hv, h⟩ := Option.bind_eq_some_iff.1 h
    obtain ⟨vs, hjs, rfl⟩ := Option.map_eq_some_iff.1 h
    rw [itemsPlain, Bool.and_eq_true] at hvs
    have hrest := allStorable_eq hle hjs hvs.2
    rw [allStorable, isStorable_eq hle hv hvs.1, hrest, Datum.isStorable_array,
      Datum.isStorable_array, List.all_cons]

theorem membersStorable_eq {levels levels' : Nat} (hle : levels ≤ levels') :
    ∀ {ms : List (List Piece × Json)} {fs : List (String × Datum)},
      memberMeanings? ms = some fs → membersPlain levels fs = true →
        membersStorable levels' ms = (Datum.object fs).isStorable
  | [], _, h, _ => by
    obtain rfl := Option.some_inj.1 h
    rfl
  | (k, j) :: ms, _, h, hfs => by
    obtain ⟨name, hname, h⟩ := Option.bind_eq_some_iff.1 h
    obtain ⟨v, hv, h⟩ := Option.bind_eq_some_iff.1 h
    obtain ⟨fs, hms, rfl⟩ := Option.map_eq_some_iff.1 h
    rw [membersPlain, Bool.and_eq_true] at hfs
    have hrest := membersStorable_eq hle hms hfs.2
    rw [membersStorable, hname, isStorable_eq hle hv hfs.1, hrest, Datum.isStorable_object,
      Datum.isStorable_object, List.all_cons]
    rfl

end

end DriveDelta.Json
