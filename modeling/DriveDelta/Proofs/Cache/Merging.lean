import DriveDelta.Cache.Record

/-!
# What merging does to the records

Merging passes over some items and counts them, but to the records it does one thing for each item,
so merging one list after another is merging both at once.  Each id is looked up by itself: an item
changes what is known under its own id only.

## What is here

* `Records.apply`, what one item does to the records, and `Records.merge_records`;
* `Records.merge_append`;
* `Records.get?_put`, and `Records.get?_merge_of_absent`, which says that an id which no item has
  keeps its record.
-/

set_option autoImplicit false

namespace DriveDelta

namespace Records

variable {rs : Records} {id : String} {r : Record}

/-- What one item does to the records. -/
def apply (rs : Records) (item : DeltaItem) : Records :=
  match Record.ofItem? item with
  | .ok r => rs.put r.id r
  | .error _ => rs

theorem add_records (m : Merge) (item : DeltaItem) :
    (m.add item).records = m.records.apply item := by
  rw [Merge.add, apply]
  split
  all_goals
    rename_i h
    rw [h]

/-- Errors and skipped items do not matter to the records. -/
theorem merge_records (rs : Records) (items : List DeltaItem) :
    (merge rs items).records = items.foldl apply rs := by
  rw [merge]
  generalize hm : ({ records := rs } : Merge) = m
  have hrs : rs = m.records := by rw [← hm]
  rw [hrs]
  clear hm hrs
  induction items generalizing m with
  | nil => rfl
  | cons item items ih => rw [List.foldl_cons, List.foldl_cons, ih, add_records]

/-- Merging one list after another is merging both at once. -/
theorem merge_append (rs : Records) (xs ys : List DeltaItem) :
    (merge rs (xs ++ ys)).records = (merge (merge rs xs).records ys).records := by
  rw [merge_records, merge_records, merge_records, List.foldl_append]

theorem get?_cons (k : String) (r : Record) (rs : Records) (id : String) :
    get? ((k, r) :: rs) id = if id = k then some r else rs.get? id := by
  rw [get?, List.lookup_cons]
  by_cases h : id = k
  · simp [h]
  · rw [beq_false_of_ne h, if_neg h, get?]

theorem get?_put (rs : Records) (id : String) (r : Record) (id' : String) :
    (rs.put id r).get? id' = if id' = id then some r else rs.get? id' := by
  induction rs with
  | nil => rw [put, get?_cons]
  | cons e rs ih =>
    obtain ⟨k, e⟩ := e
    rw [put]
    split
    · rename_i hk
      obtain rfl := beq_iff_eq.1 hk
      rw [get?_cons, get?_cons]
      split <;> rfl
    · rename_i hk
      have hne : id ≠ k := by simpa using hk
      rw [get?_cons, get?_cons, ih]
      by_cases h : id' = k
      · rw [if_pos h, if_pos h, if_neg (h ▸ hne.symm)]
      · rw [if_neg h, if_neg h]

/-- An item leaves a record under its own id. -/
theorem id_of_ofItem {item : DeltaItem} {r : Record} (h : Record.ofItem? item = .ok r) :
    item.id = some r.id := by
  rw [Record.ofItem?] at h
  split at h
  · exact absurd h (by simp)
  · split at h
    · exact absurd h (by simp)
    · rename_i id hid
      have hitem : item.id = some id := (Option.filter_eq_some_iff.1 hid).1
      split at h <;> rw [hitem, ← Except.ok.inj h]

theorem get?_apply_of_ne {item : DeltaItem} (h : item.id ≠ some id) (rs : Records) :
    (rs.apply item).get? id = rs.get? id := by
  rw [apply]
  split
  · rename_i r hr
    rw [get?_put, if_neg]
    rintro rfl
    exact h (id_of_ofItem hr)
  · rfl

/-- An id that no item has keeps its record. -/
theorem get?_merge_of_absent {items : List DeltaItem} (h : ∀ item ∈ items, item.id ≠ some id)
    (rs : Records) : (merge rs items).records.get? id = rs.get? id := by
  rw [merge_records]
  induction items generalizing rs with
  | nil => rfl
  | cons item items ih =>
    rw [List.foldl_cons, ih fun x hx => h x (List.mem_cons_of_mem _ hx),
      get?_apply_of_ne (h item List.mem_cons_self)]

end Records

end DriveDelta
