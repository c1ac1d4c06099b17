import DriveDelta.Proofs.Cache.Merging

/-!
# The last item wins

Merging goes through the items one after the other, but what it comes to can be said without the
order of its steps: the record of each id is that of the last file with this id, if there is one,
and the old record otherwise.  So it does not matter where a list is cut, nor that it is merged a
second time, nor which of two neighbours comes first, unless they share an id.

## What is here

* `DeltaItem.Names` and `DeltaItem.Nameless`, the files with and without an id, and
  `DeltaItem.record`, what a file says about its id;
* `Records.foldl_add`, everything that merging does, on top of any other merge;
* `Records.get?_merge`, which finds the last file with an id, and `Records.merge_last_wins`, with
  what follows from it.
-/

set_option autoImplicit false

namespace DriveDelta

/-! ## Items -/

namespace DeltaItem

/-- A file with this id. -/
def Names (item : DeltaItem) (id : String) : Prop :=
  item.isFile = true ∧ item.id = some id ∧ id ≠ ""

/-- A file whose id is missing or empty. -/
def Nameless (item : DeltaItem) : Prop :=
  item.isFile = true ∧ (item.id = none ∨ item.id = some "")

instance (item : DeltaItem) (id : String) : Decidable (item.Names id) :=
  inferInstanceAs (Decidable (_ ∧ _))

instance (item : DeltaItem) : Decidable item.Nameless := inferInstanceAs (Decidable (_ ∧ _))

/-- What an item says about this id.  A deleted file has no address, and an empty address is none. -/
def record (item : DeltaItem) (id : String) : Record :=
  if item.deleted then { id, accessLocator := none, tombstoned := true }
  else if item.downloadUrl = some "" then { id, accessLocator := none }
  else { id, accessLocator := item.downloadUrl }

variable {item : DeltaItem} {id : String}

theorem Names.not_nameless (h : item.Names id) : ¬item.Nameless := by
  rintro ⟨-, hn | he⟩
  · exact absurd (h.2.1.symm.trans hn) (by simp)
  · exact h.2.2 (Option.some.inj (h.2.1.symm.trans he))

/-- There are three sorts of items. -/
theorem sorts (item : DeltaItem) : item.isFile = false ∨ item.Nameless ∨ ∃ id, item.Names id := by
  by_cases hf : item.isFile = true
  · right
    by_cases hn : item.id = none ∨ item.id = some ""
    · exact .inl ⟨hf, hn⟩
    · obtain ⟨id, hid⟩ := Option.ne_none_iff_exists'.1 (not_or.1 hn).1
      refine .inr ⟨id, hf, hid, ?_⟩
      intro he
      exact hn (.inr (he ▸ hid))
  · exact .inl (Bool.eq_false_iff.2 hf)

theorem Names.ofItem (h : item.Names id) : Record.ofItem? item = .ok (item.record id) := by
  obtain ⟨hf, hid, hne⟩ := h
  have hfilter : item.id.filter (· ≠ "") = some id := by simp [hid, hne]
  have hurl : item.downloadUrl.filter (· ≠ "") =
      if item.downloadUrl = some "" then none else item.downloadUrl := by
    cases hu : item.downloadUrl with
    | none => rw [if_neg (by simp), Option.filter_none]
    | some url => by_cases he : url = "" <;> simp [he]
  simp only [Record.ofItem?, hf, hfilter, record, hurl, Bool.not_true, Bool.false_eq_true, if_false]
  split
  · rfl
  · split <;> rfl

theorem Nameless.ofItem (h : item.Nameless) : Record.ofItem? item = .error .nameless := by
  have hfilter : item.id.filter (· ≠ "") = none := by
    obtain hn | he := h.2
    · rw [hn, Option.filter_none]
    · simp [he]
  simp only [Record.ofItem?, h.1, hfilter, Bool.not_true, Bool.false_eq_true, if_false]

theorem ofItem_of_not_isFile (h : item.isFile = false) :
    Record.ofItem? item = .error .notAFile := by
  simp only [Record.ofItem?, h, Bool.not_false, if_true]

end DeltaItem

namespace Records

variable {items : List DeltaItem} {id : String}

/-! ## Merging as a whole -/

/-- Merging on top of a merge: the records go on from where they are, the errors and the items that
were passed over come on top of those that there are. -/
theorem foldl_add (m : Merge) (items : List DeltaItem) :
    items.foldl Merge.add m =
      { records := items.foldl apply m.records
        errors := m.errors ++ List.replicate (items.countP (·.Nameless)) ItemFault.error
        skipped := m.skipped + items.countP (!·.isFile) } := by
  induction items generalizing m with
  | nil => simp
  | cons item items ih =>
    rw [List.foldl_cons, ih, add_records, List.foldl_cons, List.countP_cons, List.countP_cons]
    obtain hf | hn | ⟨id, h⟩ := item.sorts
    · have hnn : ¬item.Nameless := fun hn => absurd (hn.1.symm.trans hf) (by simp)
      simp [Merge.add, DeltaItem.ofItem_of_not_isFile hf, hf, hnn]
      omega
    · simp [Merge.add, hn.ofItem, hn, hn.1, List.replicate_succ]
    · simp [Merge.add, h.ofItem, h.1, h.not_nameless]

theorem merge_eq (rs : Records) (items : List DeltaItem) :
    merge rs items =
      { records := items.foldl apply rs
        errors := List.replicate (items.countP (·.Nameless)) ItemFault.error
        skipped := items.countP (!·.isFile) } := by
  rw [merge, foldl_add, List.nil_append, Nat.zero_add]

/-- A list may be cut anywhere. -/
theorem merge_cut (rs : Records) (xs ys : List DeltaItem) :
    merge rs (xs ++ ys) =
      { records := (merge (merge rs xs).records ys).records
        errors := (merge rs xs).errors ++ (merge (merge rs xs).records ys).errors
        skipped := (merge rs xs).skipped + (merge (merge rs xs).records ys).skipped } := by
  simp only [merge_eq, List.foldl_append, List.countP_append, List.replicate_append_replicate]

/-- Files without an id and items that are no files change no record. -/
theorem apply_of_no_name {item : DeltaItem} (h : ∀ id, ¬item.Names id) (rs : Records) :
    rs.apply item = rs := by
  obtain hf | hn | ⟨id, hid⟩ := item.sorts
  · rw [apply, DeltaItem.ofItem_of_not_isFile hf]
  · rw [apply, hn.ofItem]
  · exact absurd hid (h id)

theorem merge_filter {p : DeltaItem → Bool} (hp : ∀ item id, item.Names id → p item = true)
    (rs : Records) (items : List DeltaItem) :
    (merge rs (items.filter p)).records = (merge rs items).records := by
  rw [merge_records, merge_records]
  induction items generalizing rs with
  | nil => rw [List.filter_nil]
  | cons item items ih =>
    by_cases h : p item = true
    · rw [List.filter_cons_of_pos h, List.foldl_cons, List.foldl_cons, ih]
    · have hno : ∀ id, ¬item.Names id := by
        intro id hid
        exact h (hp item id hid)
      rw [List.filter_cons_of_neg h, List.foldl_cons, apply_of_no_name hno, ih]

/-! ## One id -/

theorem get?_apply (rs : Records) (item : DeltaItem) (id : String) :
    (rs.apply item).get? id = if item.Names id then some (item.record id) else rs.get? id := by
  by_cases h : item.Names id
  · have hself : (item.record id).id = id := by
      rw [DeltaItem.record]
      split
      · rfl
      · split <;> rfl
    rw [if_pos h, apply, h.ofItem, get?_put, hself, if_pos rfl]
  · rw [if_neg h]
    by_cases hid : item.id = some id
    · have hno : ∀ id', ¬item.Names id' := by
        intro id' h'
        obtain rfl : id' = id := Option.some.inj (h'.2.1.symm.trans hid)
        exact h h'
      rw [apply_of_no_name hno]
    · exact get?_apply_of_ne hid rs

/-- The record of an id is that of the last file with this id, or else the old one. -/
theorem get?_merge (rs : Records) (items : List DeltaItem) (id : String) :
    (merge rs items).records.get? id =
      match (items.filter (·.Names id)).getLast? with
      | some item => some (item.record id)
      | none => rs.get? id := by
  rw [merge_records]
  -- The records are free: what the first item says is the old record for those after it.
  induction items generalizing rs with
  | nil => rfl
  | cons item items ih =>
    rw [List.foldl_cons, ih, get?_apply]
    by_cases h : item.Names id
    · rw [if_pos h, List.filter_cons_of_pos (by simpa using h), List.getLast?_cons]
      cases (items.filter (·.Names id)).getLast? with
      | none => rfl
      | some last => rfl
    · rw [if_neg h, List.filter_cons_of_neg (by simpa using h)]

/-- Nothing is left to do for the same items. -/
theorem get?_merge_again (rs : Records) (items : List DeltaItem) (id : String) :
    (merge (merge rs items).records items).records.get? id = (merge rs items).records.get? id := by
  rw [get?_merge (merge rs items).records, get?_merge rs]
  cases (items.filter (·.Names id)).getLast? with
  | none => rfl
  | some item => rfl

/-- Two items without a common id are not both among the files with an id. -/
theorem filter_swap {x y : DeltaItem} (h : x.id ≠ y.id) (before after : List DeltaItem)
    (id : String) :
    (before ++ y :: x :: after).filter (·.Names id) =
      (before ++ x :: y :: after).filter (·.Names id) := by
  rw [List.filter_append, List.filter_append]
  congr 1
  by_cases hx : x.Names id
  · have hy : ¬y.Names id := by
      intro hy
      exact h (hx.2.1.trans hy.2.1.symm)
    simp [hx, hy]
  · simp [List.filter_cons, hx]

/-- **Merging is last-writer-wins.**  Each id that some file has carries what the last of these
files says, and every other id keeps its record.  Items that are no files are counted, and each
file without an id gives an error; beyond that they do nothing.  So merging a list after another is
merging both at once, merging a list again changes no record, and neither does swapping neighbours
with different ids. -/
theorem merge_last_wins (rs : Records) (items : List DeltaItem) :
    (∀ id, (merge rs items).records.get? id =
      match (items.filter (·.Names id)).getLast? with
      | some item => some (item.record id)
      | none => rs.get? id) ∧
    (merge rs items).skipped = items.countP (!·.isFile) ∧
    (merge rs items).errors = List.replicate (items.countP (·.Nameless))
      (.fatal none "delta item has a file marker but no id") ∧
    (merge rs (items.filter fun item => item.isFile && !decide item.Nameless)).records =
      (merge rs items).records ∧
    (∀ more, merge rs (items ++ more) =
      { records := (merge (merge rs items).records more).records
        errors := (merge rs items).errors ++ (merge (merge rs items).records more).errors
        skipped := (merge rs items).skipped + (merge (merge rs items).records more).skipped }) ∧
    (∀ id, (merge (merge rs items).records items).records.get? id =
      (merge rs items).records.get? id) ∧
    ∀ before x y after, items = before ++ x :: y :: after → x.id ≠ y.id →
      ∀ id, (merge rs (before ++ y :: x :: after)).records.get? id =
        (merge rs items).records.get? id := by
  have hnamed : ∀ (item : DeltaItem) id, item.Names id →
      (item.isFile && !decide item.Nameless) = true := by
    intro item id h
    simp [h.1, h.not_nameless]
  refine ⟨get?_merge rs items, by rw [merge_eq], by rw [merge_eq, ItemFault.error],
    merge_filter hnamed rs items, merge_cut rs items, get?_merge_again rs items, ?_⟩
  intro before x y after hitems hne id
  rw [get?_merge, get?_merge, hitems, filter_swap hne]

/-- A file that was deleted and came back, next to a folder of the same id, a file without an id and
a file with an empty address: the last word about each counts, whichever of the last two comes
first. -/
theorem merge_last_wins_of_revival :
    let revived : List DeltaItem := [.file "a" "u", .tombstone "a", .file "a" "v", .folder "a",
      { isFile := true }]
    let batch := revived ++ [.file "b" "", .tombstone "c"]
    (DeltaItem.file "b" "").id ≠ (DeltaItem.tombstone "c").id ∧
      (merge [("b", { id := "b", accessLocator := some "w" })] batch).records.get? "a" =
        some { id := "a", accessLocator := some "v" } ∧
      (merge [("b", { id := "b", accessLocator := some "w" })] batch).records.get? "b" =
        some { id := "b" } ∧
      (merge [("b", { id := "b", accessLocator := some "w" })] batch).skipped = 1 ∧
      ∀ id, (merge [("b", { id := "b", accessLocator := some "w" })]
        (revived ++ [.tombstone "c", .file "b" ""])).records.get? id =
          (merge [("b", { id := "b", accessLocator := some "w" })] batch).records.get? id := by
  intro revived batch
  obtain ⟨hget, hskipped, -, -, -, -, hswap⟩ :=
    merge_last_wins [("b", { id := "b", accessLocator := some "w" })] batch
  refine ⟨by decide, ?_, ?_, ?_, hswap revived _ _ [] rfl (by decide)⟩
  · rw [hget]
    decide
  · rw [hget]
    decide
  · rw [hskipped]
    decide

end Records

end DriveDelta
