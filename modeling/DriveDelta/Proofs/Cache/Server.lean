import DriveDelta.Cache.Basic
import DriveDelta.Proofs.Cache.Merging

/-!
# A server to cache

A server holds files that come and go, and remembers every change.  Asked without a cursor it lists
the files it has; asked with a cursor that it gave out on a last page, it lists the changes since
then, in order.  It may spread either over any number of pages, with cursors of its choice in
between, and may fail at any time.

## What is here

* `Change` and `Server`, with `Server.filesAt`, the files after so many changes;
* `Server.Lists`, `Server.Tells` and `Server.Owes`, the items that an honest answer consists of, and
  `Server.Answers`, an honest answer itself;
* `Records.Matches`, which says that records and files agree;
* `Records.Matches.tells` and `Records.matches_lists`: merging what the server owes makes them
  agree;
* `Records.Matches.answer`, what records that agree with the files say about an id.
-/

set_option autoImplicit false

namespace DriveDelta

/-- What may happen to the files of a server. -/
inductive Change where
  | put (id url : String)
  | delete (id : String)

namespace Change

def id : Change → String
  | .put id _ | .delete id => id

/-- Files have ids and addresses. -/
def Valid : Change → Prop
  | .put id url => id ≠ "" ∧ url ≠ ""
  | .delete id => id ≠ ""

/-- How a change is listed. -/
def item : Change → DeltaItem
  | .put id url => .file id url
  | .delete id => .tombstone id

/-- Files are addresses by id. -/
def apply (files : String → Option String) : Change → String → Option String
  | .put id url => fun id' => if id' = id then some url else files id'
  | .delete id => fun id' => if id' = id then none else files id'

end Change

/-- What a cursor stands for. -/
inductive Bookmark where
  /-- The changes after the first so many. -/
  | position (changes : Nat)
  /-- The remaining items of a listing. -/
  | rest (items : List DeltaItem)

structure Server where
  /-- All changes ever made, in order. -/
  log : List Change
  /-- The cursors that were given out. -/
  bookmarks : String → Option Bookmark

namespace Server

/-- The files after the first so many changes. -/
def filesAt (s : Server) (n : Nat) : String → Option String :=
  (s.log.take n).foldl Change.apply fun _ => none

/-- These items list the files.  Whatever is not a file may stand among them. -/
structure Lists (files : String → Option String) (items : List DeltaItem) : Prop where
  sound : ∀ item ∈ items, item.isFile = true → ∃ id url, item = .file id url ∧ files id = some url
  complete : ∀ id url, files id = some url → .file id url ∈ items

/-- These items list the changes, in order.  Whatever is not a file may stand among them. -/
def Tells (changes : List Change) (items : List DeltaItem) : Prop :=
  items.filter (·.isFile) = changes.map Change.item

/-- These items are what the server has to answer to a request with this cursor, on as many pages as
it likes. -/
def Owes (s : Server) (cursor : Option String) (items : List DeltaItem) : Prop :=
  match cursor with
  | none => Lists (s.filesAt s.log.length) items
  | some c =>
    match s.bookmarks c with
    | some (.position n) => Tells (s.log.drop n) items
    | some (.rest items') => items = items'
    | none => False

/-- Giving out cursors does not change the files, nor what older cursors of last pages stand for. -/
structure Extends (s s' : Server) : Prop where
  log_eq : s'.log = s.log
  position : ∀ c n, s.bookmarks c = some (.position n) → s'.bookmarks c = some (.position n)

/-- An honest answer, and the server after it.  A page that has more to follow comes with a cursor
for the rest.  A last page comes with no cursor, or with one for what is going to change. -/
structure Answers (s : Server) (cursor : Option String) (answer : Except Error DeltaPage)
    (s' : Server) : Prop extends Extends s s' where
  more : ∀ page, answer = .ok page → page.hasMore = true →
    ∃ next rest, page.cursor = some next ∧ s.Owes cursor (page.items ++ rest) ∧
      s'.Owes (some next) rest
  last : ∀ page, answer = .ok page → page.hasMore = false →
    s.Owes cursor page.items ∧
      ∀ c, page.cursor = some c → s'.bookmarks c = some (.position s.log.length)

variable {s s' : Server}

theorem filesAt_of_log_eq (h : s'.log = s.log) (n : Nat) : s'.filesAt n = s.filesAt n := by
  rw [filesAt, filesAt, h]

/-- Later changes do not touch the past. -/
theorem filesAt_append {n : Nat} (hn : n ≤ s.log.length) (changes : List Change)
    (bookmarks : String → Option Bookmark) :
    filesAt ⟨s.log ++ changes, bookmarks⟩ n = s.filesAt n := by
  rw [filesAt, filesAt, List.take_append_of_le_length hn]

/-- The changes between two moments lead from the files of one to those of the other. -/
theorem filesAt_drop {n m : Nat} (h : n ≤ m) (s : Server) :
    ((s.log.take m).drop n).foldl Change.apply (s.filesAt n) = s.filesAt m := by
  have htake : (s.log.take m).take n = s.log.take n := by rw [List.take_take, Nat.min_eq_left h]
  rw [filesAt, ← htake, ← List.foldl_append, List.take_append_drop, filesAt]

/-- Every file was put. -/
theorem filesAt_valid (hv : ∀ x ∈ s.log, x.Valid) (n : Nat) {id url : String}
    (hu : s.filesAt n id = some url) : id ≠ "" ∧ url ≠ "" := by
  have hfold : ∀ (log : List Change) (held : String → Option String), (∀ x ∈ log, x.Valid) →
      (∀ url, held id = some url → id ≠ "" ∧ url ≠ "") →
      ∀ url, log.foldl Change.apply held id = some url → id ≠ "" ∧ url ≠ "" := by
    intro log
    induction log with
    | nil => exact fun held _ hh => hh
    | cons x log ih =>
      intro held hx hh
      refine ih (x.apply held) (fun y hy => hx y (List.mem_cons_of_mem _ hy)) fun url hu => ?_
      have hvalid := hx x List.mem_cons_self
      cases x with
      | put id' url' =>
        by_cases he : id = id'
        · obtain rfl : url' = url := by simpa [Change.apply, he] using hu
          exact ⟨he ▸ hvalid.1, hvalid.2⟩
        · exact hh url (by simpa [Change.apply, he] using hu)
      | delete id' =>
        by_cases he : id = id'
        · exact absurd hu (by simp [Change.apply, he])
        · exact hh url (by simpa [Change.apply, he] using hu)
  exact hfold _ _ (fun x hx => hv x (List.mem_of_mem_take hx)) (by simp) url hu

/-- Only the files among them matter. -/
theorem Lists.congr {files : String → Option String} {items items' : List DeltaItem}
    (h : Lists files items) (he : items.filter (·.isFile) = items'.filter (·.isFile)) :
    Lists files items' := by
  have hmem : ∀ item : DeltaItem, item.isFile = true → (item ∈ items ↔ item ∈ items') := by
    intro item hf
    have h₁ : item ∈ items.filter (·.isFile) ↔ item ∈ items := by simp [hf]
    have h₂ : item ∈ items'.filter (·.isFile) ↔ item ∈ items' := by simp [hf]
    rw [← h₁, he, h₂]
  refine ⟨fun item hm hf => h.sound item ((hmem item hf).2 hm) hf, fun id url hu => ?_⟩
  exact (hmem _ rfl).1 (h.complete id url hu)

/-- A listing of the files is a list of changes that put each of them. -/
theorem Lists.exists_puts {files : String → Option String} {items : List DeltaItem}
    (h : Lists files items) :
    ∃ puts, Tells puts items ∧ (∀ x ∈ puts, ∃ id url, x = .put id url ∧ files id = some url) ∧
      ∀ id url, files id = some url → .put id url ∈ puts := by
  let toPut : DeltaItem → Change := fun item =>
    .put (item.id.getD "") (item.downloadUrl.getD "")
  have hfile : ∀ item ∈ items.filter (·.isFile), ∃ id url, item = .file id url ∧
      files id = some url := by
    intro item hm
    rw [List.mem_filter] at hm
    exact h.sound item hm.1 hm.2
  refine ⟨(items.filter (·.isFile)).map toPut, ?_, fun x hx => ?_, fun id url hu => ?_⟩
  · have hself : ∀ item ∈ items.filter (·.isFile), (Change.item ∘ toPut) item = item := by
      intro item hm
      obtain ⟨id, url, rfl, -⟩ := hfile item hm
      rfl
    rw [Tells, List.map_map, List.map_congr_left hself, List.map_id']
  · obtain ⟨item, hm, rfl⟩ := List.mem_map.1 hx
    obtain ⟨id, url, rfl, hu⟩ := hfile item hm
    exact ⟨id, url, rfl, hu⟩
  · have hm : .file id url ∈ items.filter (·.isFile) :=
      List.mem_filter.2 ⟨h.complete id url hu, rfl⟩
    exact List.mem_map.2 ⟨.file id url, hm, rfl⟩

/-- Putting every file that is missing or different, at its address, gives the files. -/
theorem foldl_puts {files : String → Option String} {puts : List Change}
    (hp : ∀ x ∈ puts, ∃ id url, x = .put id url ∧ files id = some url)
    {held : String → Option String} (hh : ∀ id, held id = files id ∨ ∃ url, .put id url ∈ puts) :
    puts.foldl Change.apply held = files := by
  induction puts generalizing held with
  | nil =>
    funext id
    exact (hh id).resolve_right (by simp)
  | cons x puts ih =>
    obtain ⟨id, url, rfl, hu⟩ := hp x List.mem_cons_self
    refine ih (fun y hy => hp y (List.mem_cons_of_mem _ hy)) fun id' => ?_
    by_cases he : id' = id
    · exact .inl (by simp [Change.apply, he, hu])
    · rcases hh id' with hsame | ⟨url', hm⟩
      · exact .inl (by simpa [Change.apply, he] using hsame)
      · exact .inr ⟨url', (List.mem_cons.1 hm).resolve_left (by simp [he])⟩

/-- Two ways to answer a request with a cursor list the same files. -/
theorem Owes.filter_eq {c : String} {items items' : List DeltaItem} (h : s.Owes (some c) items)
    (h' : s.Owes (some c) items') : items.filter (·.isFile) = items'.filter (·.isFile) := by
  rw [Owes] at h h'
  cases hb : s.bookmarks c with
  | none => rw [hb] at h; exact h.elim
  | some b =>
    rw [hb] at h h'
    cases b with
    | position n => exact Eq.trans h (Eq.symm h')
    | rest rest => exact h ▸ h' ▸ rfl

end Server

/-! ## Records and files -/

namespace Records

/-- The records know the files that there are, and nothing but tombstones of any others. -/
def Matches (rs : Records) (files : String → Option String) : Prop :=
  ∀ id, match files id with
    | some url => rs.get? id = some { id, accessLocator := some url }
    | none => rs.get? id = none ∨ rs.get? id = some { id, tombstoned := true }

variable {rs : Records} {files : String → Option String}

theorem apply_of_not_isFile {item : DeltaItem} (h : item.isFile = false) (rs : Records) :
    rs.apply item = rs := by
  rw [apply, Record.ofItem?, h]
  rfl

/-- Items that are not files do nothing. -/
theorem foldl_apply_filter (rs : Records) (items : List DeltaItem) :
    (items.filter (·.isFile)).foldl apply rs = items.foldl apply rs := by
  induction items generalizing rs with
  | nil => rfl
  | cons item items ih =>
    cases hf : item.isFile with
    | true => rw [List.filter_cons_of_pos hf, List.foldl_cons, List.foldl_cons, ih]
    | false =>
      rw [List.filter_cons_of_neg (by simp [hf]), List.foldl_cons, apply_of_not_isFile hf, ih]

theorem apply_file {id url : String} (hid : id ≠ "") (hurl : url ≠ "") (rs : Records) :
    rs.apply (.file id url) = rs.put id { id, accessLocator := some url } := by
  simp [apply, Record.ofItem?, DeltaItem.file, Option.filter, hid, hurl]

theorem apply_tombstone {id : String} (hid : id ≠ "") (rs : Records) :
    rs.apply (.tombstone id) = rs.put id { id, tombstoned := true } := by
  simp [apply, Record.ofItem?, DeltaItem.tombstone, Option.filter, hid]

/-- Records and files go along with a change. -/
theorem Matches.apply (h : rs.Matches files) {x : Change} (hx : x.Valid) :
    (rs.apply x.item).Matches (x.apply files) := by
  intro id'
  have hold := h id'
  cases x with
  | put id url =>
    rw [Change.item, apply_file hx.1 hx.2, get?_put]
    by_cases he : id' = id
    · simp [Change.apply, he]
    · simpa [Change.apply, he] using hold
  | delete id =>
    rw [Change.item, apply_tombstone hx, get?_put]
    by_cases he : id' = id
    · simp [Change.apply, he]
    · simpa [Change.apply, he] using hold

/-- **Merging the changes since makes records that were right once right again.** -/
theorem Matches.tells (h : rs.Matches files) {changes : List Change} {items : List DeltaItem}
    (hv : ∀ x ∈ changes, x.Valid) (ht : Server.Tells changes items) :
    (merge rs items).records.Matches (changes.foldl Change.apply files) := by
  rw [merge_records, ← foldl_apply_filter, ht]
  clear ht
  induction changes generalizing rs files with
  | nil => exact h
  | cons x changes ih =>
    exact ih (h.apply (hv x List.mem_cons_self)) fun y hy => hv y (List.mem_cons_of_mem _ hy)

/-- **Merging a listing of the files into no records makes them right.** -/
theorem matches_lists {items : List DeltaItem} (h : Server.Lists files items)
    (hv : ∀ id url, files id = some url → id ≠ "" ∧ url ≠ "") :
    (merge [] items).records.Matches files := by
  obtain ⟨puts, ht, hp, hall⟩ := h.exists_puts
  have hvalid : ∀ x ∈ puts, x.Valid := by
    intro x hx
    obtain ⟨id, url, rfl, hu⟩ := hp x hx
    exact hv id url hu
  have hnone : Matches [] fun _ => none := fun id => .inl rfl
  have hheld : ∀ id, none = files id ∨ ∃ url, Change.put id url ∈ puts := by
    intro id
    cases hu : files id with
    | none => exact .inl rfl
    | some url => exact .inr ⟨url, hall id url hu⟩
  rw [← Server.foldl_puts hp hheld]
  exact hnone.tells hvalid ht

/-- What records that are right say about an id. -/
theorem Matches.answer (h : rs.Matches files) (id : String) :
    match files id with
    | some url => rs.answer id = .ok { id, accessLocator := some url }
    | none => rs.answer id = .error (.gone id) ∨ rs.answer id = .error (.notFound id) := by
  have hid := h id
  cases hu : files id with
  | some url =>
    simp only [hu] at hid
    simp [Records.answer, hid, Record.isAvailable]
  | none =>
    simp only [hu] at hid
    rcases hid with hn | ht
    · exact .inr (by simp [Records.answer, hn])
    · exact .inl (by simp [Records.answer, ht])

end Records

end DriveDelta
