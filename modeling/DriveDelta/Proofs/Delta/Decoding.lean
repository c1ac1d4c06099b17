import DriveDelta.Delta.Decode
import DriveDelta.Proofs.Json.Storing

/-!
# What pages mean

A page is a JSON object, and what it means can be said of the object alone: of the members that it
has, and not of how they are written down or in which order.  Only the numbers in its items may keep
an object that is a page from being read: they are stored as doubles, and one that is too large for
that is refused.

## What is here

* `Json.Means`, a member that was read beside the one that it stands for, and `Json.means_get?`;
* `DeltaPage.IsPage` and `DeltaPage.ofMembers`, which objects are pages, and what page they are;
* `DeltaPage.itemsStorable`, whether its items can be stored, and
  `DeltaPage.itemsStorable_of_size_le`;
* `DeltaPage.SamePage`, objects that are the same page, with `DeltaPage.samePage_of_perm`;
* `DeltaPage.decode_agrees`, for all texts of an object, and `DeltaPage.largest_double_refused`.
-/

set_option autoImplicit false

namespace DriveDelta

namespace Json

/-! ## Members -/

/-- Whether a member is there and is not null. -/
def Datum.isPresent : Option Datum → Bool
  | none | some .null => false
  | some _ => true

/-- The text of a member that is a string. -/
def Datum.string? : Option Datum → Option String
  | some (.string s) => some s
  | _ => none

/-- Whether a member is absent, null or a string. -/
def Datum.IsOptionalText (v : Option Datum) : Prop :=
  v = none ∨ v = some .null ∨ ∃ s, v = some (.string s)

/-- A member that was read stands for one of an object, or both are absent. -/
inductive Means : Option Json → Option Datum → Prop where
  | absent : Means none none
  | present {j : Json} {v : Datum} (h : meaning? j = some v) : Means (some j) (some v)

section Means

variable {j : Option Json} {v : Option Datum}

theorem Means.isPresent_eq (h : Means j v) : isPresent j = Datum.isPresent v := by
  cases h with
  | absent => rfl
  | @present j v h =>
    cases j with
    | null | bool =>
      obtain rfl := Option.some_inj.1 h
      rfl
    | _ =>
      obtain ⟨_, -, rfl⟩ := Option.map_eq_some_iff.1 h
      rfl

theorem Means.text?_eq (h : Means j v) : text? j = Datum.string? v := by
  cases h with
  | absent => rfl
  | @present j v h =>
    cases j with
    | null | bool =>
      obtain rfl := Option.some_inj.1 h
      rfl
    | string ps =>
      obtain ⟨s, hs, rfl⟩ := Option.map_eq_some_iff.1 h
      exact hs
    | _ =>
      obtain ⟨_, -, rfl⟩ := Option.map_eq_some_iff.1 h
      rfl

/-- What is absent, null or a string is read as its text, if it has one. -/
theorem Means.optionalText?_eq (h : Means j v) (hv : Datum.IsOptionalText v) :
    optionalText? j = some (Datum.string? v) := by
  rcases hv with rfl | rfl | ⟨s, rfl⟩
  · cases h
    rfl
  · cases h with
    | @present j _ h =>
      cases j with
      | null => rfl
      | bool => exact absurd h (by simp [meaning?])
      | _ =>
        obtain ⟨_, -, h⟩ := Option.map_eq_some_iff.1 h
        exact absurd h (by simp)
  · cases h with
    | @present j _ h =>
      cases j with
      | null | bool => exact absurd h (by simp [meaning?])
      | string ps =>
        obtain ⟨s', hs, h⟩ := Option.map_eq_some_iff.1 h
        obtain rfl := Datum.string.inj h
        exact congrArg (Option.map some) hs
      | _ =>
        obtain ⟨_, -, h⟩ := Option.map_eq_some_iff.1 h
        exact absurd h (by simp)

/-- What is anything else is refused. -/
theorem Means.optionalText?_eq_none (h : Means j v) (hv : ¬ Datum.IsOptionalText v) :
    optionalText? j = none := by
  cases h with
  | absent => exact absurd (.inl rfl) hv
  | @present j v h =>
    cases j with
    | null =>
      obtain rfl := Option.some_inj.1 h
      exact absurd (.inr (.inl rfl)) hv
    | string ps =>
      obtain ⟨s, hs, rfl⟩ := Option.map_eq_some_iff.1 h
      exact absurd (.inr (.inr ⟨s, rfl⟩)) hv
    | _ => rfl

end Means

section Members

variable {members : List (List Piece × Json)} {ms : List (String × Datum)} {name : String}

/-- The names that were read are those of the object. -/
theorem names_of_memberMeanings (h : memberMeanings? members = some ms) :
    members.map (fun m => textOf? m.1) = ms.map fun m => some m.1 := by
  induction members generalizing ms with
  | nil =>
    obtain rfl := Option.some_inj.1 h
    rfl
  | cons m members ih =>
    obtain ⟨name, hname, h⟩ := Option.bind_eq_some_iff.1 h
    obtain ⟨v, -, h⟩ := Option.bind_eq_some_iff.1 h
    obtain ⟨ms, hms, rfl⟩ := Option.map_eq_some_iff.1 h
    rw [List.map_cons, List.map_cons, ih hms, hname]

theorem namesAreTexts_of_memberMeanings (h : memberMeanings? members = some ms) :
    namesAreTexts members = true := by
  rw [namesAreTexts, List.all_eq_true]
  intro m hm
  have hmem : textOf? m.1 ∈ ms.map fun m => some m.1 :=
    names_of_memberMeanings h ▸ List.mem_map_of_mem hm
  obtain ⟨m', -, hm'⟩ := List.mem_map.1 hmem
  rw [← hm']
  rfl

/-- A member is read as often as the object has one of its name. -/
theorem count_eq (h : memberMeanings? members = some ms) (name : String) :
    Json.count members name = (ms.map (·.1)).count name := by
  have hread : Json.count members name =
      (members.map fun m => textOf? m.1).countP (· == some name) := by
    rw [List.countP_map]
    rfl
  rw [hread, names_of_memberMeanings h, List.countP_map, List.count, List.countP_map]
  refine List.countP_congr fun m _ => ?_
  simp

theorem once_of_nodup (h : memberMeanings? members = some ms) (hnodup : (ms.map (·.1)).Nodup)
    (names : List String) : once members names = true := by
  rw [once, List.all_eq_true]
  intro name _
  rw [count_eq h, decide_eq_true_eq]
  exact List.nodup_iff_count_le_one.1 hnodup name

theorem get?_cons (m : List Piece × Json) (members : List (List Piece × Json)) (name : String) :
    get? (m :: members) name =
      (get? members name).or (if textOf? m.1 == some name then some m.2 else none) := by
  rw [get?, List.reverse_cons, List.find?_append, Option.map_or, get?]
  congr 1
  rw [List.find?_singleton]
  split <;> rfl

/-- What is read of a name stands for the member of that name. -/
theorem means_get? (h : memberMeanings? members = some ms) (hnodup : (ms.map (·.1)).Nodup)
    (name : String) : Means (get? members name) (ms.lookup name) := by
  induction members generalizing ms with
  | nil =>
    obtain rfl := Option.some_inj.1 h
    exact .absent
  | cons m members ih =>
    obtain ⟨name', hname, h⟩ := Option.bind_eq_some_iff.1 h
    obtain ⟨v, hv, h⟩ := Option.bind_eq_some_iff.1 h
    obtain ⟨ms, hms, rfl⟩ := Option.map_eq_some_iff.1 h
    rw [List.map_cons, List.nodup_cons] at hnodup
    have hrest := ih hms hnodup.2
    rw [get?_cons, List.lookup_cons, hname]
    by_cases heq : name = name'
    · -- there is no further member of this name
      have hnone : ms.lookup name = none := by
        rw [List.lookup_eq_none_iff]
        rintro ⟨name'', v'⟩ hm
        simp only [bne_iff_ne, ne_eq]
        rintro rfl
        subst heq
        exact hnodup.1 (List.mem_map.2 ⟨_, hm, rfl⟩)
      rw [hnone] at hrest
      cases hget : get? members name with
      | some j => rw [hget] at hrest; cases hrest
      | none =>
        subst heq
        simpa using Means.present hv
    · have hne : (some name' == some name) = false := by simpa using Ne.symm heq
      have hne' : (name == name') = false := by simpa using heq
      rw [hne, hne', if_neg Bool.false_ne_true, Option.or_none]
      exact hrest

end Members

end Json

/-! ## Items -/

open Json

namespace DeltaItem

/-- Whether a value is an item: an object whose `id`, if it has one, is null or a string. -/
def IsItem : Datum → Prop
  | .object fs => Datum.IsOptionalText (fs.lookup "id")
  | _ => False

/-- The item that the members of an object make. -/
def ofMembers (fs : List (String × Datum)) : DeltaItem where
  id := Datum.string? (fs.lookup "id")
  isFile := Datum.isPresent (fs.lookup "file")
  deleted := Datum.isPresent (fs.lookup "deleted")
  downloadUrl := (Datum.string? (fs.lookup "@microsoft.graph.downloadUrl")).or
    (Datum.string? (fs.lookup "@content.downloadUrl"))

/-- The item that a value is. -/
def ofDatum : Datum → DeltaItem
  | .object fs => ofMembers fs
  | _ => {}

variable {levels : Nat}

theorem findSome?_downloadUrlKeys (f : String → Option String) :
    downloadUrlKeys.findSome? f =
      (f "@microsoft.graph.downloadUrl").or (f "@content.downloadUrl") := by
  rw [downloadUrlKeys, List.findSome?_cons, List.findSome?_singleton]
  cases f "@microsoft.graph.downloadUrl" <;> rfl

/-- An object that can be stored is read as far as its `id`; no other is read. -/
theorem ofJson?_object {members : List (List Piece × Json)} {fs : List (String × Datum)}
    (h : memberMeanings? members = some fs) (hplain : (Datum.object fs).isPlain levels = true)
    (hlevels : levels ≤ memberLevels + 1) :
    ofJson? (.object members) =
      if (Datum.object fs).isStorable then
        (optionalText? (get? members "id")).map fun id => { ofMembers fs with id }
      else none := by
  obtain ⟨hpos, hnodup, hfs⟩ := isPlain_object_iff.1 hplain
  have hstorable : membersStorable memberLevels members = (Datum.object fs).isStorable :=
    membersStorable_eq (by omega) h hfs
  have hmeans (name : String) := means_get? h hnodup name
  rw [ofJson?, once_of_nodup h hnodup, hstorable]
  cases (Datum.object fs).isStorable with
  | false => rfl
  | true =>
    cases optionalText? (get? members "id") with
    | none => rfl
    | some id =>
      have hurl := findSome?_downloadUrlKeys fun k => text? (get? members k)
      rw [(hmeans _).text?_eq, (hmeans _).text?_eq] at hurl
      simp only [hurl, (hmeans _).isPresent_eq]
      rfl

/-- What is an item and can be stored is read as that item. -/
theorem ofJson?_of_isItem {j : Json} {v : Datum} (h : meaning? j = some v)
    (hplain : v.isPlain levels = true) (hlevels : levels ≤ memberLevels + 1)
    (hv : IsItem v ∧ v.isStorable = true) : ofJson? j = some (ofDatum v) := by
  cases j with
  | object members =>
    obtain ⟨fs, hfs, rfl⟩ := Option.map_eq_some_iff.1 h
    have hnodup := (isPlain_object_iff.1 hplain).2.1
    rw [ofJson?_object hfs hplain hlevels, if_pos hv.2,
      (means_get? hfs hnodup "id").optionalText?_eq hv.1]
    rfl
  | null | bool =>
    obtain rfl := Option.some_inj.1 h
    exact hv.1.elim
  | _ =>
    obtain ⟨_, -, rfl⟩ := Option.map_eq_some_iff.1 h
    exact hv.1.elim

/-- Everything else is refused. -/
theorem ofJson?_of_not_isItem {j : Json} {v : Datum} (h : meaning? j = some v)
    (hplain : v.isPlain levels = true) (hlevels : levels ≤ memberLevels + 1)
    (hv : ¬ (IsItem v ∧ v.isStorable = true)) : ofJson? j = none := by
  cases j with
  | object members =>
    obtain ⟨fs, hfs, rfl⟩ := Option.map_eq_some_iff.1 h
    have hnodup := (isPlain_object_iff.1 hplain).2.1
    rw [ofJson?_object hfs hplain hlevels]
    split
    next hstorable =>
      have hitem : ¬ IsItem (.object fs) := fun hitem => hv ⟨hitem, hstorable⟩
      rw [(means_get? hfs hnodup "id").optionalText?_eq_none hitem]
      rfl
    next => rfl
  | _ => rfl

end DeltaItem

namespace DeltaPage

open DeltaItem (IsItem)

/-- Whether a member is absent or a list of items. -/
def AreItems (v : Option Datum) : Prop :=
  v = none ∨ ∃ vs, v = some (.array vs) ∧ ∀ v ∈ vs, IsItem v

/-- The items of a member. -/
def itemsOf : Option Datum → List DeltaItem
  | some (.array vs) => vs.map DeltaItem.ofDatum
  | _ => []

/-- Whether every number in the items of an object is finite as it is stored. -/
def itemsStorable (ms : List (String × Datum)) : Bool := (ms.lookup "value").all Datum.isStorable

/-- Whether an object is a page. -/
structure IsPage (ms : List (String × Datum)) : Prop where
  items : AreItems (ms.lookup "value")
  next : Datum.IsOptionalText (ms.lookup "@odata.nextLink")
  delta : Datum.IsOptionalText (ms.lookup "@odata.deltaLink")

/-- The page that the members of an object make. -/
def ofMembers (ms : List (String × Datum)) : DeltaPage where
  items := itemsOf (ms.lookup "value")
  cursor := (Datum.string? (ms.lookup "@odata.nextLink")).or
    (Datum.string? (ms.lookup "@odata.deltaLink"))
  hasMore := (Datum.string? (ms.lookup "@odata.nextLink")).isSome

/-! ## Reading pages -/

/-- The items of a list, read one by one. -/
def items? : Option Json → Option (List DeltaItem)
  | none => some []
  | some (.array js) => js.mapM DeltaItem.ofJson?
  | some _ => none

section Items

variable {levels : Nat} {js : List Json} {vs : List Datum}

theorem mapM_of_isItem (h : meanings? js = some vs) (hplain : itemsPlain levels vs = true)
    (hlevels : levels ≤ memberLevels + 1) (hvs : ∀ v ∈ vs, IsItem v ∧ v.isStorable = true) :
    js.mapM DeltaItem.ofJson? = some (vs.map DeltaItem.ofDatum) := by
  induction js generalizing vs with
  | nil =>
    obtain rfl := Option.some_inj.1 h
    rfl
  | cons j js ih =>
    obtain ⟨v, hv, h⟩ := Option.bind_eq_some_iff.1 h
    obtain ⟨vs, hjs, rfl⟩ := Option.map_eq_some_iff.1 h
    rw [itemsPlain, Bool.and_eq_true] at hplain
    rw [List.forall_mem_cons] at hvs
    rw [List.mapM_cons, DeltaItem.ofJson?_of_isItem hv hplain.1 hlevels hvs.1,
      ih hjs hplain.2 hvs.2]
    rfl

theorem mapM_of_not_isItem (h : meanings? js = some vs) (hplain : itemsPlain levels vs = true)
    (hlevels : levels ≤ memberLevels + 1) (hvs : ¬ ∀ v ∈ vs, IsItem v ∧ v.isStorable = true) :
    js.mapM DeltaItem.ofJson? = none := by
  induction js generalizing vs with
  | nil =>
    obtain rfl := Option.some_inj.1 h
    exact absurd (fun v hv => absurd hv List.not_mem_nil) hvs
  | cons j js ih =>
    obtain ⟨v, hv, h⟩ := Option.bind_eq_some_iff.1 h
    obtain ⟨vs, hjs, rfl⟩ := Option.map_eq_some_iff.1 h
    rw [itemsPlain, Bool.and_eq_true] at hplain
    rw [List.mapM_cons]
    by_cases hitem : IsItem v ∧ v.isStorable = true
    · have hrest : ¬ ∀ v ∈ vs, IsItem v ∧ v.isStorable = true := by
        intro hall
        exact hvs (List.forall_mem_cons.2 ⟨hitem, hall⟩)
      rw [ih hjs hplain.2 hrest, DeltaItem.ofJson?_of_isItem hv hplain.1 hlevels hitem]
      rfl
    · rw [DeltaItem.ofJson?_of_not_isItem hv hplain.1 hlevels hitem]
      rfl

variable {j : Option Json} {v : Option Datum}

/-- A list of items that can be stored is read as its items. -/
theorem items?_of_areItems (h : Means j v) (hplain : ∀ v', v = some v' → v'.isPlain levels = true)
    (hlevels : levels ≤ memberLevels + 2) (hv : AreItems v ∧ v.all Datum.isStorable = true) :
    items? j = some (itemsOf v) := by
  obtain ⟨rfl | ⟨vs, rfl, hvs⟩, hstorable⟩ := hv
  · cases h
    rfl
  · rw [Option.all_some, Datum.isStorable_array, List.all_eq_true] at hstorable
    cases h with
    | @present j _ h =>
      cases j with
      | null | bool => exact absurd h (by simp [meaning?])
      | array js =>
        obtain ⟨vs', hjs, h⟩ := Option.map_eq_some_iff.1 h
        obtain rfl := Datum.array.inj h
        have harray := hplain _ rfl
        rw [Datum.isPlain, Bool.and_eq_true] at harray
        exact mapM_of_isItem hjs harray.2 (by omega) fun v hv => ⟨hvs v hv, hstorable v hv⟩
      | _ =>
        obtain ⟨_, -, h⟩ := Option.map_eq_some_iff.1 h
        exact absurd h (by simp)

/-- Everything else is refused. -/
theorem items?_of_not_areItems (h : Means j v)
    (hplain : ∀ v', v = some v' → v'.isPlain levels = true) (hlevels : levels ≤ memberLevels + 2)
    (hv : ¬ (AreItems v ∧ v.all Datum.isStorable = true)) : items? j = none := by
  cases h with
  | absent => exact absurd ⟨.inl rfl, rfl⟩ hv
  | @present j v h =>
    cases j with
    | array js =>
      obtain ⟨vs, hjs, rfl⟩ := Option.map_eq_some_iff.1 h
      have harray := hplain _ rfl
      rw [Datum.isPlain, Bool.and_eq_true] at harray
      refine mapM_of_not_isItem hjs harray.2 (by omega) fun hvs => hv ⟨?_, ?_⟩
      · exact .inr ⟨vs, rfl, fun v hv => (hvs v hv).1⟩
      · rw [Option.all_some, Datum.isStorable_array, List.all_eq_true]
        exact fun v hv => (hvs v hv).2
    | _ => rfl

end Items

theorem ofParts?_eq (items next delta : Option Json) :
    ofParts? items next delta = (items? items).bind fun items =>
      (optionalText? next).bind fun next => (optionalText? delta).bind fun delta =>
        some { items, cursor := next.or delta, hasMore := next.isSome } := by
  cases items with
  | none => rfl
  | some j => cases j <;> rfl

section Members

variable {levels : Nat} {members : List (List Piece × Json)} {ms : List (String × Datum)}

/-- The members of an object are read one by one. -/
theorem ofJson?_object (h : memberMeanings? members = some ms)
    (hplain : (Datum.object ms).isPlain levels = true) :
    ofJson? (.object members) =
      ofParts? (get? members "value") (get? members nextLinkKey) (get? members deltaLinkKey) := by
  rw [ofJson?, once_of_nodup h (isPlain_object_iff.1 hplain).2.1,
    namesAreTexts_of_memberMeanings h]
  rfl

/-- A page whose items can be stored is read as that page. -/
theorem ofJson?_of_isPage (h : memberMeanings? members = some ms)
    (hplain : (Datum.object ms).isPlain levels = true) (hlevels : levels ≤ memberLevels + 3)
    (hms : IsPage ms ∧ itemsStorable ms = true) :
    ofJson? (.object members) = some (ofMembers ms) := by
  obtain ⟨hpos, hnodup, hmembers⟩ := isPlain_object_iff.1 hplain
  rw [ofJson?_object h hplain, ofParts?_eq]
  have hmeans (name : String) := means_get? h hnodup name
  rw [items?_of_areItems (hmeans _) (fun v => isPlain_of_lookup hmembers) (by omega)
      ⟨hms.1.items, hms.2⟩,
    (hmeans nextLinkKey).optionalText?_eq hms.1.next,
    (hmeans deltaLinkKey).optionalText?_eq hms.1.delta]
  rfl

/-- Everything else is refused. -/
theorem ofJson?_of_not_isPage (h : memberMeanings? members = some ms)
    (hplain : (Datum.object ms).isPlain levels = true) (hlevels : levels ≤ memberLevels + 3)
    (hms : ¬ (IsPage ms ∧ itemsStorable ms = true)) : ofJson? (.object members) = none := by
  obtain ⟨hpos, hnodup, hmembers⟩ := isPlain_object_iff.1 hplain
  rw [ofJson?_object h hplain, ofParts?_eq]
  have hmeans (name : String) := means_get? h hnodup name
  by_cases hitems : AreItems (ms.lookup "value") ∧ itemsStorable ms = true
  · by_cases hnext : Datum.IsOptionalText (ms.lookup "@odata.nextLink")
    · have hdelta : ¬ Datum.IsOptionalText (ms.lookup "@odata.deltaLink") := by
        intro hdelta
        exact hms ⟨⟨hitems.1, hnext, hdelta⟩, hitems.2⟩
      rw [(hmeans deltaLinkKey).optionalText?_eq_none hdelta]
      simp
    · rw [(hmeans nextLinkKey).optionalText?_eq_none hnext]
      simp
  · rw [items?_of_not_areItems (hmeans _) (fun v => isPlain_of_lookup hmembers) (by omega) hitems]
    rfl

end Members

/-- Items without a number that is larger than what is surely read can be stored. -/
theorem itemsStorable_of_size_le {ms : List (String × Datum)}
    (h : ∀ d ∈ (Datum.object ms).numbers, d.size ≤ readable) : itemsStorable ms = true := by
  rw [itemsStorable, Option.all_eq_true]
  intro v hv
  exact Datum.isStorable_of_size_le fun d hd => h d (mem_numbers_of_lookup hv hd)

section Texts

variable {members : List (String × Datum)} {body : Bytes} {levels : Nat}

theorem exists_memberMeanings (hbody : Document (.object members) body) :
    ∃ ms, Json.parse? body = some (.object ms) ∧ memberMeanings? ms = some members := by
  obtain ⟨j, hparse, hj⟩ := Json.parse?_of_document hbody
  cases j with
  | null | bool => exact absurd hj (by simp [meaning?])
  | object ms =>
    obtain ⟨_, hms, h⟩ := Option.map_eq_some_iff.1 hj
    obtain rfl := Datum.object.inj h
    exact ⟨ms, hparse, hms⟩
  | _ =>
    obtain ⟨_, -, h⟩ := Option.map_eq_some_iff.1 hj
    exact absurd h (by simp)

theorem decode_of_isPage (hplain : (Datum.object members).isPlain levels = true)
    (hlevels : levels ≤ memberLevels + 3) (hbody : Document (.object members) body)
    (hpage : IsPage members ∧ itemsStorable members = true) :
    decode body = .ok (ofMembers members) := by
  obtain ⟨ms, hparse, hms⟩ := exists_memberMeanings hbody
  rw [decode, hparse, Option.bind_some, ofJson?_of_isPage hms hplain hlevels hpage]

theorem decode_of_not_isPage (hplain : (Datum.object members).isPlain levels = true)
    (hlevels : levels ≤ memberLevels + 3) (hbody : Document (.object members) body)
    (hpage : ¬ (IsPage members ∧ itemsStorable members = true)) :
    decode body = .error malformed := by
  obtain ⟨ms, hparse, hms⟩ := exists_memberMeanings hbody
  rw [decode, hparse, Option.bind_some, ofJson?_of_not_isPage hms hplain hlevels hpage]

end Texts

/-! ## Pages that are alike -/

/-- Two members are alike if they are equal, or if both are there and neither is null or a
string. -/
def Alike (v v' : Option Datum) : Prop :=
  v = v' ∨ ¬ Datum.IsOptionalText v ∧ ¬ Datum.IsOptionalText v'

/-- The members that an item is made of. -/
def itemNames : List String :=
  ["id", "file", "deleted", "@microsoft.graph.downloadUrl", "@content.downloadUrl"]

/-- Values that are the same as items: objects with these members alike, or no objects. -/
inductive SameItem : Datum → Datum → Prop where
  | object {fs fs' : List (String × Datum)}
      (h : ∀ name ∈ itemNames, Alike (fs.lookup name) (fs'.lookup name)) :
      SameItem (.object fs) (.object fs')
  | other {v v' : Datum} (h : ∀ fs, v ≠ .object fs) (h' : ∀ fs, v' ≠ .object fs) : SameItem v v'

/-- Members that are the same as lists of items. -/
inductive SameItems : Option Datum → Option Datum → Prop where
  | absent : SameItems none none
  | array {vs vs' : List Datum} (h : List.Forall₂ SameItem vs vs') :
      SameItems (some (.array vs)) (some (.array vs'))
  | other {v v' : Datum} (h : ∀ vs, v ≠ .array vs) (h' : ∀ vs, v' ≠ .array vs) :
      SameItems (some v) (some v')

/-- Objects that are the same as pages, whatever the order of their members and whatever other
members they have. -/
structure SamePage (ms ms' : List (String × Datum)) : Prop where
  items : SameItems (ms.lookup "value") (ms'.lookup "value")
  next : Alike (ms.lookup "@odata.nextLink") (ms'.lookup "@odata.nextLink")
  delta : Alike (ms.lookup "@odata.deltaLink") (ms'.lookup "@odata.deltaLink")

section Alike

variable {v v' : Option Datum}

theorem Alike.isOptionalText_iff (h : Alike v v') :
    Datum.IsOptionalText v ↔ Datum.IsOptionalText v' := by
  rcases h with rfl | ⟨hv, hv'⟩
  · exact Iff.rfl
  · exact iff_of_false hv hv'

theorem isPresent_of_not (h : ¬ Datum.IsOptionalText v) : Datum.isPresent v = true := by
  match v with
  | none => exact absurd (.inl rfl) h
  | some .null => exact absurd (.inr (.inl rfl)) h
  | some (.bool _) | some (.number _) | some (.string _) | some (.array _) | some (.object _) => rfl

theorem string?_of_not (h : ¬ Datum.IsOptionalText v) : Datum.string? v = none := by
  match v with
  | some (.string s) => exact absurd (.inr (.inr ⟨s, rfl⟩)) h
  | none | some .null | some (.bool _) | some (.number _) | some (.array _) | some (.object _) =>
    rfl

theorem Alike.isPresent_eq (h : Alike v v') : Datum.isPresent v = Datum.isPresent v' := by
  rcases h with rfl | ⟨hv, hv'⟩
  · rfl
  · rw [isPresent_of_not hv, isPresent_of_not hv']

theorem Alike.string?_eq (h : Alike v v') : Datum.string? v = Datum.string? v' := by
  rcases h with rfl | ⟨hv, hv'⟩
  · rfl
  · rw [string?_of_not hv, string?_of_not hv']

end Alike

theorem SameItem.isItem_iff {v v' : Datum} (h : SameItem v v') : IsItem v ↔ IsItem v' := by
  have hother : ∀ {v : Datum}, (∀ fs, v ≠ .object fs) → ¬ IsItem v := by
    intro v h
    cases v with
    | object fs => exact absurd rfl (h fs)
    | _ => exact id
  cases h with
  | object h => exact (h "id" (by decide)).isOptionalText_iff
  | other h h' => exact iff_of_false (hother h) (hother h')

theorem SameItem.ofDatum_eq {v v' : Datum} (h : SameItem v v') :
    DeltaItem.ofDatum v = DeltaItem.ofDatum v' := by
  cases h with
  | object h =>
    rw [DeltaItem.ofDatum, DeltaItem.ofDatum, DeltaItem.ofMembers, DeltaItem.ofMembers,
      (h "id" (by decide)).string?_eq, (h "file" (by decide)).isPresent_eq,
      (h "deleted" (by decide)).isPresent_eq,
      (h "@microsoft.graph.downloadUrl" (by decide)).string?_eq,
      (h "@content.downloadUrl" (by decide)).string?_eq]
  | other h h' =>
    have hnone : ∀ {v : Datum}, (∀ fs, v ≠ .object fs) → DeltaItem.ofDatum v = {} := by
      intro v h
      cases v with
      | object fs => exact absurd rfl (h fs)
      | _ => rfl
    rw [hnone h, hnone h']

theorem SameItems.areItems_iff {v v' : Option Datum} (h : SameItems v v') :
    AreItems v ↔ AreItems v' := by
  have hall : ∀ {vs vs' : List Datum}, List.Forall₂ SameItem vs vs' →
      ((∀ v ∈ vs, IsItem v) ↔ ∀ v ∈ vs', IsItem v) := by
    intro vs vs' h
    induction h with
    | nil => exact Iff.rfl
    | cons h _ ih => rw [List.forall_mem_cons, List.forall_mem_cons, h.isItem_iff, ih]
  have harray : ∀ {vs : List Datum}, AreItems (some (.array vs)) ↔ ∀ v ∈ vs, IsItem v := by
    intro vs
    simp [AreItems]
  have hother : ∀ {v : Datum}, (∀ vs, v ≠ .array vs) → ¬ AreItems (some v) := by
    rintro v hv (h | ⟨vs, h, -⟩)
    · exact absurd h (by simp)
    · exact hv vs (Option.some_inj.1 h)
  cases h with
  | absent => exact Iff.rfl
  | array h => rw [harray, harray, hall h]
  | other h h' => exact iff_of_false (hother h) (hother h')

theorem SameItems.itemsOf_eq {v v' : Option Datum} (h : SameItems v v') :
    itemsOf v = itemsOf v' := by
  have hother : ∀ {v : Datum}, (∀ vs, v ≠ .array vs) → itemsOf (some v) = [] := by
    intro v h
    cases v with
    | array vs => exact absurd rfl (h vs)
    | _ => rfl
  cases h with
  | absent => rfl
  | array h =>
    rw [itemsOf, itemsOf]
    induction h with
    | nil => rfl
    | cons h _ ih => rw [List.map_cons, List.map_cons, h.ofDatum_eq, ih]
  | other h h' => rw [hother h, hother h']

section SamePage

variable {ms ms' : List (String × Datum)}

theorem SamePage.isPage_iff (h : SamePage ms ms') : IsPage ms ↔ IsPage ms' := by
  have hitems := h.items.areItems_iff
  have hnext := h.next.isOptionalText_iff
  have hdelta := h.delta.isOptionalText_iff
  constructor
  · intro hms
    exact ⟨hitems.1 hms.items, hnext.1 hms.next, hdelta.1 hms.delta⟩
  · intro hms
    exact ⟨hitems.2 hms.items, hnext.2 hms.next, hdelta.2 hms.delta⟩

theorem SamePage.ofMembers_eq (h : SamePage ms ms') : ofMembers ms = ofMembers ms' := by
  rw [ofMembers, ofMembers, h.items.itemsOf_eq, h.next.string?_eq, h.delta.string?_eq]

theorem SameItem.refl (v : Datum) : SameItem v v := by
  cases v with
  | object fs => exact .object fun name _ => .inl rfl
  | _ => exact .other (by simp) (by simp)

theorem SameItems.refl (v : Option Datum) : SameItems v v := by
  match v with
  | none => exact .absent
  | some (.array vs) => exact .array (List.forall₂_same.2 fun v _ => .refl v)
  | some .null | some (.bool _) | some (.number _) | some (.string _) | some (.object _) =>
    exact .other (by simp) (by simp)

/-- The order of the members is of no account. -/
theorem samePage_of_perm (h : ms.Perm ms') (hnodup : (ms.map (·.1)).Nodup) : SamePage ms ms' := by
  have hlookup := lookup_eq_of_perm h hnodup
  exact ⟨hlookup _ ▸ .refl _, .inl (hlookup _), .inl (hlookup _)⟩

end SamePage

theorem decode_eq_of_samePage {members members' : List (String × Datum)} {body body' : Bytes}
    {levels levels' : Nat} (hplain : (Datum.object members).isPlain levels = true)
    (hlevels : levels ≤ memberLevels + 3) (hbody : Document (.object members) body)
    (hplain' : (Datum.object members').isPlain levels' = true)
    (hlevels' : levels' ≤ memberLevels + 3) (hbody' : Document (.object members') body')
    (hsame : SamePage members members')
    (hstorable : itemsStorable members' = itemsStorable members) : decode body' = decode body := by
  have hiff : IsPage members ∧ itemsStorable members = true ↔
      IsPage members' ∧ itemsStorable members' = true := by
    rw [hsame.isPage_iff, hstorable]
  by_cases hpage : IsPage members ∧ itemsStorable members = true
  · rw [decode_of_isPage hplain hlevels hbody hpage,
      decode_of_isPage hplain' hlevels' hbody' (hiff.1 hpage), hsame.ofMembers_eq]
  · rw [decode_of_not_isPage hplain hlevels hbody hpage,
      decode_of_not_isPage hplain' hlevels' hbody' (mt hiff.2 hpage)]

/-- **A page is read from any text of it as what its members mean.**  Let a text be one of a JSON
object which has no two members of one name and is nested at most 127 levels deep.  It is read
exactly if the object is a page and every number in its items is finite as it is stored, as all
numbers up to 1.7976931348623156 · 10³⁰⁸ are.  What is read then is the page that the members make;
else the text is malformed.  Neither what other members there are makes a difference, as long as
their numbers can be stored, nor the order of the members. -/
theorem decode_agrees {members : List (String × Datum)} {body : Bytes} {levels : Nat}
    (hplain : (Datum.object members).isPlain levels = true) (hlevels : levels ≤ memberLevels + 3)
    (hbody : Document (.object members) body) :
    ((∃ page, decode body = .ok page) ↔ IsPage members ∧ itemsStorable members = true) ∧
      ((∀ d ∈ (Datum.object members).numbers, d.size ≤ readable) →
        ((∃ page, decode body = .ok page) ↔ IsPage members)) ∧
      (∀ page, decode body = .ok page → page = ofMembers members) ∧
      (∀ e, decode body = .error e → e = malformed) ∧
      (∀ {members' : List (String × Datum)} {body' : Bytes} {levels' : Nat},
        (Datum.object members').isPlain levels' = true → levels' ≤ memberLevels + 3 →
          Document (.object members') body' → SamePage members members' →
            itemsStorable members' = itemsStorable members → decode body' = decode body) ∧
      ∀ {members' : List (String × Datum)} {body' : Bytes}, members.Perm members' →
        Document (.object members') body' → decode body' = decode body := by
  have hread : (∃ page, decode body = .ok page) ↔
      IsPage members ∧ itemsStorable members = true := by
    refine ⟨?_, fun hpage => ⟨_, decode_of_isPage hplain hlevels hbody hpage⟩⟩
    rintro ⟨page, hpage⟩
    by_contra hnot
    rw [decode_of_not_isPage hplain hlevels hbody hnot] at hpage
    cases hpage
  refine ⟨hread, fun hsize => ?_, fun page hpage => ?_, fun e he => ?_, ?_, ?_⟩
  · rw [hread, and_iff_left (itemsStorable_of_size_le hsize)]
  · rw [decode_of_isPage hplain hlevels hbody (hread.1 ⟨page, hpage⟩)] at hpage
    exact (Except.ok.inj hpage).symm
  · have hnot : ¬ (IsPage members ∧ itemsStorable members = true) := by
      intro hpage
      obtain ⟨page, hpage⟩ := hread.2 hpage
      rw [hpage] at he
      cases he
    rw [decode_of_not_isPage hplain hlevels hbody hnot] at he
    exact (Except.error.inj he).symm
  · intro members' body' levels' hplain' hlevels' hbody' hsame hstorable
    exact decode_eq_of_samePage hplain hlevels hbody hplain' hlevels' hbody' hsame hstorable
  · intro members' body' hperm hbody'
    have hplain' : (Datum.object members').isPlain levels = true :=
      (isPlain_eq_of_perm hperm).symm.trans hplain
    have hnodup := (isPlain_object_iff.1 hplain).2.1
    have hstorable : itemsStorable members' = itemsStorable members := by
      rw [itemsStorable, itemsStorable, lookup_eq_of_perm hperm hnodup]
    exact decode_eq_of_samePage hplain hlevels hbody hplain' hlevels hbody'
      (samePage_of_perm hperm hnodup) hstorable

/-- The last page of a listing, with one file. -/
def lastPage : List (String × Datum) :=
  [("@odata.deltaLink", .string "later"),
    ("value", .array [.object [("size", .number ⟨false, 1, [], 300⟩),
      ("@content.downloadUrl", .string "url"), ("file", .object []), ("id", .string "a")]])]

theorem decode_agrees_lastPage :
    decode (Datum.object lastPage).text =
        .ok { items := [.file "a" "url"], cursor := some "later", hasMore := false } ∧
      decode (Datum.object (("extra", .bool true) :: lastPage)).text =
        decode (Datum.object lastPage).text ∧
      decode (Datum.object lastPage.reverse).text = decode (Datum.object lastPage).text := by
  obtain ⟨-, hiff, hpage, -, hsame, hperm⟩ :=
    @decode_agrees lastPage _ 4 (by decide +kernel) (by decide) (document_text _)
  refine ⟨?_, ?_, ?_⟩
  · have hsize : ∀ d ∈ (Datum.object lastPage).numbers, d.size ≤ readable := by
      decide +kernel
    have hitem : IsItem (.object [("size", .number ⟨false, 1, [], 300⟩),
        ("@content.downloadUrl", .string "url"), ("file", .object []), ("id", .string "a")]) :=
      .inr (.inr ⟨"a", rfl⟩)
    obtain ⟨page, hdecode⟩ := (hiff hsize).2
      ⟨.inr ⟨_, rfl, List.forall_mem_singleton.2 hitem⟩, .inl rfl, .inr (.inr ⟨"later", rfl⟩)⟩
    rw [hdecode, hpage page hdecode]
    rfl
  · exact @hsame _ _ 4 (by decide +kernel) (by decide) (document_text _)
      ⟨.refl _, .inl rfl, .inl rfl⟩ rfl
  · exact hperm (List.reverse_perm _).symm (document_text _)

/-- The last page of a listing, with an item as large as the largest double. -/
def vastPage : List (String × Datum) :=
  [("value", .array [.object [("id", .string "a"),
    ("size", .number ⟨false, (Nat.pow 2 53 - 1) * Nat.pow 2 971, [], 0⟩)]])]

/-- **The largest double is refused** when it is written down in all of its 309 digits: 20 of them
are kept, and what these make with a power of ten is rounded to infinity.  So there are pages that
are not read although all of their numbers are doubles. -/
theorem largest_double_refused :
    (∀ d ∈ (Datum.object vastPage).numbers, ∃ x : Double, x.isFinite = true ∧ d.size = x.value) ∧
      (Datum.object vastPage).isPlain 3 = true ∧ IsPage vastPage ∧
      decode (Datum.object vastPage).text = .error malformed ∧
      ¬ ∀ members : List (String × Datum), (Datum.object members).isPlain 100 = true →
        (∀ d ∈ (Datum.object members).numbers,
          ∃ x : Double, x.isFinite = true ∧ d.size = x.value) →
        ((∃ page, decode (Datum.object members).text = .ok page) ↔ IsPage members) := by
  have hdoubles : ∀ d ∈ (Datum.object vastPage).numbers,
      ∃ x : Double, x.isFinite = true ∧ d.size = x.value :=
    List.forall_mem_singleton.2
      ⟨⟨false, Double.infiniteMagnitude - 1⟩, by decide, by decide +kernel⟩
  have hitem : IsItem (.object [("id", .string "a"),
      ("size", .number ⟨false, (Nat.pow 2 53 - 1) * Nat.pow 2 971, [], 0⟩)]) :=
    .inr (.inr ⟨"a", rfl⟩)
  have hpage : IsPage vastPage :=
    ⟨.inr ⟨_, rfl, List.forall_mem_singleton.2 hitem⟩, .inl rfl, .inl rfl⟩
  have hplain : (Datum.object vastPage).isPlain 3 = true := by decide +kernel
  have hvast : itemsStorable vastPage = false := by decide +kernel
  have hrefused : decode (Datum.object vastPage).text = .error malformed := by
    refine decode_of_not_isPage hplain (by decide) (document_text _) ?_
    rw [hvast]
    exact fun h => absurd h.2 (by decide)
  refine ⟨hdoubles, hplain, hpage, hrefused, fun h => ?_⟩
  obtain ⟨page, hread⟩ := (h vastPage (by decide +kernel) hdoubles).2 hpage
  rw [hrefused] at hread
  cases hread

end DeltaPage

end DriveDelta
