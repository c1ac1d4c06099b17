import DriveDelta.Toml.Document
import Mathlib.Data.List.Basic

/-!
# Tables do not disturb each other

A header opens a table and the entries behind it fill that table.  Whatever stands elsewhere stays
as it is, where elsewhere means at a path of which neither is the beginning of the other.  So tables
of which no one is inside another can be written in any order.

## What is here

* `Toml.Apart`, paths of which neither is the beginning of the other;
* `Toml.nodeAt?`, what stands at a path, and what opening and filling a table do to it;
* `Toml.Section`, a table as it is written, and `Toml.build?_sections`: what a document of such
  tables holds.
-/

set_option autoImplicit false

namespace DriveDelta.Toml

/-! ## Paths -/

/-- Paths that part: neither is the beginning of the other. -/
def Apart : List String → List String → Prop
  | k :: p, l :: q => k ≠ l ∨ Apart p q
  | _, _ => False

instance decidableApart : (p q : List String) → Decidable (Apart p q)
  | k :: p, l :: q =>
    have := decidableApart p q
    inferInstanceAs (Decidable (k ≠ l ∨ Apart p q))
  | [], _ => isFalse id
  | _ :: _, [] => isFalse id

theorem Apart.symm {p q : List String} (h : Apart p q) : Apart q p := by
  induction p generalizing q with
  | nil => exact h.elim
  | cons k p ih =>
    cases q with
    | nil => exact h.elim
    | cons l q =>
      rcases h with h | h
      · exact .inl h.symm
      · exact .inr (ih h)

theorem Apart.ne_nil {p q : List String} (h : Apart p q) : p ≠ [] := by
  rintro rfl
  exact h

/-! ## What stands at a path -/

/-- What stands at a path below a node, or below nothing.  There is no answer where a value or an
array stands in the way. -/
def nodeAt? : List String → Option Node → Option (Option Node)
  | [], n => some n
  | _ :: _, none => some none
  | k :: p, some (.table _ t) => nodeAt? p (get? k t)
  | _ :: _, some _ => none

/-- The same for values. -/
def valueAt? : List String → Option Value → Option (Option Value)
  | [], v => some v
  | _ :: _, none => some none
  | k :: p, some (.table ms) => valueAt? p (get? k ms)
  | _ :: _, some _ => none

theorem nodeAt?_none (p : List String) : nodeAt? p none = some none := by cases p <;> rfl

theorem get?_valuesOf (k : String) (ms : Members) :
    get? k (valuesOf ms) = (get? k ms).map Node.toValue := by
  induction ms with
  | nil => rw [valuesOf]; rfl
  | cons m ms ih =>
    obtain ⟨l, n⟩ := m
    rw [valuesOf, get?, get?]
    split
    · rfl
    · exact ih

/-- Where nodes can be found, so can their values. -/
theorem valueAt?_of_nodeAt? {p : List String} {n r : Option Node} (h : nodeAt? p n = some r) :
    valueAt? p (n.map Node.toValue) = some (r.map Node.toValue) := by
  induction p generalizing n with
  | nil =>
    obtain rfl := Option.some_inj.1 h
    rfl
  | cons k p ih =>
    cases n with
    | none =>
      obtain rfl := Option.some_inj.1 h
      rfl
    | some n =>
      cases n with
      | table s t =>
        rw [Option.map_some, Node.toValue, valueAt?, get?_valuesOf]
        exact ih h
      | value v => cases h
      | tables t ts => cases h

/-- A member that is set changes nothing apart from its own path, if what is put there agrees apart
from that with what stood there. -/
theorem nodeAt?_set_of_apart {k : String} {p : List String} {ms : Members} {n : Node}
    (h : ∀ q, Apart q p → nodeAt? q (some n) = nodeAt? q (get? k ms)) (s : Standing)
    {q : List String} (hq : Apart q (k :: p)) :
    nodeAt? q (some (.table s (set k n ms))) = nodeAt? q (some (.table s ms)) := by
  cases q with
  | nil => exact hq.elim
  | cons l q =>
    rw [nodeAt?, nodeAt?]
    by_cases hl : l = k
    · subst hl
      rw [get?_set_self]
      exact h q (hq.resolve_left (fun hne => hne rfl))
    · rw [get?_set_of_ne hl]

/-! ## Opening and filling -/

/-- A table can be opened wherever nothing stands, and is empty then. -/
theorem exists_open {key : String} {p : List String} {s : Standing} {ms : Members}
    (h : nodeAt? (p ++ [key]) (some (.table s ms)) = some none) :
    ∃ ms', within? (openTable? key) p ms = some ms' ∧
      nodeAt? (p ++ [key]) (some (.table s ms')) = some (some (.table .opened [])) ∧
      ∀ q, Apart q (p ++ [key]) →
        nodeAt? q (some (.table s ms')) = nodeAt? q (some (.table s ms)) := by
  induction p generalizing s ms with
  | nil =>
    have hnone : get? key ms = none := Option.some_inj.1 h
    refine ⟨set key (.table .opened []) ms, ?_, ?_, fun q hq => ?_⟩
    · rw [within?, openTable?, hnone]
    · rw [List.nil_append, nodeAt?, get?_set_self, nodeAt?]
    · exact nodeAt?_set_of_apart (fun q hq => absurd rfl hq.symm.ne_nil) s hq
  | cons k p ih =>
    rw [List.cons_append, nodeAt?] at h
    cases hk : get? k ms with
    | none =>
      -- The table in between is implied.
      have hvacant : nodeAt? (p ++ [key]) (some (.table .implied [])) = some none := by
        cases p <;> exact nodeAt?_none _
      obtain ⟨t, hwithin, hat, hapart⟩ := ih hvacant
      refine ⟨set k (.table .implied t) ms, ?_, ?_, fun q hq => ?_⟩
      · rw [within?, hk]
        simp [hwithin]
      · rw [List.cons_append, nodeAt?, get?_set_self, hat]
      · refine nodeAt?_set_of_apart (fun q hq => ?_) s hq
        rw [hapart q hq, hk, nodeAt?_none]
        obtain ⟨l, q, rfl⟩ := List.exists_cons_of_ne_nil hq.ne_nil
        exact nodeAt?_none q
    | some n =>
      rw [hk] at h
      cases n with
      | table s' t =>
        obtain ⟨t', hwithin, hat, hapart⟩ := ih h
        refine ⟨set k (.table s' t') ms, ?_, ?_, fun q hq => ?_⟩
        · rw [within?, hk]
          simp [hwithin]
        · rw [List.cons_append, nodeAt?, get?_set_self, hat]
        · exact nodeAt?_set_of_apart (fun q hq => by rw [hapart q hq, hk]) s hq
      | value v => cases p <;> cases h
      | tables t ts => cases p <;> cases h

/-- Work in a table that is there changes that table. -/
theorem exists_within {f : Members → Option Members} {p : List String} {s s' : Standing}
    {ms t t' : Members} (h : nodeAt? p (some (.table s ms)) = some (some (.table s' t)))
    (hf : f t = some t') :
    ∃ ms', within? f p ms = some ms' ∧
      nodeAt? p (some (.table s ms')) = some (some (.table s' t')) ∧
      ∀ q, Apart q p → nodeAt? q (some (.table s ms')) = nodeAt? q (some (.table s ms)) := by
  induction p generalizing s ms with
  | nil =>
    cases h
    exact ⟨t', hf, rfl, fun q hq => absurd rfl hq.symm.ne_nil⟩
  | cons k p ih =>
    rw [nodeAt?] at h
    cases hk : get? k ms with
    | none =>
      rw [hk, nodeAt?_none] at h
      cases h
    | some n =>
      rw [hk] at h
      cases n with
      | table s'' u =>
        obtain ⟨u', hwithin, hat, hapart⟩ := ih h
        refine ⟨set k (.table s'' u') ms, ?_, ?_, fun q hq => ?_⟩
        · rw [within?, hk]
          simp [hwithin]
        · rw [nodeAt?, get?_set_self, hat]
        · exact nodeAt?_set_of_apart (fun q hq => by rw [hapart q hq, hk]) s hq
      | value v => cases p <;> cases h
      | tables u us => cases p <;> cases h

/-! ## Tables as they are written -/

/-- A table with a header of its own and entries on the lines behind it. -/
structure Section where
  path : List String
  entries : List (String × Value)

namespace Section

def statements (s : Section) : List Statement :=
  .table s.path :: s.entries.map fun e => .entry [e.1] e.2

/-- A section that a document can have: its path leads somewhere, and no key has two values. -/
structure Valid (s : Section) : Prop where
  path_ne_nil : s.path ≠ []
  keys_nodup : (s.entries.map Prod.fst).Nodup

end Section

/-- Entries as the members of a table. -/
def nodes (es : List (String × Value)) : Members := es.map fun e => (e.1, .value e.2)

theorem valuesOf_nodes (es : List (String × Value)) : valuesOf (nodes es) = es := by
  induction es with
  | nil => rw [nodes, List.map_nil, valuesOf]
  | cons e es ih => rw [nodes, List.map_cons, ← nodes, valuesOf, ih, Node.toValue]

theorem get?_eq_none {α : Type} {key : String} {ms : List (String × α)}
    (h : key ∉ ms.map Prod.fst) : get? key ms = none := by
  induction ms with
  | nil => rfl
  | cons m ms ih =>
    rw [List.map_cons, List.mem_cons, not_or] at h
    rw [get?, if_neg (Ne.symm h.1), ih h.2]

/-- Where keys are distinct, each member is found by its key. -/
theorem get?_of_mem {α : Type} {key : String} {v : α} {ms : List (String × α)}
    (hnodup : (ms.map Prod.fst).Nodup) (h : (key, v) ∈ ms) : get? key ms = some v := by
  induction ms with
  | nil => exact absurd h List.not_mem_nil
  | cons m ms ih =>
    obtain ⟨hm, hnodup⟩ := List.nodup_cons.1 hnodup
    rcases List.mem_cons.1 h with rfl | h
    · rw [get?, if_pos rfl]
    · have hne : m.1 ≠ key := by
        rintro rfl
        exact hm (List.mem_map.2 ⟨_, h, rfl⟩)
      rw [get?, if_neg hne, ih hnodup h]

theorem set_eq_append {α : Type} {key : String} {ms : List (String × α)}
    (h : key ∉ ms.map Prod.fst) (v : α) : set key v ms = ms ++ [(key, v)] := by
  induction ms with
  | nil => rfl
  | cons m ms ih =>
    rw [List.map_cons, List.mem_cons, not_or] at h
    rw [set, if_neg (Ne.symm h.1), ih h.2]
    rfl

/-- A new key is put behind those that are there. -/
theorem putPath?_nodes {key : String} {es : List (String × Value)} (h : key ∉ es.map Prod.fst)
    (v : Value) : putPath? [key] v (nodes es) = some (nodes (es ++ [(key, v)])) := by
  have hkey : key ∉ (nodes es).map Prod.fst := by
    rw [nodes, List.map_map]
    exact h
  have happend : nodes (es ++ [(key, v)]) = nodes es ++ [(key, .value v)] := List.map_append
  rw [putPath?, List.getLast?_singleton, Option.bind_some, List.dropLast_singleton, put?,
    get?_eq_none hkey, happend, ← set_eq_append hkey]

/-- A draft as a node. -/
def Draft.root (d : Draft) : Option Node := some (.table .opened d.members)

/-- Entries fill the table whose header was seen last. -/
theorem foldlM_entries {d : Draft} {s : Standing} {done : List (String × Value)}
    (h : nodeAt? d.path d.root = some (some (.table s (nodes done)))) {es : List (String × Value)}
    (hkeys : ((done ++ es).map Prod.fst).Nodup) :
    ∃ d', (es.map fun e => Statement.entry [e.1] e.2).foldlM Draft.add? d = some d' ∧
      nodeAt? d.path d'.root = some (some (.table s (nodes (done ++ es)))) ∧
      ∀ q, Apart q d.path → nodeAt? q d'.root = nodeAt? q d.root := by
  induction es generalizing d done with
  | nil => exact ⟨d, rfl, by rwa [List.append_nil], fun _ _ => rfl⟩
  | cons e es ih =>
    have hnew : e.1 ∉ done.map Prod.fst := by
      rw [List.map_append, List.map_cons, List.nodup_append] at hkeys
      exact fun hmem => hkeys.2.2 _ hmem _ List.mem_cons_self rfl
    obtain ⟨ms, hwithin, hat, hapart⟩ := exists_within h (putPath?_nodes hnew e.2)
    obtain ⟨d', hfold, hat', hapart'⟩ :=
      ih (d := { d with members := ms }) hat (by simpa using hkeys)
    refine ⟨d', ?_, by simpa using hat', fun q hq => (hapart' q hq).trans (hapart q hq)⟩
    rw [List.map_cons, List.foldlM_cons, Draft.add?, hwithin]
    exact hfold

/-- What a draft holds: a table for each section, and nothing apart from those. -/
structure Draft.Holds (d : Draft) (sections : List Section) : Prop where
  stands : ∀ s ∈ sections, nodeAt? s.path d.root = some (some (.table .opened (nodes s.entries)))
  vacant : ∀ q ≠ [], (∀ s ∈ sections, Apart q s.path) → nodeAt? q d.root = some none

/-- A section is added to those that a draft holds. -/
theorem Draft.Holds.add {d : Draft} {sections : List Section} (h : d.Holds sections) {s : Section}
    (hs : s.Valid) (hapart : ∀ t ∈ sections, Apart t.path s.path) :
    ∃ d', s.statements.foldlM Draft.add? d = some d' ∧ d'.Holds (sections ++ [s]) := by
  have hvacant : nodeAt? s.path d.root = some none :=
    h.vacant _ hs.path_ne_nil fun t ht => (hapart t ht).symm
  have hpath : s.path.dropLast ++ [s.path.getLast hs.path_ne_nil] = s.path :=
    List.dropLast_append_getLast hs.path_ne_nil
  obtain ⟨ms, hopen, hat, hother⟩ := exists_open (by rw [hpath]; exact hvacant)
  rw [hpath] at hat hother
  have hempty : nodeAt? s.path (Draft.root ⟨ms, s.path⟩) =
      some (some (.table .opened (nodes []))) := hat
  have hkeys : (([] ++ s.entries).map Prod.fst).Nodup := hs.keys_nodup
  obtain ⟨d', hfill, hat', hother'⟩ := foldlM_entries (d := ⟨ms, s.path⟩) hempty hkeys
  have hkept (q : List String) (hq : Apart q s.path) : nodeAt? q d'.root = nodeAt? q d.root :=
    (hother' q hq).trans (hother q hq)
  refine ⟨d', ?_, fun t ht => ?_, fun q hq hall => ?_⟩
  · rw [Section.statements, List.foldlM_cons, Draft.add?, Draft.openPath?,
      List.getLast?_eq_some_getLast hs.path_ne_nil]
    simp only [Option.bind_eq_bind, Option.bind_some, hopen]
    exact hfill
  · rcases List.mem_append.1 ht with ht | ht
    · rw [hkept _ (hapart t ht), h.stands t ht]
    · obtain rfl := List.mem_singleton.1 ht
      exact hat'
  · have hall' := List.forall_mem_append.1 hall
    rw [hkept q (hall'.2 s (List.mem_singleton_self s)), h.vacant q hq hall'.1]

/-- Sections that are apart from each other are added one after the other. -/
theorem Draft.Holds.addAll {d : Draft} {done : List Section} (h : d.Holds done)
    {sections : List Section} (hvalid : ∀ s ∈ sections, s.Valid)
    (hapart : (done ++ sections).Pairwise fun s t => Apart s.path t.path) :
    ∃ d', (sections.flatMap Section.statements).foldlM Draft.add? d = some d' ∧
      d'.Holds (done ++ sections) := by
  induction sections generalizing d done with
  | nil => exact ⟨d, rfl, by rwa [List.append_nil]⟩
  | cons s sections ih =>
    obtain ⟨hs, hsections⟩ := List.forall_mem_cons.1 hvalid
    have hdone : ∀ t ∈ done, Apart t.path s.path := fun t ht =>
      (List.pairwise_append.1 hapart).2.2 t ht s List.mem_cons_self
    obtain ⟨d', hadd, hd'⟩ := h.add hs hdone
    obtain ⟨d'', hrest, hd''⟩ := ih hd' hsections (by simpa using hapart)
    refine ⟨d'', ?_, by simpa using hd''⟩
    rw [List.flatMap_cons, List.foldlM_append, hadd]
    exact hrest

/-- **Sections that are apart from each other make a document in any order.**  Each of them is
there with its entries, and nothing is apart from all of them. -/
theorem build?_sections {sections : List Section} (hvalid : ∀ s ∈ sections, s.Valid)
    (hapart : sections.Pairwise fun s t => Apart s.path t.path) :
    ∃ document, build? (sections.flatMap Section.statements) = some document ∧
      (∀ s ∈ sections,
        valueAt? s.path (some (.table document)) = some (some (.table s.entries))) ∧
      ∀ q ≠ [], (∀ s ∈ sections, Apart q s.path) →
        valueAt? q (some (.table document)) = some none := by
  have hempty : ({} : Draft).Holds [] := by
    refine ⟨fun s hs => absurd hs List.not_mem_nil, fun q hq _ => ?_⟩
    obtain ⟨k, q, rfl⟩ := List.exists_cons_of_ne_nil hq
    exact nodeAt?_none q
  obtain ⟨d, hfold, hd⟩ := hempty.addAll hvalid hapart
  rw [List.nil_append] at hd
  have hvalue {q : List String} {r : Option Node} (h : nodeAt? q d.root = some r) :
      valueAt? q (some (.table (valuesOf d.members))) = some (r.map Node.toValue) := by
    have := valueAt?_of_nodeAt? h
    rwa [Draft.root, Option.map_some, Node.toValue] at this
  refine ⟨valuesOf d.members, ?_, fun s hs => ?_, fun q hq hall => hvalue (hd.vacant q hq hall)⟩
  · rw [build?, hfold]
    rfl
  · rw [hvalue (hd.stands s hs), Option.map_some, Node.toValue, valuesOf_nodes]

end DriveDelta.Toml
