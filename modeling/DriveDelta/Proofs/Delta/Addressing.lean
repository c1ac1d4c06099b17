import DriveDelta.Delta.Address
import DriveDelta.Proofs.Url.Parts
import Mathlib.Data.List.Basic

/-!
# Where the listing of a drive is looked for

A drive is named by a segment of a path, and that segment stands for the name of the drive.  There
are names that no segment can stand for: those of one or two dots say where a path leads, and
tabulators and line ends are passed over wherever they stand in a URL.  What the query says about
pages is not touched by any of this.

## What is here

* `DriveAddress.Root`, a base URL below which drives are looked for;
* `DriveAddress.landing`, the path that a name leads to, and `DriveAddress.firstPage_addresses_iff`:
  a drive is addressed by its name unless that is one of the names above, and
  `DriveAddress.name_leaves_drives`, one of them;
* `DriveAddress.firstPage_form`: what a query says about pages is what was asked for.
-/

set_option autoImplicit false

namespace DriveDelta.DriveAddress

open Url

/-! ## Paths -/

/-- The segments that others are put behind: a lone slash has none. -/
def trunk (p : Path) : Path := if p = [[]] then [] else p

/-- The characters of a name that are not passed over. -/
def kept (drive : String) : List Char := drive.toList.filter (!isIgnored ·)

/-- The path to the listing of a drive, by the name of the drive.  Names of dots are left out or, if
their dots are found only behind what is passed over, are followed. -/
def landing (p : Path) (drive : String) : Path :=
  if drive.toList = ['.'] ∨ drive.toList = ['.', '.'] then
    trunk p ++ ["drives".toList, "root".toList, "delta".toList]
  else if kept drive = ['.'] then
    trunk p ++ ["drives".toList, [], "root".toList, "delta".toList]
  else if kept drive = ['.', '.'] then
    trunk (trunk p ++ [[]]) ++ ["root".toList, "delta".toList]
  else
    trunk p ++
      ["drives".toList, percentEncode inSpecialSegment (kept drive), "root".toList, "delta".toList]

theorem trunk_append {s : List Char} (h : s ≠ []) (p rest : Path) :
    trunk (p ++ s :: rest) = p ++ s :: rest := by
  refine if_neg fun heq => h ?_
  have hmem : s ∈ p ++ s :: rest := List.mem_append_right _ List.mem_cons_self
  rwa [heq, List.mem_singleton] at hmem

/-- An encoded segment stands for its characters. -/
theorem percentDecode_segment (cs : List Char) :
    percentDecode (percentEncode inSpecialSegment cs) = Utf8.encode cs :=
  percentDecode_percentEncode (by decide) cs

/-- An encoded segment is one dot only if it was one: each way to write a dot is read as a dot. -/
theorem isSingleDot_percentEncode (cs : List Char) :
    isSingleDot (percentEncode inSpecialSegment cs) = true ↔ cs = ['.'] := by
  refine ⟨fun h => ?_, by rintro rfl; decide⟩
  have hdots : ∀ s ∈ dots, percentDecode s = Utf8.encode ['.'] := by decide
  refine Utf8.encode_injective ?_
  rw [← percentDecode_segment]
  exact hdots _ (by simpa [isSingleDot] using h)

theorem isDoubleDot_percentEncode (cs : List Char) :
    isDoubleDot (percentEncode inSpecialSegment cs) = true ↔ cs = ['.', '.'] := by
  refine ⟨fun h => ?_, by rintro rfl; decide⟩
  have hdots : ∀ s ∈ dots, ∀ t ∈ dots, percentDecode (s ++ t) = Utf8.encode ['.', '.'] := by decide
  simp only [isDoubleDot, List.any_eq_true, beq_iff_eq] at h
  obtain ⟨s, hs, t, ht, heq⟩ := h
  refine Utf8.encode_injective ?_
  rw [← percentDecode_segment, heq]
  exact hdots s hs t ht

/-- A segment that is added begins behind a slash of its own. -/
theorem addSegment_eq {s : List Char} (h : ¬(s = ['.'] ∨ s = ['.', '.'])) (p : Path) :
    addSegment true p s = writeSegment (trunk p ++ [[]])
      (percentEncode inSpecialSegment (s.filter (!isIgnored ·))) := by
  have hopened : (if p = [[]] then p else p ++ [[]]) = trunk p ++ [[]] := by
    rw [trunk]
    split
    · assumption
    · rfl
  simp only [addSegment, if_neg h, hopened, if_true]

theorem addSegment_of_dots {s : List Char} (h : s = ['.'] ∨ s = ['.', '.']) (p : Path) :
    addSegment true p s = p := if_pos h

/-- Anything but dots is written as it is. -/
theorem writeSegment_of_ne {cs : List Char} (hone : cs ≠ ['.']) (htwo : cs ≠ ['.', '.'])
    (p : Path) : writeSegment (p ++ [[]]) (percentEncode inSpecialSegment cs) =
      p ++ [percentEncode inSpecialSegment cs] := by
  rw [writeSegment, if_neg (mt (isDoubleDot_percentEncode cs).1 htwo),
    if_neg (mt (isSingleDot_percentEncode cs).1 hone), List.dropLast_concat]

/-- One of the fixed segments. -/
theorem addSegment_fixed {s : List Char} (h : s ∈ ["drives".toList, "root".toList, "delta".toList])
    (p : Path) : addSegment true p s = trunk p ++ [s] := by
  have hall : ∀ s ∈ ["drives".toList, "root".toList, "delta".toList],
      ¬(s = ['.'] ∨ s = ['.', '.']) ∧ s.filter (!isIgnored ·) = s ∧
        percentEncode inSpecialSegment s = s := by decide
  obtain ⟨hdots, hkept, hencode⟩ := hall s h
  have hwritten := writeSegment_of_ne (fun h => hdots (.inl h)) (fun h => hdots (.inr h)) (trunk p)
  rw [addSegment_eq hdots, hkept, hwritten, hencode]

/-- The last segments of every listing. -/
theorem addSegment_root_delta (p : Path) :
    addSegment true (addSegment true p "root".toList) "delta".toList =
      trunk p ++ ["root".toList, "delta".toList] := by
  rw [addSegment_fixed (by simp), addSegment_fixed (by simp), trunk_append (by decide),
    List.append_assoc, List.singleton_append]

/-- The segment of the drives is taken back as any other. -/
theorem shorten_drives (p : Path) : shorten (p ++ ["drives".toList, []]) = p ++ [[]] := by
  have hdrive : isDriveLetter ['d', 'r', 'i', 'v', 'e', 's'] = false := by decide
  simp [shorten, hdrive]

/-- The segments of a listing lead to where its drive's name leads. -/
theorem foldl_addSegment (p : Path) (drive : String) :
    (segments drive).foldl (addSegment true) p = landing p drive := by
  have hdrives : addSegment true p "drives".toList = trunk p ++ ["drives".toList] :=
    addSegment_fixed (by simp) p
  have htrunk (rest : Path) : trunk (trunk p ++ "drives".toList :: rest) =
      trunk p ++ "drives".toList :: rest := trunk_append (by decide) _ _
  simp only [segments, List.foldl_cons, List.foldl_nil, hdrives]
  rw [addSegment_root_delta, landing]
  by_cases hdots : drive.toList = ['.'] ∨ drive.toList = ['.', '.']
  · rw [if_pos hdots, addSegment_of_dots hdots, htrunk, List.append_assoc, List.singleton_append]
  · rw [if_neg hdots, addSegment_eq hdots, htrunk, ← kept]
    by_cases hone : kept drive = ['.']
    · rw [if_pos hone, hone, writeSegment, if_neg (by decide), if_pos (by decide),
        List.append_assoc, List.singleton_append, htrunk, List.append_assoc]
      rfl
    · rw [if_neg hone]
      by_cases htwo : kept drive = ['.', '.']
      · rw [if_pos htwo, htwo, writeSegment, if_pos (by decide), List.append_assoc,
          List.singleton_append, shorten_drives]
      · rw [if_neg htwo, writeSegment_of_ne hone htwo, List.append_assoc, List.singleton_append,
          htrunk, List.append_assoc]
        rfl

theorem free_trunk {p : Path} (h : ∀ s ∈ p, Free s) : ∀ s ∈ trunk p, Free s := by
  rw [trunk]
  split
  · exact List.forall_mem_nil _
  · exact h

/-- Wherever a name leads, no segment on the way ends the path. -/
theorem freePath_landing {p : Path} (h : FreePath p) (drive : String) :
    FreePath (landing p drive) := by
  have htrunk := free_trunk h.segments
  have hsegment : Free (percentEncode inSpecialSegment (kept drive)) :=
    free_percentEncode fun c _ hd => by
      rcases isDelimiter_cases hd with rfl | rfl | rfl <;> decide
  have hdrives : Free "drives".toList := by decide
  have hend : ∀ s ∈ ["root".toList, "delta".toList], Free s := by decide
  rw [landing]
  split
  · exact ⟨List.forall_mem_append.2 ⟨htrunk, by decide⟩, by simp⟩
  · split
    · exact ⟨List.forall_mem_append.2 ⟨htrunk, by decide⟩, by simp⟩
    · split
      · have hopen : ∀ s ∈ trunk p ++ [[]], Free s :=
          List.forall_mem_append.2 ⟨htrunk, by decide⟩
        exact ⟨List.forall_mem_append.2 ⟨free_trunk hopen, hend⟩, by simp⟩
      · refine ⟨List.forall_mem_append.2 ⟨htrunk, ?_⟩, by simp⟩
        exact List.forall_mem_cons.2 ⟨hdrives, List.forall_mem_cons.2 ⟨hsegment, hend⟩⟩

/-! ## Names that address their drives -/

/-- A name that a segment of a path can stand for. -/
structure Addressable (drive : String) : Prop where
  kept : ∀ c ∈ drive.toList, isIgnored c = false
  ne_dot : drive.toList ≠ ['.']
  ne_dots : drive.toList ≠ ['.', '.']

theorem Addressable.kept_eq {drive : String} (h : Addressable drive) :
    DriveAddress.kept drive = drive.toList :=
  List.filter_eq_self.2 fun c hc => by rw [h.kept c hc]; rfl

theorem Addressable.landing_eq {drive : String} (h : Addressable drive) (p : Path) :
    landing p drive = trunk p ++ ["drives".toList,
      percentEncode inSpecialSegment drive.toList, "root".toList, "delta".toList] := by
  rw [landing, h.kept_eq, if_neg (not_or.2 ⟨h.ne_dot, h.ne_dots⟩), if_neg h.ne_dot,
    if_neg h.ne_dots]

/-- One segment more or less makes a difference. -/
theorem append_ne_of_length {p q rest : Path} (hlength : q.length ≠ rest.length) :
    p ++ q ≠ p ++ rest := fun heq =>
  hlength (congrArg List.length (List.append_cancel_left heq))

/-- The path that a name leads to tells the name, if it can. -/
theorem landing_eq_iff (p : Path) (drive : String) :
    (∃ s, landing p drive = trunk p ++ ["drives".toList, s, "root".toList, "delta".toList] ∧
      percentDecode s = Utf8.encode drive.toList) ↔ Addressable drive := by
  refine ⟨fun ⟨s, hs, hdecode⟩ => ?_, fun h => ⟨_, h.landing_eq p, percentDecode_segment _⟩⟩
  rw [landing] at hs
  split at hs
  · exact absurd hs (append_ne_of_length (by simp))
  · rename_i hdots
    have hname {cs : List Char} (hcs : percentDecode s = Utf8.encode cs) : drive.toList = cs :=
      Utf8.encode_injective (hdecode.symm.trans hcs)
    split at hs
    · -- The segment is empty, the name is not.
      rename_i hone
      have hs : s = [] := by simpa using (List.append_cancel_left hs).symm
      have hname : drive.toList = [] := hname (by rw [hs]; rfl)
      rw [kept, hname] at hone
      cases hone
    · split at hs
      · have hlength : (trunk (trunk p ++ [[]])).length + 2 = (trunk p).length + 4 := by
          simpa using congrArg List.length hs
        rw [trunk] at hlength
        split at hlength
        · simp at hlength
        · simp at hlength
      · have hs : s = percentEncode inSpecialSegment (kept drive) := by
          simpa using (List.append_cancel_left hs).symm
        have hkept : drive.toList = kept drive := hname (by rw [hs, percentDecode_segment])
        refine ⟨fun c hc => ?_, fun h => hdots (.inl h), fun h => hdots (.inr h)⟩
        rw [hkept] at hc
        simpa using (List.mem_filter.1 hc).2

/-! ## Addresses -/

/-- A base URL of the web, which is kept without the slashes at its end.  It has no query and no
fragment. -/
structure Root (baseUrl : String) (u : Url) : Prop where
  parse_eq : Url.parse (base baseUrl) = .ok u
  web : IsWeb u
  query_eq : u.query = none
  fragment_eq : u.fragment = none

/-- What is said about pages, as a query; none if there is nothing to say. -/
def pageQuery (page : PageConfig) : Option (List Char) :=
  match (pairs page).foldl addPair [] with
  | [] => none
  | c :: form => some (c :: form)

/-- The address of a listing, part by part. -/
def listingUrl (u : Url) (p : Path) (drive : String) (page : PageConfig) : Url :=
  { u with path := some (landing p drive), query := pageQuery page }

theorem mem_pageQuery {page : PageConfig} {q : List Char} (h : pageQuery page = some q) {c : Char}
    (hc : c ∈ q) : c ≠ '?' ∧ c ≠ '#' := by
  rw [pageQuery] at h
  split at h
  · cases h
  · rename_i form hform
    cases h
    exact mem_addPairs (List.forall_mem_nil _) (pairs page) c (hform ▸ hc)

theorem dropQuestionMark_concat (cs : List Char) : dropQuestionMark (cs ++ ['?']) = cs := by
  simp [dropQuestionMark]

/-- What ends in a form that is not empty keeps its end. -/
theorem dropQuestionMark_of_form {form : List Char} (hne : form ≠ [])
    (hform : ∀ c ∈ form, c ≠ '?' ∧ c ≠ '#') (cs : List Char) :
    dropQuestionMark (cs ++ form) = cs ++ form := by
  refine if_neg fun hlast => ?_
  rw [List.getLast?_append_of_ne_nil cs hne] at hlast
  exact (hform '?' (List.mem_of_getLast? hlast)).1 rfl

/-- Only an empty query leaves a question mark at the end, and that is cut off. -/
theorem dropQuestionMark_text {u : Url} (hq : u.query = none) (hf : u.fragment = none)
    (page : PageConfig) :
    dropQuestionMark (u.addPairs (pairs page)).text =
      ({ u with query := pageQuery page } : Url).text := by
  have htext (q : Option (List Char)) : ({ u with query := q } : Url).text =
      ({ u with query := none } : Url).text ++ (q.map ('?' :: ·)).getD [] := by
    simp [Url.text, guardText, hf]
  have hfree := mem_addPairs (List.forall_mem_nil _) (pairs page)
  rw [addPairs, hq, Option.getD_none, htext, htext (pageQuery page), pageQuery]
  cases hform : (pairs page).foldl addPair [] with
  | nil => simpa using dropQuestionMark_concat _
  | cons c form =>
    have hkeep := dropQuestionMark_of_form (List.cons_ne_nil c form) (hform ▸ hfree)
      (({ u with query := none } : Url).text ++ ['?'])
    simpa using hkeep

namespace Root

variable {baseUrl : String} {u : Url} (h : Root baseUrl u)

include h

theorem laidOut : ∃ authority p, LaidOut u authority p := parse_laidOut h.parse_eq h.web

theorem firstPage_eq {p : Path} (hp : u.path = some p) (drive : String) (page : PageConfig) :
    firstPage baseUrl drive page = .ok (String.ofList (listingUrl u p drive page).text) := by
  obtain ⟨usual, hkind⟩ := h.web.schemeKind
  have hadd : u.addSegments? (segments drive) = some { u with path := some (landing p drive) } := by
    rw [addSegments?, hp, hkind, ← foldl_addSegment]
    rfl
  have hdrop := dropQuestionMark_text (u := { u with path := some (landing p drive) }) h.query_eq
    h.fragment_eq page
  simp only [firstPage, h.parse_eq, hadd, hdrop]
  rfl

/-- The parts of an address, told from its text. -/
theorem parts_eq {authority : List Char} {p : Path} (hu : LaidOut u authority p)
    (drive : String) (page : PageConfig) :
    segmentsIn (listingUrl u p drive page).text = landing p drive ∧
      queryIn (listingUrl u p drive page).text = pageQuery page ∧
      ('?' ∉ (listingUrl u p drive page).text ↔ pageQuery page = none) := by
  have hlisting : LaidOut (listingUrl u p drive page) authority (landing p drive) :=
    ⟨hu.authority_eq, rfl, hu.authority_free, freePath_landing hu.path_free drive⟩
  have hsign : ∀ q, pageQuery page = some q → '#' ∉ q := fun q hq hmem =>
    (mem_pageQuery hq hmem).2 rfl
  exact ⟨hlisting.segmentsIn_text h.web, hlisting.queryIn_text h.web h.fragment_eq hsign,
    hlisting.question_not_mem_iff h.web h.fragment_eq hsign⟩

end Root

/-- **A drive is addressed by its name unless no segment of a path can stand for that.**  Names that
can be told apart have addresses that can be, whatever is asked for about pages. -/
theorem firstPage_addresses_iff {baseUrl : String} {u : Url} (h : Root baseUrl u) (drive : String)
    (page : PageConfig) :
    ∃ text : String, firstPage baseUrl drive page = .ok text ∧
      segmentsIn text.toList = landing (segmentsIn u.text) drive ∧
      ((∃ s, segmentsIn text.toList = trunk (segmentsIn u.text) ++
            ["drives".toList, s, "root".toList, "delta".toList] ∧
          percentDecode s = Utf8.encode drive.toList) ↔ Addressable drive) ∧
      (Addressable drive → ∀ other page', Addressable other →
        firstPage baseUrl other page' = .ok text → other = drive) := by
  obtain ⟨authority, p, hu⟩ := h.laidOut
  have hp : segmentsIn u.text = p := hu.segmentsIn_text h.web
  have hsegments (drive : String) (page : PageConfig) :
      segmentsIn (listingUrl u p drive page).text = landing p drive :=
    (h.parts_eq hu drive page).1
  refine ⟨_, h.firstPage_eq hu.path_eq drive page, ?_⟩
  rw [String.toList_ofList, hsegments, hp]
  refine ⟨rfl, landing_eq_iff p drive, fun hdrive other page' hother hsame => ?_⟩
  rw [h.firstPage_eq hu.path_eq] at hsame
  have htext := String.ofList_injective (Except.ok.inj hsame)
  have hlanding : landing p other = landing p drive := by
    rw [← hsegments other page', htext, hsegments]
  rw [hother.landing_eq, hdrive.landing_eq] at hlanding
  have hencoded : percentEncode inSpecialSegment other.toList =
      percentEncode inSpecialSegment drive.toList := by
    simpa using List.append_cancel_left hlanding
  exact String.toList_injective (percentEncode_injective (by decide) hencoded)

/-- A base URL on this machine. -/
def loopback : Url where
  scheme := "https".toList
  authority := some "[::1]".toList
  path := some ["v1.0".toList]
  query := none
  fragment := none

theorem root_loopback : Root "https://[::1]/v1.0/" loopback :=
  ⟨by decide +kernel, .inr rfl, rfl, rfl⟩

/-- A name with a slash and a percent sign, which has an address of its own. -/
theorem firstPage_addresses_iff_reserved :
    Root "https://[::1]/v1.0/" loopback ∧ Addressable "a/ü%2F" ∧
      ∃ text : String, firstPage "https://[::1]/v1.0/" "a/ü%2F" {} = .ok text ∧
        segmentsIn text.toList =
          ["v1.0".toList, "drives".toList, "a%2F%C3%BC%252F".toList, "root".toList,
            "delta".toList] ∧
        ∀ other page, Addressable other →
          firstPage "https://[::1]/v1.0/" other page = .ok text → other = "a/ü%2F" := by
  have hdrive : Addressable "a/ü%2F" :=
    ⟨List.all_iff_forall_prop.1 (by decide), by decide, by decide⟩
  obtain ⟨text, htext, hsegments, -, hown⟩ := firstPage_addresses_iff root_loopback "a/ü%2F" {}
  refine ⟨root_loopback, hdrive, text, htext, hsegments.trans ?_, hown hdrive⟩
  decide +kernel

/-- A tabulator between two dots is passed over, and what is left leads out of the drives. -/
theorem name_leaves_drives :
    ¬ ∀ (baseUrl : String) (u : Url) (drive : String) (page : PageConfig) (text : String),
      Root baseUrl u → drive ≠ "" → firstPage baseUrl drive page = .ok text →
        ∃ s, segmentsIn text.toList = trunk (segmentsIn u.text) ++
            ["drives".toList, s, "root".toList, "delta".toList] ∧
          percentDecode s = Utf8.encode drive.toList := by
  intro h
  have htext :
      firstPage "https://[::1]/v1.0/" ".\t." {} = .ok "https://[::1]/v1.0//root/delta" := by
    decide +kernel
  obtain ⟨s, hs, -⟩ := h _ _ _ _ _ root_loopback (by decide) htext
  have hsegments : segmentsIn "https://[::1]/v1.0//root/delta".toList =
      ["v1.0".toList, [], "root".toList, "delta".toList] := by decide +kernel
  rw [hsegments] at hs
  have hlength := congrArg List.length hs
  have htrunk : (trunk (segmentsIn loopback.text)).length = 1 := by decide +kernel
  rw [List.length_append, htrunk] at hlength
  cases hlength

/-! ## What is asked for about pages -/

/-- A query for pages says what there is to say about them. -/
theorem readForm_pageQuery (page : PageConfig) :
    readForm ((pageQuery page).getD []) = pairs page := by
  have hform : (pageQuery page).getD [] = (pairs page).foldl addPair [] := by
    rw [pageQuery]
    split <;> simp [*]
  rw [hform, readForm_addPairs]
  rfl

theorem pageQuery_eq_none_iff (page : PageConfig) : pageQuery page = none ↔ pairs page = [] := by
  constructor
  · intro h
    rw [← readForm_pageQuery, h]
    rfl
  · intro h
    rw [pageQuery, h]
    rfl

theorem pairs_eq_nil_iff (page : PageConfig) :
    pairs page = [] ↔ page.pageSize = none ∧ page.select = [] := by
  cases hsize : page.pageSize <;> simp [pairs, hsize]

/-- **What is asked for about pages is what a query says.**  Numbers are written out, names are
joined by commas, and where there is nothing to say there is no query. -/
theorem firstPage_form {baseUrl : String} {u : Url} (h : Root baseUrl u) (drive : String)
    (page : PageConfig) :
    ∃ text : String, firstPage baseUrl drive page = .ok text ∧
      (readForm ((queryIn text.toList).getD [])).map
          (fun pair => (String.ofList pair.1, String.ofList pair.2)) =
        (page.pageSize.map fun n => ("$top", toString n)).toList ++
          (if page.select = [] then [] else [("$select", String.intercalate "," page.select)]) ∧
      ('?' ∉ text.toList ↔ page.pageSize = none ∧ page.select = []) := by
  obtain ⟨authority, p, hu⟩ := h.laidOut
  obtain ⟨-, hquery, hmark⟩ := h.parts_eq hu drive page
  refine ⟨_, h.firstPage_eq hu.path_eq drive page, ?_⟩
  rw [String.toList_ofList, hquery, hmark, readForm_pageQuery, pageQuery_eq_none_iff,
    pairs_eq_nil_iff]
  refine ⟨?_, Iff.rfl⟩
  simp only [pairs, List.isEmpty_iff, List.map_append]
  congr 1
  · cases page.pageSize with
    | none => rfl
    | some n => simp only [Option.map_some, Option.toList_some, List.map_singleton,
        String.ofList_toList]
  · split
    · rfl
    · simp only [List.map_singleton, String.ofList_toList]

/-- Two properties, the second of which has characters in its name that mean something in a form. -/
theorem firstPage_form_reserved :
    Root "https://[::1]/v1.0/" loopback ∧
      ∃ text : String, firstPage "https://[::1]/v1.0/" "d"
          { pageSize := some 200, select := ["id", "a b&é=+"] } = .ok text ∧
        (readForm ((queryIn text.toList).getD [])).map
            (fun pair => (String.ofList pair.1, String.ofList pair.2)) =
          [("$top", "200"), ("$select", "id,a b&é=+")] ∧
        '?' ∈ text.toList := by
  obtain ⟨text, htext, hform, hmark⟩ := firstPage_form root_loopback "d"
    { pageSize := some 200, select := ["id", "a b&é=+"] }
  refine ⟨root_loopback, text, htext, hform.trans (by decide), ?_⟩
  by_contra hmem
  exact absurd (hmark.1 hmem).2 (List.cons_ne_nil _ _)

end DriveDelta.DriveAddress
