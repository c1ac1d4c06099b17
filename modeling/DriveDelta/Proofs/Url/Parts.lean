import DriveDelta.Proofs.Url.Encoding

/-!
# The parts of a URL in its text

A slash, a question mark and a number sign end parts of a URL.  None of them comes out of reading
an authority or a segment, in whatever way a host is written.  So the parts of a URL can be told
from its text alone.

## What is here

* `Url.isDelimiter` and `Url.Free`, texts without such characters;
* `Url.free_readAuthority` and `Url.freePath_readPathStart`: what is read is free of them;
* `Url.IsWeb`, the URLs of the web, and `Url.parse_laidOut`, which says what is known of one that
  was read;
* `Url.segmentsIn` and `Url.queryIn`, the path and the query in a text.
-/

set_option autoImplicit false

namespace DriveDelta.Url

/-- A character that ends a part of a URL. -/
def isDelimiter (c : Char) : Bool := c == '/' || c == '?' || c == '#'

/-- A text that no such character stands in. -/
def Free (cs : List Char) : Prop := ∀ c ∈ cs, isDelimiter c = false

instance (cs : List Char) : Decidable (Free cs) := List.decidableBAll _ cs

theorem free_nil : Free [] := List.forall_mem_nil _

theorem free_append {cs ds : List Char} : Free (cs ++ ds) ↔ Free cs ∧ Free ds :=
  List.forall_mem_append

theorem free_cons {c : Char} {cs : List Char} :
    Free (c :: cs) ↔ isDelimiter c = false ∧ Free cs := List.forall_mem_cons

/-- Digits and letters are free. -/
theorem isDelimiter_of_isAlphanum {c : Char} (h : c.isAlphanum = true) : isDelimiter c = false := by
  refine Bool.eq_false_iff.2 fun hc => ?_
  simp only [isDelimiter, Bool.or_eq_true, beq_iff_eq] at hc
  rcases hc with (rfl | rfl) | rfl <;> exact absurd h (by decide)

theorem free_toString (n : Nat) : Free (toString n).toList := by
  intro c hc
  rw [Nat.toString_eq_repr, Nat.toList_repr] at hc
  have hdigit := Nat.isDigit_of_mem_toDigits (by decide) (by decide) hc
  exact isDelimiter_of_isAlphanum (by simp [Char.isAlphanum, hdigit])

theorem isDelimiter_cases {c : Char} (h : isDelimiter c = true) : c = '/' ∨ c = '?' ∨ c = '#' := by
  simpa [isDelimiter, or_assoc] using h

/-- What is percent-encoded is free if the delimiters in it are among the encoded characters. -/
theorem free_percentEncode {set : Char → Bool} {cs : List Char}
    (h : ∀ c ∈ cs, isDelimiter c = true → set c = true) : Free (percentEncode set cs) := by
  intro c hc
  rcases mem_percentEncode hc with ⟨hmem, hset⟩ | ⟨b, hb⟩
  · exact Bool.eq_false_iff.2 fun hd => Bool.eq_false_iff.1 hset (h c hmem hd)
  · rcases mem_encodeByte hb with rfl | ⟨n, hn, rfl⟩
    · rfl
    · have hall : ∀ n < 16, isDelimiter (hexDigit n) = false := by decide
      exact hall n hn

/-! ## Addresses -/

theorem free_ipv4Text (n : Nat) : Free (ipv4Text n) := by
  have hdot : Free ".".toList := by decide
  simp only [ipv4Text, String.toList_append, free_append]
  exact ⟨⟨⟨⟨⟨⟨free_toString _, hdot⟩, free_toString _⟩, hdot⟩, free_toString _⟩, hdot⟩,
    free_toString _⟩

theorem free_hexText (n : Nat) : Free (hexText n) := by
  induction n using Nat.strongRecOn with
  | _ n ih =>
    have hall : ∀ d < 16, isDelimiter d.digitChar = false := by decide
    rw [hexText, Nat.toDigits_eq_if (by decide)]
    split
    · rename_i hn
      exact free_cons.2 ⟨hall n hn, free_nil⟩
    · refine free_append.2 ⟨ih _ (by omega), free_cons.2 ⟨hall _ (by omega), free_nil⟩⟩

theorem free_colonText (gs : List Nat) : Free (colonText gs) := by
  induction gs with
  | nil => exact free_nil
  | cons g gs ih =>
    cases gs with
    | nil => exact free_hexText g
    | cons h gs => exact free_append.2 ⟨free_hexText g, free_cons.2 ⟨rfl, ih⟩⟩

theorem free_ipv6Text (gs : List Nat) : Free (ipv6Text gs) := by
  have hclose : Free [']'] := by decide
  simp only [ipv6Text]
  refine free_append.2 ⟨free_cons.2 ⟨rfl, ?_⟩, hclose⟩
  split
  · exact free_colonText _
  · exact free_append.2 ⟨free_append.2 ⟨free_colonText _, by decide⟩, free_colonText _⟩

/-! ## Domain names -/

theorem Punycode.free_digit {n : Nat} (h : n < 36) : isDelimiter (Punycode.digit n) = false := by
  have hall : ∀ n < 36, isDelimiter (Punycode.digit n) = false := by decide
  exact hall n h

/-- Whatever the number, its digits are less than the base. -/
theorem Punycode.free_number (bias fuel position n : Nat) :
    Free (Punycode.number bias fuel position n) := by
  induction fuel generalizing position n with
  | zero => exact free_nil
  | succ fuel ih =>
    have hthreshold : Punycode.threshold position bias ≤ 26 := Nat.min_le_right _ _
    simp only [Punycode.number]
    split
    · exact free_cons.2 ⟨Punycode.free_digit (by omega), free_nil⟩
    · have := Nat.mod_lt (n - Punycode.threshold position bias)
        (by omega : 0 < 36 - Punycode.threshold position bias)
      exact free_cons.2 ⟨Punycode.free_digit (by omega), ih _ _⟩

theorem Punycode.free_pass {basic m : Nat} {s : Punycode.Encoder} (h : Free s.out) (c : Char) :
    Free (s.pass basic m c).out := by
  rw [Punycode.Encoder.pass]
  split
  · exact h
  · split
    · exact free_append.2 ⟨h, Punycode.free_number _ _ _ _⟩
    · exact h

theorem Punycode.free_place (label : List Char) (basic : Nat) (codes : List Nat) (n : Nat)
    {s : Punycode.Encoder} (h : Free s.out) : Free (Punycode.place label basic codes n s).out := by
  induction codes generalizing n s with
  | nil => exact h
  | cons m codes ih =>
    refine ih _ ?_
    have hfold (cs : List Char) {s : Punycode.Encoder} (h : Free s.out) :
        Free (cs.foldl (Punycode.Encoder.pass basic m) s).out := by
      induction cs generalizing s with
      | nil => exact h
      | cons c cs ih => exact ih (Punycode.free_pass h c)
    exact hfold label h

theorem Punycode.free_encode {label : List Char} (h : Free label) :
    Free (Punycode.encode label) := by
  have hbasic : Free (label.filter (·.toNat < 128)) := fun c hc => h c (List.mem_filter.1 hc).1
  simp only [Punycode.encode]
  refine free_append.2 ⟨free_append.2 ⟨hbasic, ?_⟩, Punycode.free_place _ _ _ _ free_nil⟩
  split
  · exact free_nil
  · decide

/-- A label is kept as it is written, or as a mark and its Punycode. -/
theorem free_kept {cs : List Char} (h : Free cs) {label : Label} (hl : readLabel? cs = some label) :
    Free label.kept := by
  rw [readLabel?] at hl
  split at hl
  · simp only at hl
    split at hl
    · cases hl
    · obtain ⟨shown, -, hshown⟩ := Option.bind_eq_some_iff.1 hl
      split at hshown
      · cases hshown
        exact h
      · cases hshown
  · split at hl
    · cases hl
      exact h
    · cases hl
      exact free_append.2 ⟨by decide, Punycode.free_encode h⟩

theorem free_join {sep : List Char} (hsep : Free sep) {pieces : List (List Char)}
    (h : ∀ piece ∈ pieces, Free piece) : Free (join sep pieces) := by
  induction pieces with
  | nil => exact free_nil
  | cons piece pieces ih =>
    obtain ⟨hpiece, hpieces⟩ := List.forall_mem_cons.1 h
    cases pieces with
    | nil => exact hpiece
    | cons next pieces => exact free_append.2 ⟨free_append.2 ⟨hpiece, hsep⟩, ih hpieces⟩

/-- Names in their canonical way of writing are free, as delimiters are forbidden in them. -/
theorem free_foldName? {cs name : List Char} (h : foldName? cs = some name) : Free name := by
  obtain ⟨-, hallowed⟩ := Option.filter_eq_some_iff.1 h
  intro c hc
  refine Bool.eq_false_iff.2 fun hd => ?_
  have hforbidden : isForbiddenInDomain c = false := by
    simp only [Bool.not_eq_true', List.any_eq_false, Bool.not_eq_true] at hallowed
    exact hallowed c hc
  rcases isDelimiter_cases hd with rfl | rfl | rfl <;> exact absurd hforbidden (by decide)

theorem exists_of_mem_of_mapM {α β : Type} {f : α → Option β} {xs : List α} {ys : List β}
    (h : xs.mapM f = some ys) {y : β} (hy : y ∈ ys) : ∃ x ∈ xs, f x = some y := by
  induction xs generalizing ys with
  | nil =>
    cases h
    exact absurd hy List.not_mem_nil
  | cons x xs ih =>
    rw [List.mapM_cons] at h
    obtain ⟨z, hz, h⟩ := Option.bind_eq_some_iff.1 h
    obtain ⟨zs, hzs, h⟩ := Option.bind_eq_some_iff.1 h
    cases h
    rcases List.mem_cons.1 hy with rfl | hy
    · exact ⟨x, List.mem_cons_self, hz⟩
    · obtain ⟨x', hx', hfx'⟩ := ih hzs hy
      exact ⟨x', List.mem_cons_of_mem _ hx', hfx'⟩

theorem free_domainName? {cs name : List Char} (h : domainName? cs = some name) : Free name := by
  obtain ⟨folded, hfolded, h⟩ := Option.bind_eq_some_iff.1 h
  obtain ⟨labels, hlabels, h⟩ := Option.bind_eq_some_iff.1 h
  simp only at h
  split at h
  · cases h
    refine free_join (by decide) fun kept hkept => ?_
    obtain ⟨label, hlabel, rfl⟩ := List.mem_map.1 hkept
    obtain ⟨piece, hpiece, hread⟩ := exists_of_mem_of_mapM hlabels hlabel
    have hfree : Free piece := fun c hc =>
      free_foldName? hfolded c (mem_of_mem_splitAt hpiece hc)
    exact free_kept hfree hread
  · cases h

/-! ## Authorities -/

theorem free_readBracketed {cs host : List Char} (h : readBracketed cs = .ok host) : Free host := by
  rw [readBracketed] at h
  split at h
  · cases hgroups : parseIpv6 (cs.drop 1).dropLast with
    | error e =>
      rw [hgroups] at h
      cases h
    | ok groups =>
      rw [hgroups] at h
      cases h
      exact free_ipv6Text groups
  · cases h

/-- Hosts are free, however they are written: an encoded delimiter is decoded and refused. -/
theorem free_readHost {cs host : List Char} (h : readHost cs = .ok host) : Free host := by
  rw [readHost] at h
  split at h
  · exact free_readBracketed h
  · cases hdomain : domainText (percentDecode cs) with
    | error e =>
      rw [hdomain] at h
      cases h
    | ok domain =>
      have hfree : Free domain := by
        rw [domainText] at hdomain
        split at hdomain
        · rename_i name hname
          cases hdomain
          obtain ⟨_, -, hname⟩ := Option.bind_eq_some_iff.1 hname
          exact free_domainName? hname
        · cases hdomain
      rw [hdomain] at h
      change (if _ then _ else _) = _ at h
      split at h
      · cases h
      · split at h
        · cases hnumber : parseIpv4 domain with
          | error e =>
            rw [hnumber] at h
            cases h
          | ok n =>
            rw [hnumber] at h
            cases h
            exact free_ipv4Text n
        · cases h
          exact hfree

theorem free_credentialText (cs : List Char) : Free (credentialText cs) := by
  have hencoded (cs : List Char) : Free (percentEncode inUserinfo cs) :=
    free_percentEncode fun c _ hc => by
      rcases isDelimiter_cases hc with rfl | rfl | rfl <;> decide
  have hpassword (password : List Char) (h : Free password) :
      Free (if password.isEmpty then [] else ':' :: password) := by
    split
    · exact free_nil
    · exact free_cons.2 ⟨rfl, h⟩
  have hwhole {user password : List Char} (huser : Free user) (hpassword : Free password) :
      Free (if user.isEmpty && password.isEmpty then [] else user ++ password ++ ['@']) := by
    split
    · exact free_nil
    · exact free_append.2 ⟨free_append.2 ⟨huser, hpassword⟩, by decide⟩
  exact hwhole (hencoded _) (hpassword _ (hencoded _))

theorem free_readService {kind : SchemeKind} {cs service rest : List Char}
    (h : readService kind cs = .ok (service, rest)) : Free service := by
  simp only [readService] at h
  have htext (digits : List Char) (number : Nat) :
      Free (if digits.isEmpty || kind = .special number then []
        else ':' :: (toString number).toList) := by
    split
    · exact free_nil
    · exact free_cons.2 ⟨rfl, free_toString _⟩
  split at h
  · cases h
  · split at h
    · cases h
      exact htext _ _
    · split at h
      · cases h
        exact htext _ _
      · cases h

theorem exists_of_bind_eq_ok {ε α β : Type} {x : Except ε α} {f : α → Except ε β} {b : β}
    (h : x >>= f = .ok b) : ∃ a, x = .ok a ∧ f a = .ok b := by
  cases x with
  | error e => cases h
  | ok a => exact ⟨a, rfl, h⟩

/-- All three parts of an authority are free: credentials, host and service number. -/
theorem free_readAddress {kind : SchemeKind} (hkind : kind.isSpecial = true)
    {credentials address text rest : List Char} (hcredentials : Free credentials)
    (h : readAddress kind credentials address = .ok (text, rest)) : Free text := by
  simp only [readAddress, hkind, if_true] at h
  split at h
  · cases h
  · obtain ⟨host, hhost, h⟩ := exists_of_bind_eq_ok h
    have hfront : Free (credentials ++ host) :=
      free_append.2 ⟨hcredentials, free_readHost hhost⟩
    split at h
    · cases h
    · split at h
      · cases h
      · split at h
        · obtain ⟨⟨service, behind⟩, hservice, h⟩ := exists_of_bind_eq_ok h
          cases h
          exact free_append.2 ⟨hfront, free_readService hservice⟩
        · cases h
          exact free_append.2 ⟨hfront, free_nil⟩

theorem free_readAuthority {kind : SchemeKind} (hkind : kind.isSpecial = true)
    {cs authority rest : List Char} (h : readAuthority kind cs = .ok (authority, rest)) :
    Free authority := by
  have hread {credentials address rest' : List Char} (hcredentials : Free credentials)
      (h : (do
        let r ← readAddress kind credentials address
        pure (r.1, r.2 ++ rest')) = (.ok (authority, rest) : Except ParseError _)) :
      Free authority := by
    obtain ⟨⟨text, behind⟩, hread, h⟩ := exists_of_bind_eq_ok h
    cases h
    exact free_readAddress hkind hcredentials hread
  simp only [readAuthority] at h
  split at h
  · exact hread free_nil h
  · split at h
    · cases h
    · exact hread free_nil h
  · exact hread (free_credentialText _) h

/-! ## Paths -/

theorem splitSlashes_ne_nil (special : Bool) (cs : List Char) : splitSlashes special cs ≠ [] := by
  cases cs with
  | nil => simp [splitSlashes]
  | cons c cs =>
    rw [splitSlashes]
    split
    · simp
    · split <;> simp

/-- A path whose segments are free, of which there is at least one. -/
structure FreePath (p : Path) : Prop where
  segments : ∀ s ∈ p, Free s
  ne_nil : p ≠ []

theorem FreePath.concat {p : Path} (h : ∀ s ∈ p, Free s) {segment : List Char}
    (hs : Free segment) : FreePath (p ++ [segment]) where
  segments := List.forall_mem_append.2 ⟨h, List.forall_mem_singleton.2 hs⟩
  ne_nil := by simp

theorem FreePath.shorten {p : Path} (h : FreePath p) : FreePath (shorten p) := by
  rw [Url.shorten]
  split
  · rename_i last before rest hp
    split
    · exact h
    · rw [List.reverse_cons]
      refine .concat (fun s hs => h.segments s ?_) free_nil
      rw [← List.mem_reverse, hp]
      exact List.mem_cons_of_mem _ (List.mem_cons_of_mem _ (List.mem_reverse.1 hs))
  · exact .concat (List.forall_mem_nil _) free_nil

theorem FreePath.writeSegment {p : Path} (h : FreePath p) {segment : List Char}
    (hs : Free segment) : FreePath (writeSegment p segment) := by
  rw [Url.writeSegment]
  split
  · exact h.shorten
  · split
    · exact h
    · exact .concat (fun s hs => h.segments s (List.dropLast_subset p hs)) hs

theorem FreePath.writeSegments {p : Path} (h : FreePath p) {segments : List (List Char)}
    (hs : ∀ s ∈ segments, Free s) : FreePath (writeSegments Url.writeSegment p segments) := by
  induction segments generalizing p with
  | nil => exact h
  | cons segment segments ih =>
    obtain ⟨hsegment, hsegments⟩ := List.forall_mem_cons.1 hs
    have hwritten := h.writeSegment hsegment
    cases segments with
    | nil => exact hwritten
    | cons next segments =>
      refine ih ?_ hsegments
      split
      · exact hwritten
      · exact .concat hwritten.segments free_nil

theorem slash_not_mem_of_mem_splitSlashes {special : Bool} {cs piece : List Char}
    (h : piece ∈ splitSlashes special cs) : '/' ∉ piece := by
  induction cs generalizing piece with
  | nil =>
    rw [splitSlashes, List.mem_singleton] at h
    exact h ▸ List.not_mem_nil
  | cons c cs ih =>
    obtain ⟨first, others, hfirst⟩ :=
      List.exists_cons_of_ne_nil (splitSlashes_ne_nil special cs)
    rw [splitSlashes, hfirst] at h
    split at h
    · rcases List.mem_cons.1 h with rfl | h
      · exact List.not_mem_nil
      · exact ih (hfirst ▸ h)
    · rename_i hslash
      rcases List.mem_cons.1 h with rfl | h
      · have hc : '/' ≠ c := by
          rintro rfl
          exact hslash rfl
        rw [List.mem_cons, not_or]
        exact ⟨hc, ih (hfirst ▸ List.mem_cons_self)⟩
      · exact ih (hfirst ▸ List.mem_cons_of_mem _ h)

/-- Encoding leaves no delimiters in a path but slashes, and the text is split at those. -/
theorem freePath_readPath (special : Bool) (cs : List Char) : FreePath (readPath special cs) := by
  refine FreePath.writeSegments ⟨List.forall_mem_singleton.2 free_nil, by simp⟩ fun s hs => ?_
  obtain ⟨piece, hpiece, rfl⟩ := List.mem_map.1 hs
  refine free_percentEncode fun c hc hd => ?_
  rcases isDelimiter_cases hd with rfl | rfl | rfl
  · exact absurd hc (slash_not_mem_of_mem_splitSlashes hpiece)
  · decide
  · decide

theorem freePath_readPathStart (cs : List Char) : FreePath (readPathStart true cs) := by
  rw [readPathStart.eq_def]
  split
  · exact ⟨List.forall_mem_singleton.2 free_nil, by simp⟩
  · exact freePath_readPath _ _

/-! ## URLs of the web -/

/-- A URL of the web: its scheme is one of two. -/
def IsWeb (u : Url) : Prop := u.scheme = "http".toList ∨ u.scheme = "https".toList

theorem IsWeb.schemeKind {u : Url} (h : IsWeb u) :
    ∃ usual, schemeKind u.scheme = .special usual := by
  rcases h with h | h <;> rw [h]
  · exact ⟨80, by decide⟩
  · exact ⟨443, by decide⟩

/-- An authority and a path with nothing in them that would end them. -/
structure LaidOut (u : Url) (authority : List Char) (p : Path) : Prop where
  authority_eq : u.authority = some authority
  path_eq : u.path = some p
  authority_free : Free authority
  path_free : FreePath p

theorem scheme_readFileUrl {scheme cs : List Char} {u : Url} (h : readFileUrl scheme cs = .ok u) :
    u.scheme = scheme := by
  have hauthority {cs : List Char} (h : readFileAuthority scheme cs = .ok u) :
      u.scheme = scheme := by
    simp only [readFileAuthority] at h
    split at h
    · cases h
      rfl
    · split at h
      · cases h
        rfl
      · obtain ⟨host, -, h⟩ := exists_of_bind_eq_ok h
        split at h
        · cases h
          rfl
        · split at h
          · cases h
            rfl
          · cases h
            rfl
  rw [readFileUrl] at h
  split at h
  · split at h
    · split at h
      · split at h
        · exact hauthority h
        · cases h
          rfl
      · cases h
        rfl
    · cases h
      rfl
  · cases h
    rfl

theorem scheme_readBody {scheme cs : List Char} {u : Url} (h : readBody scheme cs = .ok u) :
    u.scheme = scheme := by
  have hauthority {kind : SchemeKind} {cs : List Char}
      (h : (do
        let r ← readAuthority kind cs
        let t := splitTail kind.isSpecial r.2
        pure { scheme, authority := some r.1, path := some (readPathStart kind.isSpecial t.1),
               query := t.2.1, fragment := t.2.2 }) = (.ok u : Except ParseError Url)) :
      u.scheme = scheme := by
    obtain ⟨r, -, h⟩ := exists_of_bind_eq_ok h
    cases h
    rfl
  simp only [readBody] at h
  split at h
  · exact scheme_readFileUrl h
  · exact hauthority h
  · split at h
    · exact hauthority h
    · cases h
      rfl
    · cases h
      rfl

/-- What is known of a URL of the web that was read. -/
theorem parse_laidOut {s : String} {u : Url} (h : parse s = .ok u) (hweb : IsWeb u) :
    ∃ authority p, LaidOut u authority p := by
  rw [parse] at h
  split at h
  · cases h
  · rename_i scheme hscheme
    obtain ⟨usual, hkind⟩ := hweb.schemeKind
    rw [scheme_readBody h] at hkind
    simp only [readBody, hkind] at h
    obtain ⟨⟨authority, rest⟩, hauthority, h⟩ := exists_of_bind_eq_ok h
    cases h
    exact ⟨authority, _, rfl, rfl, free_readAuthority rfl hauthority, freePath_readPathStart _⟩

/-! ## The parts in a text -/

/-- The path in the text of a URL with an authority: what stands behind that, up to a query or a
fragment. -/
def pathIn (text : List Char) : List Char :=
  let behind := ((text.dropWhile (· != ':')).drop 3).dropWhile (!isDelimiter ·)
  behind.takeWhile fun c => c != '?' && c != '#'

/-- The segments of the path in a text. -/
def segmentsIn (text : List Char) : Path := (splitAt '/' (pathIn text)).drop 1

/-- The query in a text, if there is one. -/
def queryIn (text : List Char) : Option (List Char) := (cut '?' (cut '#' text).1).2

theorem Free.not_mem {cs : List Char} (h : Free cs) {c : Char} (hc : isDelimiter c = true) :
    c ∉ cs := fun hmem => by
  rw [h c hmem] at hc
  cases hc

theorem splitAt_pathText {p : Path} (h : ∀ s ∈ p, Free s) : splitAt '/' (pathText p) = [] :: p := by
  induction p with
  | nil => rfl
  | cons s p ih =>
    obtain ⟨hs, hp⟩ := List.forall_mem_cons.1 h
    have hsegment : splitAt '/' (s ++ pathText p) = s :: p := by
      rw [splitAt_append (hs.not_mem rfl) (ih hp), List.append_nil]
    rw [pathText, List.flatMap_cons, ← pathText, List.cons_append, splitAt, if_pos rfl, hsegment]

/-- Neither a query nor a fragment begins in a path. -/
theorem mem_pathText {p : Path} (h : ∀ s ∈ p, Free s) {c : Char} (hc : c ∈ pathText p) :
    c ≠ '?' ∧ c ≠ '#' := by
  obtain ⟨s, hs, hc⟩ := List.mem_flatMap.1 hc
  rcases List.mem_cons.1 hc with rfl | hc
  · decide
  · constructor
    · rintro rfl
      exact (h s hs).not_mem rfl hc
    · rintro rfl
      exact (h s hs).not_mem rfl hc

/-- What stands behind the path of a URL. -/
def tailText (u : Url) : List Char :=
  (u.query.map ('?' :: ·)).getD [] ++ (u.fragment.map ('#' :: ·)).getD []

theorem takeWhile_tailText (u : Url) :
    (tailText u).takeWhile (fun c => c != '?' && c != '#') = [] := by
  rw [tailText]
  cases u.query with
  | none => cases u.fragment <;> rfl
  | some query => rfl

namespace LaidOut

variable {u : Url} {authority : List Char} {p : Path}

theorem text_eq (h : LaidOut u authority p) :
    u.text = u.scheme ++ (':' :: '/' :: '/' :: (authority ++ (pathText p ++ tailText u))) := by
  simp [Url.text, guardText, tailText, h.authority_eq, h.path_eq]

/-- The segments of the path are told from the text. -/
theorem segmentsIn_text (h : LaidOut u authority p) (hweb : IsWeb u) : segmentsIn u.text = p := by
  have hscheme : ∀ c ∈ u.scheme, (c != ':') = true := by
    rcases hweb with hweb | hweb <;> rw [hweb, ← List.all_eq_true] <;> decide
  have hauthority : ∀ c ∈ authority, (!isDelimiter c) = true := fun c hc => by
    rw [h.authority_free c hc]
    rfl
  have hpath : ∀ c ∈ pathText p, (c != '?' && c != '#') = true := fun c hc => by
    simpa using mem_pathText h.path_free.segments hc
  have hslash :
      (pathText p ++ tailText u).dropWhile (!isDelimiter ·) = pathText p ++ tailText u := by
    obtain ⟨s, rest, rfl⟩ := List.exists_cons_of_ne_nil h.path_free.ne_nil
    rfl
  have hpathIn : pathIn u.text = pathText p := by
    rw [pathIn, h.text_eq, List.dropWhile_append_of_pos hscheme,
      List.dropWhile_cons_of_neg (by simp)]
    simp only [List.drop_succ_cons, List.drop_zero]
    rw [List.dropWhile_append_of_pos hauthority, hslash, List.takeWhile_append_of_pos hpath,
      takeWhile_tailText, List.append_nil]
  rw [segmentsIn, hpathIn, splitAt_pathText h.path_free.segments, List.drop_one, List.tail_cons]

/-- Nothing before the query begins one. -/
theorem front_free (h : LaidOut u authority p) (hweb : IsWeb u) :
    ∀ c ∈ u.scheme ++ (':' :: '/' :: '/' :: (authority ++ pathText p)), c ≠ '?' ∧ c ≠ '#' := by
  have hfree {cs : List Char} (hcs : Free cs) : ∀ c ∈ cs, c ≠ '?' ∧ c ≠ '#' := fun c hc =>
    ⟨fun heq => hcs.not_mem (c := '?') rfl (heq ▸ hc),
      fun heq => hcs.not_mem (c := '#') rfl (heq ▸ hc)⟩
  have hscheme : Free u.scheme := by
    rcases hweb with hweb | hweb <;> rw [hweb] <;> decide
  simp only [List.forall_mem_append, List.forall_mem_cons]
  exact ⟨hfree hscheme, by decide, by decide, by decide, hfree h.authority_free,
    fun c hc => mem_pathText h.path_free.segments hc⟩

theorem text_eq_front (h : LaidOut u authority p) :
    u.text = u.scheme ++ (':' :: '/' :: '/' :: (authority ++ pathText p)) ++ tailText u := by
  rw [h.text_eq]
  simp

theorem sign_not_mem (h : LaidOut u authority p) (hweb : IsWeb u) (hf : u.fragment = none)
    (hq : ∀ q, u.query = some q → '#' ∉ q) : '#' ∉ u.text := by
  have hfront : '#' ∉ u.scheme ++ (':' :: '/' :: '/' :: (authority ++ pathText p)) :=
    fun hmem => (h.front_free hweb _ hmem).2 rfl
  rw [h.text_eq_front, tailText, hf, List.mem_append, not_or]
  refine ⟨hfront, ?_⟩
  cases hquery : u.query with
  | none => simp
  | some q => simpa using hq q hquery

/-- So is the query. -/
theorem queryIn_text (h : LaidOut u authority p) (hweb : IsWeb u) (hf : u.fragment = none)
    (hq : ∀ q, u.query = some q → '#' ∉ q) : queryIn u.text = u.query := by
  have hmark : '?' ∉ u.scheme ++ (':' :: '/' :: '/' :: (authority ++ pathText p)) :=
    fun hmem => (h.front_free hweb _ hmem).1 rfl
  rw [queryIn, cut_of_not_mem (h.sign_not_mem hweb hf hq), h.text_eq_front, tailText, hf]
  cases u.query with
  | none => simpa using congrArg Prod.snd (cut_of_not_mem hmark)
  | some q => simpa using congrArg Prod.snd (cut_append_cons hmark q)

/-- A text with no query has no question mark. -/
theorem question_not_mem_iff (h : LaidOut u authority p) (hweb : IsWeb u) (hf : u.fragment = none)
    (hq : ∀ q, u.query = some q → '#' ∉ q) : '?' ∉ u.text ↔ u.query = none := by
  rw [← h.queryIn_text hweb hf hq, queryIn, cut_of_not_mem (h.sign_not_mem hweb hf hq)]
  exact (cut_snd_eq_none_iff '?' u.text).symm

end LaidOut

end DriveDelta.Url
