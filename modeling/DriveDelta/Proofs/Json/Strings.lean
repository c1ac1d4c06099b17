import DriveDelta.Proofs.Json.Text

/-!
# Reading strings

A string is read byte by byte into pieces, and the pieces are put together into bytes, which are
read as UTF-8.  Whatever way a string is written, what comes out is the string.

## What is here

* `Utf8.readChar_encodeChar` and `Utf8.decode?_encode`: what is encoded is read back;
* `Json.Pieces`, what the reader makes of characters, and `Json.CharText.pieces`, of one character;
* `Json.StringText.lex_between`, a whole string.
-/

set_option autoImplicit false

namespace DriveDelta

/-! ## Characters and bytes -/

namespace Utf8

theorem toNat_ofNat_of_lt {n : Nat} (h : n < 256) : (UInt8.ofNat n).toNat = n := by
  rw [UInt8.toNat_ofNat']
  exact Nat.mod_eq_of_lt h

/-- A continuation byte. -/
theorem readTail_succ (code more : Nat) {n : Nat} (h : n < 64) (rest : Bytes) :
    readTail code (more + 1) (UInt8.ofNat (n + 128) :: rest) =
      readTail (code * 64 + n) more rest := by
  have hb : (UInt8.ofNat (n + 128)).toNat = n + 128 := toNat_ofNat_of_lt (by omega)
  have hwithin : within 0x80 0xBF (UInt8.ofNat (n + 128)) = true := by
    simp only [within, hb, Bool.and_eq_true, decide_eq_true_eq]
    omega
  have htail : tailBits (UInt8.ofNat (n + 128)) = n := by
    rw [tailBits, hb]
    omega
  rw [readTail, if_pos hwithin, htail]

/-- A first byte and a second one that may follow it. -/
theorem readChar_of_shape {b : UInt8} {low high more n : Nat} (hb : 0x80 ≤ b.toNat)
    (hshape : shape b = some (low, high, more)) (hn : n < 64) (hlow : low ≤ n + 128)
    (hhigh : n + 128 ≤ high) (rest : Bytes) :
    readChar b (UInt8.ofNat (n + 128) :: rest) =
      readTail (leadBits b more * 64 + n) more rest := by
  have hc : (UInt8.ofNat (n + 128)).toNat = n + 128 := toNat_ofNat_of_lt (by omega)
  have hwithin : within low high (UInt8.ofNat (n + 128)) = true := by
    simp only [within, hc, Bool.and_eq_true, decide_eq_true_eq]
    omega
  have htail : tailBits (UInt8.ofNat (n + 128)) = n := by
    rw [tailBits, hc]
    omega
  rw [readChar.eq_def, if_neg (by omega)]
  simp only [hshape, hwithin, if_true, htail]

/-- The shape of a character of three bytes, which must not be overlong or a surrogate. -/
theorem shape_three {n m : Nat} (hn : n < 16) (hm : m < 64) (hlong : n = 0 → 32 ≤ m)
    (hsurrogate : n = 13 → m < 32) :
    ∃ low high, shape (UInt8.ofNat (n + 224)) = some (low, high, 1) ∧ low ≤ m + 128 ∧
      m + 128 ≤ high := by
  have hb : (UInt8.ofNat (n + 224)).toNat = n + 224 := toNat_ofNat_of_lt (by omega)
  simp only [shape, hb]
  by_cases hzero : n = 0
  · exact ⟨0xA0, 0xBF, by simp [hzero], by omega, by omega⟩
  · by_cases hd : n = 13
    · exact ⟨0x80, 0x9F, by simp [hd], by omega, by omega⟩
    · refine ⟨0x80, 0xBF, ?_, by omega, by omega⟩
      rw [if_neg (by omega), if_neg (by omega), if_neg (by omega), if_pos (by omega)]

/-- The shape of a character of four bytes, which must be neither overlong nor beyond the last. -/
theorem shape_four {n m : Nat} (hn : n < 5) (hm : m < 64) (hlong : n = 0 → 16 ≤ m)
    (hlast : n = 4 → m < 16) :
    ∃ low high, shape (UInt8.ofNat (n + 240)) = some (low, high, 2) ∧ low ≤ m + 128 ∧
      m + 128 ≤ high := by
  have hb : (UInt8.ofNat (n + 240)).toNat = n + 240 := toNat_ofNat_of_lt (by omega)
  simp only [shape, hb]
  by_cases hzero : n = 0
  · exact ⟨0x90, 0xBF, by simp [hzero], by omega, by omega⟩
  · by_cases hfour : n = 4
    · exact ⟨0x80, 0x8F, by simp [hfour], by omega, by omega⟩
    · refine ⟨0x80, 0xBF, ?_, by omega, by omega⟩
      rw [if_neg (by omega), if_neg (by omega), if_neg (by omega), if_neg (by omega),
        if_neg (by omega), if_pos (by omega)]

/-- A character is read back from its bytes. -/
theorem readChar_encodeChar (c : Char) (rest : Bytes) :
    ∃ b bs, String.utf8EncodeChar c = b :: bs ∧ readChar b (bs ++ rest) = (some c, rest) := by
  have hvalid : c.toNat < 0xD800 ∨ 0xDFFF < c.toNat ∧ c.toNat < 0x110000 := c.valid
  have hback (n : Nat) (h : n = c.toNat) : (some (Char.ofNat n), rest) = (some c, rest) := by
    rw [h, Char.ofNat_toNat]
  rw [String.utf8EncodeChar]
  simp only [show c.val.toNat = c.toNat from rfl]
  by_cases hone : c.toNat ≤ 127
  · refine ⟨_, _, if_pos hone, ?_⟩
    have hb : (UInt8.ofNat c.toNat).toNat = c.toNat := toNat_ofNat_of_lt (by omega)
    rw [readChar.eq_def, hb, if_pos (by omega)]
    exact hback _ rfl
  · rw [if_neg hone]
    by_cases htwo : c.toNat ≤ 2047
    · refine ⟨_, _, if_pos htwo, ?_⟩
      have hb : (UInt8.ofNat (c.toNat / 64 % 32 + 192)).toNat = c.toNat / 64 % 32 + 192 :=
        toNat_ofNat_of_lt (by omega)
      have hshape : shape (UInt8.ofNat (c.toNat / 64 % 32 + 192)) = some (0x80, 0xBF, 0) := by
        simp only [shape, hb]
        rw [if_pos (by omega)]
      rw [List.singleton_append,
        readChar_of_shape (by omega) hshape (by omega) (by omega) (by omega), readTail, leadBits, hb]
      refine hback _ ?_
      show (c.toNat / 64 % 32 + 192) % 32 * 64 + c.toNat % 64 = c.toNat
      omega
    · rw [if_neg htwo]
      by_cases hthree : c.toNat ≤ 65535
      · refine ⟨_, _, if_pos hthree, ?_⟩
        have hb : (UInt8.ofNat (c.toNat / 4096 % 16 + 224)).toNat = c.toNat / 4096 % 16 + 224 :=
          toNat_ofNat_of_lt (by omega)
        obtain ⟨low, high, hshape, hlow, hhigh⟩ := shape_three (n := c.toNat / 4096 % 16)
          (m := c.toNat / 64 % 64) (by omega) (by omega) (by omega) (by omega)
        rw [List.cons_append, List.singleton_append,
          readChar_of_shape (by omega) hshape (by omega) hlow hhigh, readTail_succ _ _ (by omega),
          readTail, leadBits, hb]
        refine hback _ ?_
        show ((c.toNat / 4096 % 16 + 224) % 16 * 64 + c.toNat / 64 % 64) * 64 + c.toNat % 64 =
          c.toNat
        omega
      · refine ⟨_, _, if_neg hthree, ?_⟩
        have hb : (UInt8.ofNat (c.toNat / 262144 % 8 + 240)).toNat = c.toNat / 262144 % 8 + 240 :=
          toNat_ofNat_of_lt (by omega)
        obtain ⟨low, high, hshape, hlow, hhigh⟩ := shape_four (n := c.toNat / 262144 % 8)
          (m := c.toNat / 4096 % 64) (by omega) (by omega) (by omega) (by omega)
        rw [List.cons_append, List.cons_append, List.singleton_append,
          readChar_of_shape (by omega) hshape (by omega) hlow hhigh, readTail_succ _ _ (by omega),
          readTail_succ _ _ (by omega), readTail, leadBits, hb]
        refine hback _ ?_
        show (((c.toNat / 262144 % 8 + 240) % 8 * 64 + c.toNat / 4096 % 64) * 64 +
          c.toNat / 64 % 64) * 64 + c.toNat % 64 = c.toNat
        omega

/-- Characters are read back from their bytes. -/
theorem decode?_encode (cs : List Char) : decode? (encode cs) = some cs := by
  induction cs with
  | nil => rw [encode, List.flatMap_nil, decode?]
  | cons c cs ih =>
    obtain ⟨b, bs, hc, hread⟩ := readChar_encodeChar c (encode cs)
    have hencode : encode (c :: cs) = b :: (bs ++ encode cs) := by
      rw [encode, List.flatMap_cons, hc]
      rfl
    rw [hencode, decode?]
    split
    · rename_i hnone
      rw [hread] at hnone
      exact absurd hnone (by simp)
    · rename_i c' rest' hsome
      rw [hread] at hsome
      obtain ⟨hc', rfl⟩ := Prod.mk.inj hsome
      obtain rfl := Option.some_inj.1 hc'
      rw [ih]
      rfl

end Utf8

/-! ## Strings -/

namespace Json

/-- A byte that completes no token. -/
theorem lex_of_lexByte {s : LexState} {b : UInt8} (next : LexState)
    (h : lexByte s b = some (next, [])) (rest : Bytes) : lex s (b :: rest) = lex next rest := by
  rw [lex, h]
  exact Option.map_id'

/-- A byte that stands for itself. -/
theorem lex_plain {b : UInt8} (h : 0x20 ≤ b.toNat) (hquote : b.toNat ≠ 34) (hslash : b.toNat ≠ 92)
    (pieces : List Piece) (rest : Bytes) :
    lex (.string pieces) (b :: rest) = lex (.string (.byte b :: pieces)) rest := by
  refine lex_of_lexByte _ ?_ rest
  have hq : isChar b '"' = false := by simpa [isChar] using hquote
  have hs : isChar b '\\' = false := by simpa [isChar] using hslash
  rw [lexByte, hq, hs, if_neg Bool.false_ne_true, if_neg Bool.false_ne_true, if_neg (by omega)]

/-- No byte of a character is special unless the character is. -/
theorem plain_of_mem_encodeChar {c : Char} (h : 0x20 ≤ c.toNat) (hquote : c.toNat ≠ 34)
    (hslash : c.toNat ≠ 92) {b : UInt8} (hb : b ∈ String.utf8EncodeChar c) :
    0x20 ≤ b.toNat ∧ b.toNat ≠ 34 ∧ b.toNat ≠ 92 := by
  have hlead {n : Nat} (hn : n < 256) (hle : 128 ≤ n) (hb : b = UInt8.ofNat n) :
      0x20 ≤ b.toNat ∧ b.toNat ≠ 34 ∧ b.toNat ≠ 92 := by
    have hval : b.toNat = n := hb ▸ Utf8.toNat_ofNat_of_lt hn
    omega
  rw [String.utf8EncodeChar] at hb
  simp only [show c.val.toNat = c.toNat from rfl] at hb
  split at hb
  · rename_i hone
    have hval : b.toNat = c.toNat := List.mem_singleton.1 hb ▸ Utf8.toNat_ofNat_of_lt (by omega)
    omega
  · -- every byte of a longer character is beyond the special ones
    split at hb
    · simp only [List.mem_cons, List.not_mem_nil, or_false] at hb
      rcases hb with hb | hb
      · exact hlead (by omega) (by omega) hb
      · exact hlead (by omega) (by omega) hb
    · split at hb
      · simp only [List.mem_cons, List.not_mem_nil, or_false] at hb
        rcases hb with hb | hb | hb
        · exact hlead (by omega) (by omega) hb
        · exact hlead (by omega) (by omega) hb
        · exact hlead (by omega) (by omega) hb
      · simp only [List.mem_cons, List.not_mem_nil, or_false] at hb
        rcases hb with hb | hb | hb | hb
        · exact hlead (by omega) (by omega) hb
        · exact hlead (by omega) (by omega) hb
        · exact hlead (by omega) (by omega) hb
        · exact hlead (by omega) (by omega) hb

theorem hexDigit?_hexDigit (upper : Bool) {d : Nat} (h : d < 16) :
    hexDigit? (hexDigit upper d) = some d := by
  have hall : ∀ upper : Bool, ∀ d < 16, hexDigit? (hexDigit upper d) = some d := by decide
  exact hall upper d h

/-- An escape of a UTF-16 unit. -/
theorem lex_unitEscape (u : Cases) {n : Nat} (hn : n < 0x10000) (pieces : List Piece)
    (rest : Bytes) :
    lex (.string pieces) (unitEscape u n ++ rest) = lex (.string (.unit n :: pieces)) rest := by
  have hdigit (upper : Bool) {d left m : Nat} (hd : d < 16) (hleft : 1 < left) (rest : Bytes) :
      lex (.code pieces left m) (hexDigit upper d :: rest) =
        lex (.code pieces (left - 1) (m * 16 + d)) rest := by
    refine lex_of_lexByte _ ?_ rest
    rw [lexByte, hexDigit?_hexDigit upper hd, Option.map_some, if_neg (by omega)]
  have hlast (upper : Bool) {d m : Nat} (hd : d < 16) (hm : m * 16 + d = n) (rest : Bytes) :
      lex (.code pieces 1 m) (hexDigit upper d :: rest) =
        lex (.string (.unit n :: pieces)) rest := by
    refine lex_of_lexByte _ ?_ rest
    rw [lexByte, hexDigit?_hexDigit upper hd, Option.map_some, if_pos (Nat.le_refl 1), hm]
  rw [unitEscape, List.cons_append, lex_of_lexByte (.escape pieces) rfl, List.cons_append,
    lex_of_lexByte (.code pieces 4 0) rfl, List.cons_append,
    hdigit _ (by omega) (by omega), List.cons_append, hdigit _ (by omega) (by omega),
    List.cons_append, hdigit _ (by omega) (by omega), List.singleton_append,
    hlast _ (by omega) (by omega)]

theorem lex_shortEscape {letter c : Char} (h : (letter, c) ∈ shortEscapes) (pieces : List Piece)
    (rest : Bytes) :
    lex (.string pieces) (asciiByte '\\' :: asciiByte letter :: rest) =
      lex (.string (.unit c.toNat :: pieces)) rest := by
  have hall : ∀ e ∈ shortEscapes, isChar (asciiByte e.1) 'u' = false ∧
      escapeUnit? (asciiByte e.1) = some e.2.toNat := by decide
  obtain ⟨hu, hunit⟩ := hall _ h
  rw [lex_of_lexByte (.escape pieces) rfl]
  refine lex_of_lexByte _ ?_ rest
  rw [lexByte, hu, if_neg Bool.false_ne_true, hunit]
  rfl

/-- The bytes of a unit that is a character. -/
theorem bytes?_unit (c : Char) (hc : c.toNat < 0x10000) (pieces : List Piece) :
    bytes? (.unit c.toNat :: pieces) = (bytes? pieces).map (String.utf8EncodeChar c ++ ·) := by
  have hvalid : c.toNat < 0xD800 ∨ 0xDFFF < c.toNat ∧ c.toNat < 0x110000 := c.valid
  rw [bytes?.eq_def]
  simp only
  rw [if_neg (by omega), if_neg (by omega), bytesOf, Char.ofNat_toNat]

/-- The bytes of a surrogate pair. -/
theorem bytes?_pair {c : Char} (hc : 0x10000 ≤ c.toNat) (pieces : List Piece) :
    bytes? (.unit (highUnit c) :: .unit (lowUnit c) :: pieces) =
      (bytes? pieces).map (String.utf8EncodeChar c ++ ·) := by
  have hvalid : c.toNat < 0xD800 ∨ 0xDFFF < c.toNat ∧ c.toNat < 0x110000 := c.valid
  have hcode : 0x10000 + (highUnit c - 0xD800) * 0x400 + (lowUnit c - 0xDC00) = c.toNat := by
    rw [highUnit, lowUnit]
    omega
  have hhigh : 0xD800 ≤ highUnit c ∧ highUnit c ≤ 0xDBFF := by
    rw [highUnit]
    omega
  have hlow : 0xDC00 ≤ lowUnit c ∧ lowUnit c ≤ 0xDFFF := by
    rw [lowUnit]
    omega
  rw [bytes?.eq_def]
  simp only
  rw [if_pos hhigh, if_pos hlow, hcode, bytesOf, Char.ofNat_toNat]

/-- What the reader makes of a part of a string: pieces that stand for these characters. -/
structure Pieces (cs : List Char) (bs : Bytes) (ps : List Piece) : Prop where
  lex_eq : ∀ pieces rest,
    lex (.string pieces) (bs ++ rest) = lex (.string (ps.reverse ++ pieces)) rest
  bytes_eq : ∀ pieces, bytes? (ps ++ pieces) = (bytes? pieces).map (Utf8.encode cs ++ ·)

theorem Pieces.nil : Pieces [] [] [] where
  lex_eq _ _ := rfl
  bytes_eq _ := Option.map_id'.symm

theorem Pieces.append {cs cs' : List Char} {bs bs' : Bytes} {ps ps' : List Piece}
    (h : Pieces cs bs ps) (h' : Pieces cs' bs' ps') :
    Pieces (cs ++ cs') (bs ++ bs') (ps ++ ps') where
  lex_eq pieces rest := by
    rw [List.append_assoc, h.lex_eq, h'.lex_eq, List.reverse_append, List.append_assoc]
  bytes_eq pieces := by
    rw [List.append_assoc, h.bytes_eq, h'.bytes_eq, Option.map_map, Utf8.encode, Utf8.encode,
      Utf8.encode, List.flatMap_append]
    simp only [Function.comp_def, List.append_assoc]

/-- Bytes that stand for themselves. -/
theorem Pieces.plain {bs : Bytes} (h : ∀ b ∈ bs, 0x20 ≤ b.toNat ∧ b.toNat ≠ 34 ∧ b.toNat ≠ 92)
    (pieces : List Piece) (rest : Bytes) :
    lex (.string pieces) (bs ++ rest) = lex (.string ((bs.map .byte).reverse ++ pieces)) rest ∧
      bytes? (bs.map .byte ++ pieces) = (bytes? pieces).map (bs ++ ·) := by
  induction bs generalizing pieces with
  | nil => exact ⟨rfl, Option.map_id'.symm⟩
  | cons b bs ih =>
    rw [List.forall_mem_cons] at h
    obtain ⟨⟨hb, hquote, hslash⟩, hbs⟩ := h
    refine ⟨?_, ?_⟩
    · rw [List.cons_append, lex_plain hb hquote hslash, (ih hbs _).1, List.map_cons,
        List.reverse_cons, List.append_assoc]
      rfl
    · rw [List.map_cons, List.cons_append, bytes?, (ih hbs pieces).2, Option.map_map]
      rfl

theorem CharText.pieces {c : Char} {bs : Bytes} (h : CharText c bs) : ∃ ps, Pieces [c] bs ps := by
  have hencode : Utf8.encode [c] = String.utf8EncodeChar c := List.append_nil _
  cases h with
  | plain h hquote hslash =>
    have hne {d : Char} (hd : c ≠ d) : c.toNat ≠ d.toNat := fun heq => hd (Char.toNat_inj.1 heq)
    have hplain := fun b hb => plain_of_mem_encodeChar (b := b) h (hne hquote) (hne hslash) hb
    refine ⟨_, fun pieces rest => (Pieces.plain hplain pieces rest).1, fun pieces => ?_⟩
    rw [hencode]
    exact (Pieces.plain hplain pieces []).2
  | short hmem =>
    have hsmall : ∀ e ∈ shortEscapes, e.2.toNat < 0x10000 := by decide
    refine ⟨[.unit c.toNat], fun pieces rest => lex_shortEscape hmem pieces rest, fun pieces => ?_⟩
    rw [hencode]
    exact bytes?_unit c (hsmall _ hmem) pieces
  | unit h u =>
    refine ⟨[.unit c.toNat], fun pieces rest => lex_unitEscape u h pieces rest, fun pieces => ?_⟩
    rw [hencode]
    exact bytes?_unit c h pieces
  | pair h u u' =>
    have hvalid : c.toNat < 0xD800 ∨ 0xDFFF < c.toNat ∧ c.toNat < 0x110000 := c.valid
    refine ⟨[.unit (highUnit c), .unit (lowUnit c)], fun pieces rest => ?_, fun pieces => ?_⟩
    · rw [List.append_assoc, lex_unitEscape u (by rw [highUnit]; omega),
        lex_unitEscape u' (by rw [lowUnit]; omega)]
      rfl
    · rw [hencode]
      exact bytes?_pair h pieces

theorem CharsText.pieces {cs : List Char} {bs : Bytes} (h : CharsText cs bs) :
    ∃ ps, Pieces cs bs ps := by
  induction h with
  | nil => exact ⟨[], .nil⟩
  | cons hc _ ih =>
    obtain ⟨ps, hps⟩ := hc.pieces
    obtain ⟨qs, hqs⟩ := ih
    exact ⟨ps ++ qs, hps.append hqs⟩

/-- **A string is read as one token, whose pieces stand for it.** -/
theorem StringText.lex_between {s : String} {bs : Bytes} (h : StringText s bs) :
    ∃ ps, textOf? ps = some s ∧ ∀ rest,
      lex .between (bs ++ rest) = (lex .between rest).map (.string ps :: ·) := by
  cases h with
  | quoted h =>
    obtain ⟨ps, hps⟩ := h.pieces
    refine ⟨ps, ?_, fun rest => ?_⟩
    · have hbytes := hps.bytes_eq []
      rw [List.append_nil, bytes?, Option.map_some, List.append_nil] at hbytes
      rw [textOf?, hbytes, Option.bind_some, Utf8.decode?_encode, Option.map_some,
        String.ofList_toList]
    · rw [List.cons_append, lex_of_lexByte (.string []) rfl, List.append_assoc, hps.lex_eq,
        List.append_nil, List.singleton_append, lex]
      have hquote : lexByte (.string ps.reverse) (asciiByte '"') =
          some (.between, [.string ps.reverse.reverse]) := rfl
      rw [hquote, List.reverse_reverse]
      rfl

end Json

end DriveDelta
