import DriveDelta.Proofs.Json.Strings
import DriveDelta.Url.Basic
import Mathlib.Data.Bool.AllAny
import Mathlib.Data.List.TakeDrop
import Mathlib.Data.List.TakeWhile

/-!
# What is encoded in a URL is read back

A part of a path and a pair of a form are both written byte by byte, each in its own alphabet.
Neither alphabet has the characters that would end the part, and what is written stands for the
bytes that were to be written, whatever they are.

## What is here

* `Url.percentDecode_percentEncode`, for any set of characters that has the percent sign;
* `Url.splitAt_append_cons` and `Url.cut_append_cons`, which take pieces apart that were joined;
* `Url.readForm`, the pairs of a form, and `Url.readForm_addPairs`: pairs that are added to a form
  stand behind those that it has.
-/

set_option autoImplicit false

namespace DriveDelta

namespace Utf8

/-- What is encoded is no failure anywhere. -/
theorem decodeLossy_encode (cs : List Char) : decodeLossy (encode cs) = cs := by
  induction cs with
  | nil => rw [encode, List.flatMap_nil, decodeLossy]
  | cons c cs ih =>
    obtain ⟨b, bs, hc, hread⟩ := readChar_encodeChar c (encode cs)
    have hencode : encode (c :: cs) = b :: (bs ++ encode cs) := by
      rw [encode, List.flatMap_cons, hc]
      rfl
    rw [hencode, decodeLossy, hread, ih]
    rfl

theorem encode_injective : Function.Injective encode := fun cs ds h => by
  rw [← decodeLossy_encode cs, h, decodeLossy_encode]

end Utf8

namespace Url

/-! ## Percent encoding -/

theorem hexValue?_hexDigit {n : Nat} (h : n < 16) : hexValue? (hexDigit n) = some n := by
  have hall : ∀ n < 16, hexValue? (hexDigit n) = some n := by decide
  exact hall n h

theorem percentDecode_encodeByte (b : UInt8) (rest : List Char) :
    percentDecode (encodeByte b ++ rest) = b :: percentDecode rest := by
  have hb : b.toNat < 256 := b.toNat_lt
  have hjoin : b.toNat / 16 * 16 + b.toNat % 16 = b.toNat := Nat.div_add_mod' _ _
  simp only [encodeByte, List.cons_append, List.nil_append, percentDecode]
  rw [hexValue?_hexDigit (by omega), hexValue?_hexDigit (by omega)]
  simp only [hjoin, UInt8.ofNat_toNat]

theorem percentDecode_encodeBytes (bs : Bytes) (rest : List Char) :
    percentDecode (bs.flatMap encodeByte ++ rest) = bs ++ percentDecode rest := by
  induction bs with
  | nil => rfl
  | cons b bs ih => rw [List.flatMap_cons, List.append_assoc, percentDecode_encodeByte, ih]; rfl

/-- Any character but the percent sign stands for itself. -/
theorem percentDecode_cons {c : Char} (h : c ≠ '%') (rest : List Char) :
    percentDecode (c :: rest) = String.utf8EncodeChar c ++ percentDecode rest := by
  rw [percentDecode.eq_def]
  split
  · rename_i heq
    cases heq
  · rename_i heq
    cases heq
    exact absurd rfl h
  · rename_i heq
    cases heq
    rfl

/-- **Whatever is encoded is read back**, if the percent sign is encoded too. -/
theorem percentDecode_percentEncode {set : Char → Bool} (h : set '%' = true) (cs : List Char) :
    percentDecode (percentEncode set cs) = Utf8.encode cs := by
  induction cs with
  | nil => rfl
  | cons c cs ih =>
    rw [percentEncode, List.flatMap_cons, ← percentEncode, encodeChar, Utf8.encode,
      List.flatMap_cons, ← Utf8.encode, ← ih]
    split
    · exact percentDecode_encodeBytes _ _
    · rename_i hset
      exact percentDecode_cons (by rintro rfl; exact hset h) _

theorem percentEncode_injective {set : Char → Bool} (h : set '%' = true) :
    Function.Injective (percentEncode set) := fun cs ds heq =>
  Utf8.encode_injective (by
    rw [← percentDecode_percentEncode h, heq, percentDecode_percentEncode h])

/-- What is written is a character outside the set, or belongs to the writing of a byte. -/
theorem mem_percentEncode {set : Char → Bool} {cs : List Char} {c : Char}
    (h : c ∈ percentEncode set cs) : c ∈ cs ∧ set c = false ∨ ∃ b, c ∈ encodeByte b := by
  obtain ⟨d, hmem, hd⟩ := List.mem_flatMap.1 h
  rw [encodeChar] at hd
  split at hd
  · obtain ⟨b, -, hb⟩ := List.mem_flatMap.1 hd
    exact .inr ⟨b, hb⟩
  · rename_i hset
    obtain rfl := List.mem_singleton.1 hd
    exact .inl ⟨hmem, Bool.eq_false_iff.2 hset⟩

/-- A byte is written with a percent sign and digits. -/
theorem mem_encodeByte {b : UInt8} {c : Char} (h : c ∈ encodeByte b) :
    c = '%' ∨ ∃ n < 16, c = hexDigit n := by
  have hb : b.toNat < 256 := b.toNat_lt
  simp only [encodeByte, List.mem_cons, List.not_mem_nil, or_false] at h
  rcases h with h | h | h
  · exact .inl h
  · exact .inr ⟨_, by omega, h⟩
  · exact .inr ⟨_, by omega, h⟩

/-! ## Pieces -/

theorem splitAt_ne_nil (sep : Char) (cs : List Char) : splitAt sep cs ≠ [] := by
  cases cs with
  | nil => simp [splitAt]
  | cons c cs =>
    rw [splitAt]
    split
    · simp
    · split <;> simp

/-- Characters before a text that are not separators belong to its first piece. -/
theorem splitAt_append {sep : Char} {cs : List Char} (h : sep ∉ cs) {ds first : List Char}
    {others : List (List Char)} (hds : splitAt sep ds = first :: others) :
    splitAt sep (cs ++ ds) = (cs ++ first) :: others := by
  induction cs with
  | nil => exact hds
  | cons c cs ih =>
    rw [List.mem_cons, not_or] at h
    rw [List.cons_append, splitAt, if_neg (Ne.symm h.1), ih h.2]
    rfl

theorem splitAt_of_not_mem {sep : Char} {cs : List Char} (h : sep ∉ cs) :
    splitAt sep cs = [cs] := by
  have hsplit : splitAt sep (cs ++ []) = [cs ++ []] := splitAt_append h rfl
  rwa [List.append_nil] at hsplit

/-- Texts with a separator between them have the pieces of both. -/
theorem splitAt_append_cons (sep : Char) (cs ds : List Char) :
    splitAt sep (cs ++ sep :: ds) = splitAt sep cs ++ splitAt sep ds := by
  induction cs with
  | nil => simp [splitAt]
  | cons c cs ih =>
    rw [List.cons_append, splitAt, splitAt, ih]
    split
    · rfl
    · obtain ⟨first, others, hfirst⟩ := List.exists_cons_of_ne_nil (splitAt_ne_nil sep cs)
      rw [hfirst]
      rfl

/-- No piece has a character that the whole has not. -/
theorem mem_of_mem_splitAt {sep : Char} {cs piece : List Char} (h : piece ∈ splitAt sep cs)
    {c : Char} (hc : c ∈ piece) : c ∈ cs := by
  induction cs generalizing piece with
  | nil =>
    rw [splitAt, List.mem_singleton] at h
    exact absurd hc (h ▸ List.not_mem_nil)
  | cons d cs ih =>
    obtain ⟨first, others, hfirst⟩ := List.exists_cons_of_ne_nil (splitAt_ne_nil sep cs)
    have hmem {piece : List Char} (hp : piece ∈ first :: others) (hc : c ∈ piece) : c ∈ d :: cs :=
      List.mem_cons_of_mem _ (ih (hfirst ▸ hp) hc)
    rw [splitAt, hfirst] at h
    split at h
    · rcases List.mem_cons.1 h with rfl | h
      · exact absurd hc List.not_mem_nil
      · exact hmem h hc
    · rcases List.mem_cons.1 h with rfl | h
      · rcases List.mem_cons.1 hc with rfl | hc
        · exact List.mem_cons_self
        · exact hmem List.mem_cons_self hc
      · exact hmem (List.mem_cons_of_mem _ h) hc

theorem cut_append_cons {sep : Char} {cs : List Char} (h : sep ∉ cs) (ds : List Char) :
    cut sep (cs ++ sep :: ds) = (cs, some ds) := by
  have hpass : ∀ c ∈ cs, (c != sep) = true := fun c hc => bne_iff_ne.2 fun heq => h (heq ▸ hc)
  simp only [cut, List.span_eq_takeWhile_dropWhile, List.takeWhile_append_of_pos hpass,
    List.dropWhile_append_of_pos hpass]
  simp

theorem cut_of_not_mem {sep : Char} {cs : List Char} (h : sep ∉ cs) : cut sep cs = (cs, none) := by
  have hpass : ∀ c ∈ cs, (c != sep) = true := fun c hc => bne_iff_ne.2 fun heq => h (heq ▸ hc)
  simp only [cut, List.span_eq_takeWhile_dropWhile, List.takeWhile_eq_self_iff.2 hpass,
    List.dropWhile_eq_nil_iff.2 hpass]
  rfl

theorem cut_snd_eq_none_iff (sep : Char) (cs : List Char) : (cut sep cs).2 = none ↔ sep ∉ cs := by
  refine ⟨fun h hmem => ?_, fun h => congrArg Prod.snd (cut_of_not_mem h)⟩
  obtain ⟨before, behind, rfl, hbefore⟩ := List.eq_append_cons_of_mem hmem
  rw [cut_append_cons hbefore] at h
  cases h

/-! ## Forms -/

/-- What a text in a form stands for. -/
def readFormText (cs : List Char) : List Char :=
  Utf8.decodeLossy (percentDecode (cs.map fun c => if c = '+' then ' ' else c))

/-- The pairs of a form.  Nothing between two ampersands is no pair, and a name without an equals
sign has an empty value. -/
def readForm (form : List Char) : List (List Char × List Char) :=
  ((splitAt '&' form).filter (!·.isEmpty)).map fun piece =>
    (readFormText (cut '=' piece).1, readFormText ((cut '=' piece).2.getD []))

/-- One byte in a form. -/
def formByte (b : UInt8) : List Char :=
  if b.toNat = 0x20 then ['+']
  else if isPlainInForm b then [Char.ofNat b.toNat]
  else encodeByte b

theorem formText_eq (cs : List Char) : formText cs = (Utf8.encode cs).flatMap formByte := rfl

/-- A byte in a form has none of the characters that separate pairs, names and values, or that end
the query. -/
theorem mem_formByte {b : UInt8} {c : Char} (h : c ∈ formByte b) :
    c ∉ ['&', '=', '?', '#'] := by
  have hall : ∀ n < 256,
      (formByte (UInt8.ofNat n)).all (· ∉ ['&', '=', '?', '#']) = true := by decide +kernel
  have hb := hall b.toNat b.toNat_lt
  rw [UInt8.ofNat_toNat] at hb
  exact List.all_iff_forall_prop.1 hb c h

theorem mem_formText {cs : List Char} {c : Char} (h : c ∈ formText cs) :
    c ∉ ['&', '=', '?', '#'] := by
  obtain ⟨b, -, hb⟩ := List.mem_flatMap.1 (formText_eq cs ▸ h)
  exact mem_formByte hb

theorem percentDecode_formByte (b : UInt8) (rest : List Char) :
    percentDecode ((formByte b).map (fun c => if c = '+' then ' ' else c) ++ rest) =
      b :: percentDecode rest := by
  rw [formByte]
  split
  · rename_i hblank
    have hb : b = 0x20 := UInt8.toNat_inj.1 hblank
    subst hb
    exact percentDecode_cons (by decide) rest
  · split
    · rename_i hplain
      have hall : ∀ n < 256, isPlainInForm (UInt8.ofNat n) = true →
          Char.ofNat n ≠ '+' ∧ Char.ofNat n ≠ '%' ∧
            String.utf8EncodeChar (Char.ofNat n) = [UInt8.ofNat n] := by decide +kernel
      have hb := hall b.toNat b.toNat_lt
      rw [UInt8.ofNat_toNat] at hb
      obtain ⟨hplus, hpercent, hencode⟩ := hb hplain
      rw [List.map_singleton, if_neg hplus, List.singleton_append, percentDecode_cons hpercent,
        hencode]
      rfl
    · have hdigits : (encodeByte b).map (fun c => if c = '+' then ' ' else c) = encodeByte b := by
        refine (List.map_congr_left fun c hc => if_neg ?_).trans (List.map_id _)
        rintro rfl
        rcases mem_encodeByte hc with h | ⟨n, hn, h⟩
        · exact absurd h (by decide)
        · have hall : ∀ n < 16, '+' ≠ hexDigit n := by decide
          exact hall n hn h
      rw [hdigits, percentDecode_encodeByte]

theorem readFormText_formText (cs : List Char) : readFormText (formText cs) = cs := by
  have hbytes (bs : Bytes) :
      percentDecode ((bs.flatMap formByte).map fun c => if c = '+' then ' ' else c) = bs := by
    induction bs with
    | nil => rfl
    | cons b bs ih =>
      rw [List.flatMap_cons, List.map_append, percentDecode_formByte, ih]
  rw [readFormText, formText_eq, hbytes, Utf8.decodeLossy_encode]

/-- A pair as it stands in a form. -/
theorem readForm_pair (pair : List Char × List Char) :
    readForm (formText pair.1 ++ '=' :: formText pair.2) = [pair] := by
  have hand : '&' ∉ formText pair.1 ++ '=' :: formText pair.2 := by
    rw [List.mem_append, List.mem_cons]
    rintro (h | h | h)
    · exact mem_formText h (by simp)
    · exact absurd h (by decide)
    · exact mem_formText h (by simp)
  have hequals : '=' ∉ formText pair.1 := fun h => mem_formText h (by simp)
  rw [readForm, splitAt_of_not_mem hand, List.filter_eq_self.2 (by simp), List.map_singleton,
    cut_append_cons hequals, Option.getD_some, readFormText_formText, readFormText_formText]

/-- A pair that is added to a form is its last one. -/
theorem readForm_addPair (form : List Char) (pair : List Char × List Char) :
    readForm (addPair form pair) = readForm form ++ [pair] := by
  have hpair := readForm_pair pair
  rw [addPair, List.append_assoc, List.append_assoc, List.singleton_append]
  cases form with
  | nil => exact hpair
  | cons c cs =>
    have hform : (c :: cs).isEmpty = false := rfl
    rw [hform, if_neg Bool.false_ne_true, List.append_assoc, List.singleton_append,
      ← hpair, readForm, splitAt_append_cons, List.filter_append, List.map_append]
    rfl

/-- **Pairs survive their encoding.**  They are read in the order in which they were added, behind
those that were there. -/
theorem readForm_addPairs (form : List Char) (pairs : List (List Char × List Char)) :
    readForm (pairs.foldl addPair form) = readForm form ++ pairs := by
  induction pairs generalizing form with
  | nil => rw [List.foldl_nil, List.append_nil]
  | cons pair pairs ih =>
    rw [List.foldl_cons, ih, readForm_addPair, List.append_assoc, List.singleton_append]

/-- A pair adds no question mark to a form, and no number sign. -/
theorem mem_addPair {form : List Char} (h : ∀ c ∈ form, c ≠ '?' ∧ c ≠ '#')
    (pair : List Char × List Char) : ∀ c ∈ addPair form pair, c ≠ '?' ∧ c ≠ '#' := by
  have htext (cs : List Char) : ∀ c ∈ formText cs, c ≠ '?' ∧ c ≠ '#' := fun c hc => by
    have := mem_formText hc
    simp only [List.mem_cons, not_or] at this
    exact ⟨this.2.2.1, this.2.2.2.1⟩
  simp only [addPair, List.forall_mem_append]
  refine ⟨⟨⟨⟨h, ?_⟩, htext _⟩, List.forall_mem_singleton.2 (by decide)⟩, htext _⟩
  split
  · exact List.forall_mem_nil _
  · exact List.forall_mem_singleton.2 (by decide)

theorem mem_addPairs {form : List Char} (h : ∀ c ∈ form, c ≠ '?' ∧ c ≠ '#')
    (pairs : List (List Char × List Char)) : ∀ c ∈ pairs.foldl addPair form, c ≠ '?' ∧ c ≠ '#' := by
  induction pairs generalizing form with
  | nil => exact h
  | cons pair pairs ih => exact ih (mem_addPair h pair)

end Url

end DriveDelta
