import SqlKit.Url.Percent

/-!
# Percent encoding reads back

Text in UTF-8 is read as it was written, and so is text whose bytes are escaped.  An encoding leaves
text alone if and only if none of its characters is unsafe, also where one encoding follows another.

    lossy (utf8 s) = s                                                 (lossy_utf8)
    formText (encode u s) = s   if u escapes percent and plus signs    (formText_encode)
    encode u (encode v s) = s ↔ no character of s is unsafe for u or v (encode_encode_eq_self_iff)
    rawPairs of pairs with & between them gives the pairs              (rawPairs_intercalate)
-/

namespace SqlKit

/-! ## UTF-8 -/

namespace Text

theorem toNat_ofNat {n : Nat} (h : n < 256) : (UInt8.ofNat n).toNat = n :=
  UInt8.toNat_ofNat_of_lt' h

theorem lead_ascii {n : Nat} (h : n < 128) : lead (UInt8.ofNat n) = .char (Char.ofNat n) := by
  simp only [lead, toNat_ofNat (show n < 256 by omega), if_pos h]

theorem lead_two {n : Nat} (hlo : 2 ≤ n) (hhi : n < 32) :
    lead (UInt8.ofNat (n + 192)) = .pending ⟨n, 1, 128, 191⟩ := by
  simp only [lead, toNat_ofNat (show n + 192 < 256 by omega),
    if_neg (show ¬ n + 192 < 128 by omega),
    if_pos (show 194 ≤ n + 192 ∧ n + 192 ≤ 223 by omega), Nat.add_sub_cancel]

theorem lead_three {n : Nat} (hhi : n < 16) :
    lead (UInt8.ofNat (n + 224)) =
      .pending ⟨n, 2, if n = 0 then 160 else 128, if n = 13 then 159 else 191⟩ := by
  have hzero : n + 224 = 224 ↔ n = 0 := by omega
  have hthirteen : n + 224 = 237 ↔ n = 13 := by omega
  simp only [lead, toNat_ofNat (show n + 224 < 256 by omega),
    if_neg (show ¬ n + 224 < 128 by omega),
    if_neg (show ¬ (194 ≤ n + 224 ∧ n + 224 ≤ 223) by omega),
    if_pos (show 224 ≤ n + 224 ∧ n + 224 ≤ 239 by omega), Nat.add_sub_cancel, hzero, hthirteen]

theorem lead_four {n : Nat} (hhi : n < 5) :
    lead (UInt8.ofNat (n + 240)) =
      .pending ⟨n, 3, if n = 0 then 144 else 128, if n = 4 then 143 else 191⟩ := by
  have hzero : n + 240 = 240 ↔ n = 0 := by omega
  have hfour : n + 240 = 244 ↔ n = 4 := by omega
  simp only [lead, toNat_ofNat (show n + 240 < 256 by omega),
    if_neg (show ¬ n + 240 < 128 by omega),
    if_neg (show ¬ (194 ≤ n + 240 ∧ n + 240 ≤ 223) by omega),
    if_neg (show ¬ (224 ≤ n + 240 ∧ n + 240 ≤ 239) by omega),
    if_pos (show 240 ≤ n + 240 ∧ n + 240 ≤ 244 by omega), Nat.add_sub_cancel, hzero, hfour]

/-- The last byte of a character. -/
theorem decode_last {value lo hi n : Nat} (h : n < 64) (hlo : lo ≤ n + 128) (hhi : n + 128 ≤ hi)
    (bs : Bytes) :
    decode (some ⟨value, 1, lo, hi⟩) (UInt8.ofNat (n + 128) :: bs) =
      Char.ofNat (64 * value + n) :: decode none bs := by
  simp only [decode, toNat_ofNat (show n + 128 < 256 by omega), if_pos (And.intro hlo hhi),
    Nat.add_sub_cancel, if_true]

/-- A byte of a character with more to come. -/
theorem decode_more {value missing lo hi n : Nat} (h : n < 64) (hlo : lo ≤ n + 128)
    (hhi : n + 128 ≤ hi) (bs : Bytes) :
    decode (some ⟨value, missing + 2, lo, hi⟩) (UInt8.ofNat (n + 128) :: bs) =
      decode (some ⟨64 * value + n, missing + 1, 128, 191⟩) bs := by
  simp only [decode, toNat_ofNat (show n + 128 < 256 by omega), if_pos (And.intro hlo hhi),
    Nat.add_sub_cancel, if_neg (show missing + 2 ≠ 1 by omega)]
  rfl

/-- The bytes of a character are read as the character. -/
theorem decode_utf8EncodeChar (c : Char) (bs : Bytes) :
    decode none (String.utf8EncodeChar c ++ bs) = c :: decode none bs := by
  have hvalid := c.valid
  simp only [UInt32.isValidChar, Nat.isValidChar] at hvalid
  have hchar {n : Nat} (h : n = c.val.toNat) : Char.ofNat n = c := by
    rw [h]
    exact Char.ofNat_toNat c
  fun_cases String.utf8EncodeChar c with
  | case1 v hv =>
    rw [List.cons_append, decode, lead_ascii (by omega), hchar rfl]
    rfl
  | case2 v h1 h2 =>
    rw [Nat.mod_eq_of_lt (show v / 64 < 32 by omega), List.cons_append, decode,
      lead_two (by omega) (by omega)]
    simp only [List.cons_append, List.nil_append]
    rw [decode_last (by omega) (by omega) (by omega), hchar (by omega)]
  | case3 v h1 h2 h3 =>
    rw [Nat.mod_eq_of_lt (show v / 4096 < 16 by omega), List.cons_append, decode,
      lead_three (by omega)]
    simp only [List.cons_append, List.nil_append]
    rw [decode_more (by omega) (by split <;> omega) (by split <;> omega),
      decode_last (by omega) (by omega) (by omega), hchar (by omega)]
  | case4 v h1 h2 h3 =>
    rw [Nat.mod_eq_of_lt (show v / 262144 < 8 by omega), List.cons_append, decode,
      lead_four (by omega)]
    simp only [List.cons_append, List.nil_append]
    rw [decode_more (by omega) (by split <;> omega) (by split <;> omega),
      decode_more (by omega) (by omega) (by omega),
      decode_last (by omega) (by omega) (by omega), hchar (by omega)]

end Text

theorem utf8_ofList (cs : List Char) :
    utf8 (String.ofList cs) = cs.flatMap String.utf8EncodeChar := by
  rw [utf8, String.toUTF8_eq_toByteArray, String.toByteArray_ofList, List.utf8Encode]
  simp

theorem utf8_singleton (c : Char) : utf8 (String.singleton c) = String.utf8EncodeChar c := by
  rw [String.singleton_eq_ofList, utf8_ofList, List.flatMap_cons, List.flatMap_nil, List.append_nil]

namespace Text

theorem decode_flatMap (cs : List Char) : decode none (cs.flatMap String.utf8EncodeChar) = cs := by
  induction cs with
  | nil => rfl
  | cons c cs ih => rw [List.flatMap_cons, decode_utf8EncodeChar, ih]

/-- Text is read as it was written. -/
theorem lossy_utf8 (s : String) : lossy (utf8 s) = s := by
  rw [← String.ofList_toList (s := s), utf8_ofList, lossy, decode_flatMap]

end Text

namespace Url

/-! ## Escapes -/

section

variable {u v : Char → Bool}

theorem encode_cons (u : Char → Bool) (c : Char) (cs : List Char) :
    encode u (c :: cs) =
      (if u c then (String.utf8EncodeChar c).flatMap escapeByte else [c]) ++ encode u cs := by
  rw [encode, List.flatMap_cons, utf8_singleton]
  rfl

theorem unescape_flatMap (bs : Bytes) (cs : List Char) :
    unescape (bs.flatMap escapeByte ++ cs) = bs ++ unescape cs := by
  induction bs with
  | nil => rfl
  | cons b bs ih =>
    rw [List.flatMap_cons, List.append_assoc, unescape_escapeByte, ih]
    rfl

/-- Escaped text stands for the bytes of the text. -/
theorem unescape_encode (hpercent : u '%' = true) (cs : List Char) :
    unescape (encode u cs) = cs.flatMap String.utf8EncodeChar := by
  induction cs with
  | nil => rfl
  | cons c cs ih =>
    rw [encode_cons, List.flatMap_cons]
    split
    · rw [unescape_flatMap, ih]
    · next hc =>
      have hne : c ≠ '%' := by
        rintro rfl
        exact hc hpercent
      rw [List.singleton_append, unescape, utf8_singleton, ih]
      exact fun _ _ _ h _ => hne h

/-- The characters that escapes are made of. -/
def escapeMarks : List Char := "%0123456789ABCDEF".toList

theorem mem_escapeMarks_of_mem_escapeByte {c : Char} {b : UInt8} (h : c ∈ escapeByte b) :
    c ∈ escapeMarks := by
  have hdigit : ∀ n < 16, Digits.hexDigit 'A' n ∈ escapeMarks := by decide
  have hb := b.toNat_lt
  simp only [escapeByte, Digits.hexPair, List.mem_cons, List.not_mem_nil, or_false] at h
  rcases h with rfl | rfl | rfl
  · decide
  · exact hdigit _ (by omega)
  · exact hdigit _ (by omega)

/-- Encoded text is made of safe characters of the text and of escapes. -/
theorem mem_encode {c : Char} {cs : List Char} (h : c ∈ encode u cs) :
    c ∈ cs ∧ u c = false ∨ c ∈ escapeMarks := by
  obtain ⟨d, hd, hc⟩ := List.mem_flatMap.1 h
  split at hc
  · obtain ⟨b, -, hb⟩ := List.mem_flatMap.1 hc
    exact .inr (mem_escapeMarks_of_mem_escapeByte hb)
  · next hsafe =>
    obtain rfl := List.mem_singleton.1 hc
    exact .inl ⟨hd, Bool.eq_false_iff.2 hsafe⟩

/-- A part of a query is read as it was before its encoding. -/
theorem formText_encode (hpercent : u '%' = true) (hplus : u '+' = true) (cs : List Char) :
    formText (encode u cs) = String.ofList cs := by
  have hmap : (encode u cs).map (fun c => if c = '+' then ' ' else c) = encode u cs := by
    refine (List.map_congr_left fun c hc => ?_).trans (List.map_id _)
    refine if_neg ?_
    rintro rfl
    rcases mem_encode hc with ⟨-, hsafe⟩ | hmark
    · rw [hplus] at hsafe
      cases hsafe
    · exact absurd hmark (by decide)
  rw [formText, hmap, unescape_encode hpercent, ← utf8_ofList, Text.lossy_utf8]

/-! ## Text that encoding leaves alone -/

theorem length_flatMap_escapeByte (bs : Bytes) : (bs.flatMap escapeByte).length = 3 * bs.length := by
  induction bs with
  | nil => rfl
  | cons b bs ih =>
    rw [List.flatMap_cons, List.length_append, ih, List.length_cons, Nat.mul_add, Nat.add_comm]
    rfl

theorem length_le_length_encode (u : Char → Bool) (cs : List Char) :
    cs.length ≤ (encode u cs).length := by
  induction cs with
  | nil => exact Nat.le_refl _
  | cons c cs ih =>
    rw [encode_cons, List.length_append, List.length_cons]
    split
    · have hsize := c.utf8Size_pos
      rw [length_flatMap_escapeByte, String.length_utf8EncodeChar]
      omega
    · rw [List.length_singleton]
      omega

/-- An escape is longer than what it stands for. -/
theorem safe_of_length_encode_le {cs : List Char} (h : (encode u cs).length ≤ cs.length) :
    ∀ c ∈ cs, u c = false := by
  induction cs with
  | nil => exact fun c hc => absurd hc List.not_mem_nil
  | cons c cs ih =>
    have hle := length_le_length_encode u cs
    rw [encode_cons, List.length_append, List.length_cons] at h
    split at h
    · have hsize := c.utf8Size_pos
      rw [length_flatMap_escapeByte, String.length_utf8EncodeChar] at h
      omega
    · next hc =>
      rw [List.length_singleton] at h
      exact List.forall_mem_cons.2 ⟨Bool.eq_false_iff.2 hc, ih (by omega)⟩

theorem encode_of_safe {cs : List Char} (h : ∀ c ∈ cs, u c = false) : encode u cs = cs := by
  induction cs with
  | nil => rfl
  | cons c cs ih =>
    obtain ⟨hc, hcs⟩ := List.forall_mem_cons.1 h
    rw [encode_cons, hc, ih hcs]
    rfl

theorem encode_eq_self_iff {cs : List Char} : encode u cs = cs ↔ ∀ c ∈ cs, u c = false :=
  ⟨fun h => safe_of_length_encode_le (Nat.le_of_eq (congrArg List.length h)), encode_of_safe⟩

/-- Two encodings, one after the other, leave alone what both do. -/
theorem encode_encode_eq_self_iff {cs : List Char} :
    encode u (encode v cs) = cs ↔ ∀ c ∈ cs, v c = false ∧ u c = false := by
  constructor
  · intro h
    have hle := length_le_length_encode u (encode v cs)
    rw [h] at hle
    have hv := safe_of_length_encode_le hle
    rw [encode_of_safe hv] at h
    exact fun c hc => ⟨hv c hc, encode_eq_self_iff.1 h c hc⟩
  · intro h
    rw [encode_of_safe fun c hc => (h c hc).1, encode_of_safe fun c hc => (h c hc).2]

end

/-! ## Pairs -/

theorem splitAll_intercalate {sep : Char} {ps : List (List Char)} (hps : ps ≠ [])
    (h : ∀ p ∈ ps, sep ∉ p) : Text.splitAll sep ([sep].intercalate ps) = ps := by
  induction ps with
  | nil => exact absurd rfl hps
  | cons p ps ih =>
    obtain ⟨hp, hrest⟩ := List.forall_mem_cons.1 h
    cases ps with
    | nil => rw [List.intercalate_singleton, Text.splitAll_of_not_mem hp]
    | cons q qs =>
      rw [List.intercalate_cons_cons, List.append_assoc, List.singleton_append,
        Text.splitAll_append hp, ih (List.cons_ne_nil q qs) hrest]

/-- Pairs with `&` between them are cut apart again. -/
theorem rawPairs_intercalate {pairs : List (List Char × List Char)}
    (h : ∀ p ∈ pairs, '&' ∉ p.1 ∧ '=' ∉ p.1 ∧ '&' ∉ p.2) :
    rawPairs (['&'].intercalate (pairs.map fun p => p.1 ++ '=' :: p.2)) = pairs := by
  by_cases hpairs : pairs = []
  · subst hpairs
    rfl
  have hmem : ∀ p ∈ pairs.map fun p => p.1 ++ '=' :: p.2, '&' ∉ p := by
    intro p hp
    obtain ⟨q, hq, rfl⟩ := List.mem_map.1 hp
    obtain ⟨hkey, -, hvalue⟩ := h q hq
    simp [hkey, hvalue]
  have hfilter : ∀ p ∈ pairs.map fun p => p.1 ++ '=' :: p.2, (!p.isEmpty) = true := by
    intro p hp
    obtain ⟨q, -, rfl⟩ := List.mem_map.1 hp
    simp
  rw [rawPairs, splitAll_intercalate (by simp [hpairs]) hmem, List.filter_eq_self.2 hfilter,
    List.map_map]
  refine (List.map_congr_left fun p hp => ?_).trans (List.map_id _)
  rw [Function.comp_apply, Text.splitOnce?_append (h p hp).2.1]
  rfl

end Url

end SqlKit
