import PolarBear.Utils.ImageMetadata

/-!
# `safe_truncate`: the longest prefix that fits

The loop decodes a prefix of the encoded text and drops a byte as long as that
fails. What decodes strictly are the encodings of prefixes of the text
(`fromUTF8_extract_iff`), so the loop stops at the longest of them that fits, after at
most as many rounds as there are bytes. `safeTruncate` counts the bytes down instead;
both are the same (`truncateLoop_eq`).
-/

namespace PolarBear.Utils

variable (incoming : ByteArray → Option String)

/-- `while not decode_ok`, on fuel. Of an empty `b_value`, `b_value[:-1]` is empty. -/
def truncateLoop : Nat → ByteArray → Option String
  | 0, _ => none
  | fuel + 1, bValue =>
    match safeDecode incoming bValue with
    | some uValue => some uValue
    | none => truncateLoop fuel (bValue.extract 0 (bValue.size - 1))

/-- `safe_truncate`, on fuel. -/
def safeTruncateOn (fuel : Nat) (value : String) (length : Nat) : Option String :=
  truncateLoop incoming fuel (value.toUTF8.extract 0 length)

variable {incoming} {value s t : String} {b : ByteArray}

/-! ## Prefixes -/

theorem fromUTF8_eq_some_iff : String.fromUTF8? b = some s ↔ s.toByteArray = b := by
  unfold String.fromUTF8?
  split
  · next hvalid =>
    rw [Option.some_inj]
    exact ⟨fun heq => heq ▸ rfl, fun heq => String.toByteArray_inj.mp heq.symm⟩
  · next hinvalid =>
    refine iff_of_false (fun h => nomatch h) (fun heq => hinvalid (heq ▸ s.isValidUTF8))

theorem prefix_iff_bytes :
    s.toList <+: value.toList ↔ ∃ rest, s.toByteArray ++ rest = value.toByteArray := by
  rw [← String.utf8Encode_toList (b := s), ← String.utf8Encode_toList (b := value)]
  constructor
  · rintro ⟨l, hl⟩
    exact ⟨l.utf8Encode, by rw [← hl, List.utf8Encode_append]⟩
  · rintro ⟨rest, hrest⟩
    exact List.isPrefix_of_utf8Encode_append_eq_utf8Encode rest hrest

/-- **What decodes**: the first bytes of a text, if they are the encoding of a prefix of it. -/
theorem fromUTF8_extract_iff {n : Nat} (hn : n ≤ value.utf8ByteSize) :
    String.fromUTF8? (value.toUTF8.extract 0 n) = some s ↔
      s.toList <+: value.toList ∧ s.utf8ByteSize = n := by
  have hsize : value.toByteArray.size = value.utf8ByteSize := rfl
  rw [fromUTF8_eq_some_iff, prefix_iff_bytes]
  constructor
  · intro heq
    refine ⟨⟨value.toByteArray.extract n value.toByteArray.size, ?_⟩, ?_⟩
    · rw [heq]
      show value.toByteArray.extract 0 n ++ _ = _
      rw [← ByteArray.extract_eq_extract_append_extract n (Nat.zero_le n) (hsize ▸ hn),
        ByteArray.extract_zero_size]
    · show s.toByteArray.size = n
      rw [heq]
      show (value.toByteArray.extract 0 n).size = n
      rw [ByteArray.size_extract]
      omega
  · rintro ⟨⟨rest, hrest⟩, rfl⟩
    show _ = value.toByteArray.extract 0 s.toByteArray.size
    rw [← hrest, ByteArray.extract_append_eq_left rfl]

/-- Of two prefixes the one with fewer bytes is a prefix of the other. -/
theorem prefix_of_bytes_le (hs : s.toList <+: value.toList) (ht : t.toList <+: value.toList)
    (hle : t.utf8ByteSize ≤ s.utf8ByteSize) : t.toList <+: s.toList := by
  rcases List.prefix_or_prefix_of_prefix ht hs with h | h
  · exact h
  · -- the shorter has as many bytes, so they are the same
    obtain ⟨rest, hrest⟩ := prefix_iff_bytes.mp h
    have hsizes := congrArg ByteArray.size hrest
    rw [ByteArray.size_append] at hsizes
    have hbytes : s.toByteArray.size = s.utf8ByteSize := rfl
    have hbytes' : t.toByteArray.size = t.utf8ByteSize := rfl
    have hempty : rest = ByteArray.empty := ByteArray.size_eq_zero_iff.mp (by omega)
    rw [hempty, ByteArray.append_empty] at hrest
    have heq : s = t := String.toByteArray_inj.mp hrest
    exact heq ▸ List.prefix_refl _

/-! ## The loop -/

/-- The codec decodes strictly: what it decodes is the UTF-8 text. -/
def Strict (incoming : ByteArray → Option String) : Prop :=
  ∀ b s, incoming b = some s → String.fromUTF8? b = some s

theorem safeDecode_strict (hstrict : Strict incoming) (b : ByteArray) :
    safeDecode incoming b = String.fromUTF8? b := by
  unfold safeDecode
  cases h : incoming b with
  | some s => exact (hstrict b s h).symm
  | none => rfl

theorem extract_dropLast {n : Nat} (hn : n + 1 ≤ b.size) :
    (b.extract 0 (n + 1)).extract 0 ((b.extract 0 (n + 1)).size - 1) = b.extract 0 n := by
  rw [ByteArray.size_extract, ByteArray.extract_extract]
  congr 1
  omega

theorem extract_min (b : ByteArray) (length : Nat) :
    b.extract 0 length = b.extract 0 (min b.size length) := by
  rcases Nat.le_total b.size length with h | h
  · have hall := ByteArray.extract_zero_max_size (a := b) (i := length)
    rw [Nat.max_eq_left h] at hall
    rw [hall, Nat.min_eq_left h, ByteArray.extract_zero_size]
  · rw [Nat.min_eq_right h]

/-- From the first `n` bytes the loop comes to the longest prefix that decodes, in at most
`n + 1` rounds; so does counting down. -/
theorem truncateLoop_eq (hstrict : Strict incoming) (value : String) :
    ∀ {n : Nat}, n ≤ value.utf8ByteSize → ∃ m s, m ≤ n ∧
      String.fromUTF8? (value.toUTF8.extract 0 m) = some s ∧
      (∀ k, m < k → k ≤ n → String.fromUTF8? (value.toUTF8.extract 0 k) = none) ∧
      decodePrefix incoming value.toUTF8 n = s ∧
      ∀ fuel, n < fuel → truncateLoop incoming fuel (value.toUTF8.extract 0 n) = some s
  | 0, hn => by
    have hdecode : String.fromUTF8? (value.toUTF8.extract 0 0) = some "" :=
      (fromUTF8_extract_iff hn).mpr ⟨List.nil_prefix, rfl⟩
    refine ⟨0, "", Nat.le_refl 0, hdecode, fun k hk hk' => by omega, ?_, fun fuel hfuel => ?_⟩
    · rw [decodePrefix, safeDecode_strict hstrict, hdecode, Option.getD_some]
    · obtain ⟨fuel, rfl⟩ : ∃ f, fuel = f + 1 := ⟨fuel - 1, by omega⟩
      rw [truncateLoop, safeDecode_strict hstrict, hdecode]
  | n + 1, hn => by
    cases hdecode : String.fromUTF8? (value.toUTF8.extract 0 (n + 1)) with
    | some s =>
      refine ⟨n + 1, s, Nat.le_refl _, hdecode, fun k hk hk' => by omega, ?_, fun fuel hfuel => ?_⟩
      · rw [decodePrefix, safeDecode_strict hstrict, hdecode]
      · obtain ⟨fuel, rfl⟩ : ∃ f, fuel = f + 1 := ⟨fuel - 1, by omega⟩
        rw [truncateLoop, safeDecode_strict hstrict, hdecode]
    | none =>
      -- the last byte is dropped
      obtain ⟨m, s, hm, hs, hlongest, hcount, hloop⟩ :=
        truncateLoop_eq hstrict value (Nat.le_of_succ_le hn)
      refine ⟨m, s, by omega, hs, fun k hk hk' => ?_, ?_, fun fuel hfuel => ?_⟩
      · by_cases hlast : k = n + 1
        · rw [hlast, hdecode]
        · exact hlongest k hk (by omega)
      · rw [decodePrefix, safeDecode_strict hstrict, hdecode]
        exact hcount
      · obtain ⟨fuel, rfl⟩ : ∃ f, fuel = f + 1 := ⟨fuel - 1, by omega⟩
        rw [truncateLoop, safeDecode_strict hstrict, hdecode]
        dsimp only
        rw [extract_dropLast (b := value.toUTF8) hn]
        exact hloop fuel (by omega)

/-- The longest prefix of a text with at most so many bytes. -/
structure LongestPrefix (value : String) (length : Nat) (s : String) : Prop where
  isPrefix : s.toList <+: value.toList
  fits : s.utf8ByteSize ≤ length
  longest : ∀ t : String, t.toList <+: value.toList → t.utf8ByteSize ≤ length →
    t.toList <+: s.toList

/-- **`safe_truncate` is the longest valid prefix.** For every text and every length the loop
comes to an end, after at most one round more than it has bytes, with the longest prefix of the
text whose encoding has at most that many bytes. -/
theorem safeTruncate_longest (hstrict : Strict incoming) (value : String) (length : Nat) :
    LongestPrefix value length (safeTruncate incoming value length) ∧
    ∀ fuel, length < fuel →
      safeTruncateOn incoming fuel value length = some (safeTruncate incoming value length) := by
  have hsize : value.toUTF8.size = value.utf8ByteSize := rfl
  have hslice := extract_min value.toUTF8 length
  obtain ⟨m, s, hm, hs, hlongest, hcount, hloop⟩ :=
    truncateLoop_eq hstrict value (n := min value.toUTF8.size length) (Nat.min_le_left _ _)
  have hresult : safeTruncate incoming value length = s := hcount
  obtain ⟨hstarts, hbytes⟩ := (fromUTF8_extract_iff (by omega)).mp hs
  rw [hresult]
  refine ⟨⟨hstarts, by omega, fun t ht hfits => ?_⟩, fun fuel hfuel => ?_⟩
  · -- a prefix that fits decodes, so the loop stopped no earlier than there
    refine prefix_of_bytes_le hstarts ht (Nat.le_of_not_lt (fun hlt => ?_))
    have hle : t.utf8ByteSize ≤ value.utf8ByteSize := by
      obtain ⟨rest, hrest⟩ := prefix_iff_bytes.mp ht
      show t.toByteArray.size ≤ value.toByteArray.size
      rw [← hrest, ByteArray.size_append]
      omega
    have hnone := hlongest t.utf8ByteSize (by omega) (by omega)
    rw [(fromUTF8_extract_iff hle).mpr ⟨ht, rfl⟩] at hnone
    cases hnone
  · unfold safeTruncateOn
    rw [hslice]
    exact hloop fuel (by omega)

/-- The second byte of `ñ` does not fit. -/
theorem safeTruncate_cut :
    LongestPrefix "año" 2 (safeTruncate (fun _ => none) "año" 2) ∧
    ∀ fuel, 2 < fuel → safeTruncateOn (fun _ => none) fuel "año" 2 =
      some (safeTruncate (fun _ => none) "año" 2) :=
  safeTruncate_longest (fun _ _ h => by cases h) "año" 2

end PolarBear.Utils
