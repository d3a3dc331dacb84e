import PolarBear.Py.JsonText

/-!
# `json.loads(json.dumps(j))`

Each part of the text is read back by the part of the decoder that is meant for
it, whatever follows: a unit, a character, a text, a number, and by induction a
value. `loads_dumps_readable` is the result, for values whose dictionaries have
distinct keys and whose floats are read back, and `loads_dumps` for those without
floats. `length_dumps` is the length of the text.
-/

namespace PolarBear.Py

/-! ## Characters -/

theorem hexValue_hexDigit : ∀ d < 16, hexValue (hexDigit d) = some d := by decide

theorem readHex4_hex4 {n : Nat} (h : n < 0x10000) (rest : List Char) :
    readHex4 (hex4 n ++ rest) = some (n, rest) := by
  show readHex4 (hexDigit (n / 4096 % 16) :: hexDigit (n / 256 % 16) :: hexDigit (n / 16 % 16) ::
    hexDigit (n % 16) :: rest) = some (n, rest)
  have hdigit : ∀ m, hexValue (hexDigit (m % 16)) = some (m % 16) := fun m =>
    hexValue_hexDigit _ (Nat.mod_lt _ (by omega))
  have hsum : n / 4096 % 16 * 4096 + n / 256 % 16 * 256 + n / 16 % 16 * 16 + n % 16 = n := by omega
  simp only [readHex4, hdigit, bind, Option.bind, hsum]

/-- A character is not half a surrogate pair. -/
theorem toNat_cases (c : Char) : c.toNat < 0xD800 ∨ (0xDFFF < c.toNat ∧ c.toNat < 0x110000) :=
  c.valid

theorem codePoint_toNat (c : Char) : codePoint c.toNat = c := by
  unfold codePoint
  rw [if_neg (by have := toNat_cases c; omega), Char.ofNat_toNat]

/-- One unit is a character. -/
theorem readUnit_bmp {c : Char} (h : c.toNat < 0x10000) (rest : List Char) :
    readUnit (hex4 c.toNat ++ rest) = some (c, rest) := by
  unfold readUnit
  rw [readHex4_hex4 h]
  have hno : ¬ (0xD800 ≤ c.toNat ∧ c.toNat ≤ 0xDBFF) := by
    have := toNat_cases c
    omega
  simp only [bind, Option.bind, if_neg hno, codePoint_toNat]

/-- Two units are a character. -/
theorem readUnit_pair {hi lo : Nat} (hhi : 0xD800 ≤ hi ∧ hi ≤ 0xDBFF)
    (hlo : 0xDC00 ≤ lo ∧ lo ≤ 0xDFFF) (rest : List Char) :
    readUnit (hex4 hi ++ (escapeUnit lo ++ rest)) =
      some (Char.ofNat (0x10000 + (hi - 0xD800) * 1024 + (lo - 0xDC00)), rest) := by
  have hlow := readHex4_hex4 (n := lo) (by omega) rest
  unfold readUnit escapeUnit
  rw [readHex4_hex4 (by omega)]
  simp only [bind, Option.bind, if_pos hhi, List.cons_append]
  rw [hlow]
  simp only [if_pos hlo]

theorem readUnit_astral {c : Char} (h : 0x10000 ≤ c.toNat) (rest : List Char) :
    readUnit (hex4 (0xD800 + (c.toNat - 0x10000) / 1024) ++
      (escapeUnit (0xDC00 + (c.toNat - 0x10000) % 1024) ++ rest)) = some (c, rest) := by
  have hc := toNat_cases c
  rw [readUnit_pair (by omega) (by omega)]
  have hsum : 0x10000 + (0xD800 + (c.toNat - 0x10000) / 1024 - 0xD800) * 1024 +
      (0xDC00 + (c.toNat - 0x10000) % 1024 - 0xDC00) = c.toNat := by omega
  rw [hsum, Char.ofNat_toNat]

/-- The letters of the two tables stand for each other. -/
theorem backslash_of_escapeLetter {c letter : Char} (h : escapeLetters.lookup c = some letter) :
    letter ≠ 'u' ∧ backslash.lookup letter = some c := by
  have hall : ∀ e ∈ escapeLetters, e.2 ≠ 'u' ∧ backslash.lookup e.2 = some e.1 := by decide
  exact hall (c, letter) (Dict.mem_of_lookup h)

/-- A character without a letter is neither a quote nor a backslash. -/
theorem ne_of_no_letter {c : Char} (h : escapeLetters.lookup c = none) : c ≠ '"' ∧ c ≠ '\\' := by
  constructor
  · rintro rfl
    exact absurd h (by decide)
  · rintro rfl
    exact absurd h (by decide)

theorem scanChar_unicode (rest : List Char) : scanChar ('\\' :: 'u' :: rest) = readUnit rest := by
  rw [scanChar, if_pos rfl, if_pos rfl]

/-- **A character is read as it was written.** -/
theorem scanChar_escape (c : Char) (rest : List Char) :
    scanChar (escape c ++ rest) = some (c, rest) := by
  unfold escape
  cases hletter : escapeLetters.lookup c with
  | some letter =>
    obtain ⟨hu, hback⟩ := backslash_of_escapeLetter hletter
    show scanChar ('\\' :: letter :: rest) = _
    rw [scanChar, if_pos rfl, if_neg hu, hback]
    rfl
  | none =>
    obtain ⟨-, hslash⟩ := ne_of_no_letter hletter
    dsimp only
    by_cases hprint : 32 ≤ c.toNat ∧ c.toNat ≤ 126
    · rw [if_pos hprint]
      show scanChar (c :: rest) = _
      rw [scanChar.eq_def]
      dsimp only
      rw [if_neg hslash, if_neg (by omega)]
    · rw [if_neg hprint]
      by_cases hbmp : c.toNat < 0x10000
      · rw [if_pos hbmp]
        show scanChar ('\\' :: 'u' :: (hex4 c.toNat ++ rest)) = _
        rw [scanChar_unicode, readUnit_bmp hbmp]
      · rw [if_neg hbmp, List.append_assoc]
        show scanChar ('\\' :: 'u' :: (hex4 (0xD800 + (c.toNat - 0x10000) / 1024) ++ _)) = _
        rw [scanChar_unicode, readUnit_astral (by omega)]

/-- What a character is written as does not look like the end of a text. -/
theorem escape_eq_cons (c : Char) : ∃ d ds, escape c = d :: ds ∧ d ≠ '"' := by
  unfold escape
  cases hletter : escapeLetters.lookup c with
  | some letter => exact ⟨'\\', [letter], rfl, by decide⟩
  | none =>
    obtain ⟨hquote, -⟩ := ne_of_no_letter hletter
    dsimp only
    split
    · exact ⟨c, [], rfl, hquote⟩
    · split
      · exact ⟨'\\', _, rfl, by decide⟩
      · exact ⟨'\\', _, rfl, by decide⟩

/-! ## Texts -/

/-- A text is read up to its closing quote. -/
theorem scanString_flatMap (rest : List Char) :
    ∀ (s : List Char) (fuel : Nat), s.length < fuel →
      scanString fuel (s.flatMap escape ++ '"' :: rest) = some (s, rest)
  | [], fuel + 1, _ => rfl
  | c :: s, fuel + 1, h => by
    have hlt : s.length < fuel := by
      rw [List.length_cons] at h
      omega
    rw [List.flatMap_cons, List.append_assoc]
    obtain ⟨d, ds, hesc, hd⟩ := escape_eq_cons c
    have hscan := scanChar_escape c (s.flatMap escape ++ '"' :: rest)
    rw [hesc, List.cons_append] at hscan ⊢
    rw [scanString]
    · rw [hscan]
      simp only [bind, Option.bind, scanString_flatMap rest s fuel hlt]
    · intro rest' hcons
      exact hd (List.cons.inj hcons).1

theorem length_flatMap_escape (s : List Char) : s.length ≤ (s.flatMap escape).length := by
  induction s with
  | nil => exact Nat.le_refl _
  | cons c s ih =>
    obtain ⟨d, ds, hesc, -⟩ := escape_eq_cons c
    rw [List.flatMap_cons, List.length_append, hesc, List.length_cons, List.length_cons]
    omega

/-- **A quoted text is read as it was written.** -/
theorem scanString_quoted (s : String) (rest : List Char) :
    scanString ((s.toList.flatMap escape ++ '"' :: rest).length + 1)
      (s.toList.flatMap escape ++ '"' :: rest) = some (s.toList, rest) := by
  apply scanString_flatMap
  have := length_flatMap_escape s.toList
  rw [List.length_append]
  omega

/-! ## Numbers -/

/-- What can follow a value: nothing, or the token after an item or an entry. -/
def Delimited (rest : List Char) : Prop :=
  ∀ c ∈ rest.head?, c = ',' ∨ c = ']' ∨ c = '}'

theorem isDigit_hexDigit :
    ∀ d < 10, isDigit (hexDigit d) = true ∧ (hexDigit d).toNat - 48 = d := by decide

theorem isDigit_of_delimited {rest : List Char} (h : Delimited rest) :
    ∀ c ∈ rest.head?, isDigit c = false := by
  intro c hc
  rcases h c hc with rfl | rfl | rfl <;> decide

/-- The digits are the longest run of digits. -/
theorem span_isDigit {ds rest : List Char} (hds : ∀ c ∈ ds, isDigit c = true)
    (hrest : ∀ c ∈ rest.head?, isDigit c = false) : (ds ++ rest).span isDigit = (ds, rest) := by
  rw [List.span_eq_takeWhile_dropWhile, List.takeWhile_append_of_pos hds,
    List.dropWhile_append_of_pos hds]
  cases rest with
  | nil => simp
  | cons c rest =>
    have hc : isDigit c = false := hrest c rfl
    rw [List.takeWhile_cons_of_neg (by simp [hc]), List.dropWhile_cons_of_neg (by simp [hc]),
      List.append_nil]

theorem isDigit_natText {n : Nat} : ∀ c ∈ natText n, isDigit c = true := by
  intro c hc
  unfold natText at hc
  split at hc
  · rw [List.mem_singleton.mp hc]
    decide
  · obtain ⟨d, hd, rfl⟩ := List.mem_map.mp (List.mem_reverse.mp hc)
    exact (isDigit_hexDigit d (Nat.digits_lt_base (by omega) hd)).1

/-- The digits of a number give it back. -/
theorem decimal_natText (n : Nat) : decimal (natText n) = n := by
  have hfold : ∀ L : List Nat, (∀ d ∈ L, d < 10) →
      decimal (L.map hexDigit).reverse = Nat.ofDigits 10 L := by
    intro L
    unfold decimal
    rw [List.foldl_reverse]
    induction L with
    | nil => intro _; rfl
    | cons d L ih =>
      intro h
      rw [List.map_cons, List.foldr_cons, ih (fun e he => h e (List.mem_cons_of_mem _ he)),
        (isDigit_hexDigit d (h d (List.mem_cons_self ..))).2, Nat.ofDigits_cons]
      omega
  unfold natText
  split
  · next h => rw [h]; rfl
  · rw [hfold _ (fun d hd => Nat.digits_lt_base (by omega) hd), Nat.ofDigits_digits]

/-- A number starts with a digit, and with a zero only if it is one. -/
theorem natText_eq_cons (n : Nat) :
    ∃ d ds, natText n = d :: ds ∧ (d = '0' → n = 0) := by
  unfold natText
  by_cases h : n = 0
  · rw [if_pos h]
    exact ⟨'0', [], rfl, fun _ => h⟩
  · rw [if_neg h]
    have hne : Nat.digits 10 n ≠ [] := Nat.digits_ne_nil_iff_ne_zero.mpr h
    refine ⟨hexDigit ((Nat.digits 10 n).getLast hne),
      ((Nat.digits 10 n).dropLast.map hexDigit).reverse, ?_, fun hzero => ?_⟩
    · conv_lhs => rw [← List.dropLast_append_getLast hne]
      rw [List.map_append, List.reverse_append]
      rfl
    · -- the leading digit is not zero
      have hlast := Nat.getLast_digit_ne_zero 10 h
      have hlt : (Nat.digits 10 n).getLast hne < 10 :=
        Nat.digits_lt_base (by omega) (List.getLast_mem hne)
      have hval := (isDigit_hexDigit _ hlt).2
      rw [hzero] at hval
      exact absurd hval.symm hlast

theorem scanDigits_natText (n : Nat) {rest : List Char} (hrest : Delimited rest) :
    scanDigits (natText n ++ rest) = (natText n, rest) := by
  obtain ⟨d, ds, heq, hzero⟩ := natText_eq_cons n
  by_cases hn : n = 0
  · rw [hn]
    rfl
  · have hspan := span_isDigit (isDigit_natText (n := n)) (isDigit_of_delimited hrest)
    rw [heq, List.cons_append] at hspan ⊢
    rw [scanDigits.eq_2]
    · exact hspan
    · intro rest' hcons
      exact hn (hzero (List.cons.inj hcons).1)

theorem scanFraction_delimited {rest : List Char} (h : Delimited rest) :
    scanFraction rest = ([], rest) := by
  unfold scanFraction
  split
  · next rest' => exact absurd (h '.' rfl) (by decide)
  · rfl

theorem scanExponent_delimited {rest : List Char} (h : Delimited rest) :
    scanExponent rest = ([], rest) := by
  unfold scanExponent
  split
  · rfl
  · next c rest' =>
    rw [if_neg]
    rintro (rfl | rfl)
    · exact absurd (h 'e' rfl) (by decide)
    · exact absurd (h 'E' rfl) (by decide)

variable (floatRepr : String → String)

/-- **A number is read as it was written.** -/
theorem scanNumber_intText (n : Int) {rest : List Char} (hrest : Delimited rest) :
    scanNumber floatRepr (intText n ++ rest) = some (.int n, rest) := by
  have hdigits : ∀ m, natText m ≠ [] := by
    intro m h
    obtain ⟨d, ds, heq, -⟩ := natText_eq_cons m
    rw [heq] at h
    cases h
  cases n with
  | ofNat m =>
    obtain ⟨d, ds, heq, -⟩ := natText_eq_cons m
    have hminus : scanMinus (natText m ++ rest) = (false, natText m ++ rest) := by
      have hd := isDigit_natText d (heq ▸ List.mem_cons_self ..)
      rw [heq]
      unfold scanMinus
      split
      · next rest' hcons =>
        rw [(List.cons.inj hcons).1] at hd
        exact absurd hd (by decide)
      · rfl
    show scanNumber floatRepr (natText m ++ rest) = _
    simp only [scanNumber, hminus, scanDigits_natText m hrest, hdigits m, if_false,
      scanFraction_delimited hrest, scanExponent_delimited hrest, and_self, if_true,
      decimal_natText, Bool.false_eq_true]
    rfl
  | negSucc m =>
    have hminus : scanMinus ('-' :: (natText (m + 1) ++ rest)) = (true, natText (m + 1) ++ rest) :=
      rfl
    show scanNumber floatRepr ('-' :: (natText (m + 1) ++ rest)) = _
    simp only [scanNumber, hminus, scanDigits_natText (m + 1) hrest, hdigits (m + 1), if_false,
      scanFraction_delimited hrest, scanExponent_delimited hrest, and_self, if_true,
      decimal_natText]
    rfl

/-- A number starts with a digit, or with a minus and a digit. -/
theorem intText_eq_cons (n : Int) :
    ∃ c cs, intText n = c :: cs ∧
      (isDigit c = true ∨ (c = '-' ∧ ∃ d ds, cs = d :: ds ∧ isDigit d = true)) := by
  have hnat : ∀ m, ∃ d ds, natText m = d :: ds ∧ isDigit d = true := by
    intro m
    obtain ⟨d, ds, heq, -⟩ := natText_eq_cons m
    exact ⟨d, ds, heq, isDigit_natText d (heq ▸ List.mem_cons_self ..)⟩
  cases n with
  | ofNat m =>
    obtain ⟨d, ds, heq, hd⟩ := hnat m
    exact ⟨d, ds, heq, Or.inl hd⟩
  | negSucc m => exact ⟨'-', natText (m + 1), rfl, Or.inr ⟨rfl, hnat (m + 1)⟩⟩

/-- A word starts with no digit, and with no minus and digit. -/
def wordStart : List Char → Bool
  | a :: b :: _ => !isDigit a && (a != '-' || !isDigit b)
  | _ => false

theorem isPrefixOf_number {w : List Char} (hw : wordStart w = true) {c : Char} {cs : List Char}
    (hc : isDigit c = true ∨ (c = '-' ∧ ∃ d ds, cs = d :: ds ∧ isDigit d = true)) :
    w.isPrefixOf (c :: cs) = false := by
  by_contra hstarts
  rw [Bool.not_eq_false, List.isPrefixOf_iff_prefix] at hstarts
  cases w with
  | nil => cases hw
  | cons a w =>
    cases w with
    | nil => cases hw
    | cons b w =>
      have hab : isDigit a = false ∧ (a ≠ '-' ∨ isDigit b = false) := by
        simpa [wordStart] using hw
      rw [List.cons_prefix_cons] at hstarts
      obtain ⟨rfl, hstarts⟩ := hstarts
      rcases hc with hdigit | ⟨hminus, d, ds, rfl, hd⟩
      · rw [hab.1] at hdigit
        cases hdigit
      · rw [List.cons_prefix_cons] at hstarts
        have hb := hab.2.resolve_left (fun h => h hminus)
        rw [hstarts.1, hd] at hb
        cases hb

/-- What starts like a number is read as one. -/
theorem scanWord_number {c : Char} {cs : List Char}
    (hc : isDigit c = true ∨ (c = '-' ∧ ∃ d ds, cs = d :: ds ∧ isDigit d = true)) :
    scanWord floatRepr (c :: cs) = scanNumber floatRepr (c :: cs) := by
  have hstart : ∀ w ∈ words, wordStart w.1 = true := by decide
  have hnone : words.find? (fun w => w.1.isPrefixOf (c :: cs)) = none := by
    rw [List.find?_eq_none]
    intro w hw
    rw [isPrefixOf_number (hstart w hw) hc]
    decide
  unfold scanWord
  rw [hnone]

theorem scanWord_intText (n : Int) {rest : List Char} (hrest : Delimited rest) :
    scanWord floatRepr (intText n ++ rest) = some (.int n, rest) := by
  rw [← scanNumber_intText floatRepr n hrest]
  obtain ⟨c, cs, heq, hc⟩ := intText_eq_cons n
  rw [heq, List.cons_append]
  refine scanWord_number floatRepr (hc.imp_right (fun hminus => ⟨hminus.1, ?_⟩))
  obtain ⟨-, d, ds, rfl, hd⟩ := hminus
  exact ⟨d, ds ++ rest, rfl, hd⟩

/-! ## Values -/

/-- The first character of a value: not a blank, and no token that ends
something. -/
def opens (c : Char) : Bool :=
  c == '"' || c == '[' || c == '{' || c == 'n' || c == 't' || c == 'f' || c == 'N' || c == 'I' ||
    c == '-' || isDigit c

/-- The text of a float, read back wherever it stands. -/
structure FloatReads (r : String) : Prop where
  opens : ∃ c cs, floatChars r = c :: cs ∧ opens c = true ∧ c ≠ '"' ∧ c ≠ '[' ∧ c ≠ '{'
  word : ∀ rest, Delimited rest →
    scanWord floatRepr (floatChars r ++ rest) = some (.float r, rest)

/-- Every float is read back, and every dictionary has distinct keys. -/
inductive Readable : Json → Prop
  | null : Readable .null
  | bool (b : Bool) : Readable (.bool b)
  | int (n : Int) : Readable (.int n)
  | float {r : String} (h : FloatReads floatRepr r) : Readable (.float r)
  | str (s : String) : Readable (.str s)
  | arr {xs : List Json} (h : ∀ x ∈ xs, Readable x) : Readable (.arr xs)
  | obj {fields : List (String × Json)} (hkeys : (Dict.keys fields).Nodup)
      (h : ∀ kv ∈ fields, Readable kv.2) : Readable (.obj fields)

variable {floatRepr} in
theorem readable_of_plain {j : Json} (hj : j.plain = true) : Readable floatRepr j := by
  induction j using Json.induct with
  | null => exact .null
  | bool b => exact .bool b
  | int n => exact .int n
  | float r => cases hj
  | str s => exact .str s
  | arr xs ih => exact .arr (fun x hx => ih x hx ((plain_arr xs).mp hj x hx))
  | obj fields ih =>
    obtain ⟨hkeys, hplain⟩ := (plain_obj fields).mp hj
    exact .obj hkeys (fun kv hkv => ih kv hkv (hplain kv hkv))

variable {floatRepr}

theorem dumpsChars_eq_cons {j : Json} (hj : Readable floatRepr j) :
    ∃ c cs, dumpsChars j = c :: cs ∧ opens c = true := by
  cases hj with
  | null => exact ⟨'n', _, rfl, by decide⟩
  | bool b => cases b <;> exact ⟨_, _, rfl, by decide⟩
  | int n =>
    obtain ⟨c, cs, heq, hc⟩ := intText_eq_cons n
    refine ⟨c, cs, heq, ?_⟩
    rcases hc with hdigit | ⟨rfl, -⟩
    · simp [opens, hdigit]
    · decide
  | float h =>
    obtain ⟨c, cs, heq, hc, -⟩ := h.opens
    exact ⟨c, cs, heq, hc⟩
  | str s => exact ⟨'"', _, rfl, by decide⟩
  | @arr xs => cases xs <;> exact ⟨'[', _, rfl, by decide⟩
  | @obj fields => cases fields <;> exact ⟨'{', _, rfl, by decide⟩

theorem skipBlanks_opens {c : Char} (h : opens c = true) (cs : List Char) :
    skipBlanks (c :: cs) = c :: cs ∧ expect ']' (c :: cs) = none := by
  have hcs : ∀ d : Char, opens d = false → c ≠ d := by
    intro d hd hcd
    rw [hcd, hd] at h
    cases h
  have hblank : (c == ' ' || c == Char.ofNat 9 || c == Char.ofNat 10 || c == Char.ofNat 13)
      = false := by
    simp only [Bool.or_eq_false_iff, beq_eq_false_iff_ne]
    exact ⟨⟨⟨hcs _ (by decide), hcs _ (by decide)⟩, hcs _ (by decide)⟩, hcs _ (by decide)⟩
  refine ⟨?_, ?_⟩
  · unfold skipBlanks
    rw [List.dropWhile_cons_of_neg (by rw [hblank]; decide)]
  · show (if c = ']' then some cs else none) = none
    rw [if_neg (hcs _ (by decide))]

/-- The value before more text is found without skipping. -/
theorem skipBlanks_dumpsChars {j : Json} (hj : Readable floatRepr j) (cs : List Char) :
    skipBlanks (dumpsChars j ++ cs) = dumpsChars j ++ cs ∧
      expect ']' (dumpsChars j ++ cs) = none := by
  obtain ⟨c, ds, heq, hc⟩ := dumpsChars_eq_cons hj
  rw [heq]
  exact skipBlanks_opens hc _

variable (floatRepr)

/-- The decoder reads the value wherever it stands. -/
def ReadsBack (j : Json) : Prop :=
  ∀ (fuel : Nat) (rest : List Char), (dumpsChars j).length ≤ fuel → Delimited rest →
    scanOnce floatRepr fuel (dumpsChars j ++ rest) = some (j, rest)

theorem delimited_itemsChars (xs : List Json) (rest : List Char) :
    Delimited (itemsChars xs ++ rest) := by
  intro c hc
  cases xs with
  | nil => cases hc; decide
  | cons x xs => cases hc; decide

theorem delimited_fieldsChars (fields : List (String × Json)) (rest : List Char) :
    Delimited (fieldsChars fields ++ rest) := by
  intro c hc
  cases fields with
  | nil => cases hc; decide
  | cons e fields => cases hc; decide

/-- The items of a list, after `acc` was read. -/
theorem scanItems_itemsChars (rest : List Char) :
    ∀ (xs acc : List Json) (x : Json) (fuel : Nat),
      (∀ y ∈ x :: xs, Readable floatRepr y ∧ ReadsBack floatRepr y) →
      (dumpsChars x ++ itemsChars xs).length ≤ fuel →
      scanItems floatRepr fuel acc (dumpsChars x ++ (itemsChars xs ++ rest)) =
        some (.arr (acc ++ x :: xs), rest) := by
  intro xs
  induction xs with
  | nil =>
    intro acc x fuel hall hlen
    obtain ⟨-, hback⟩ := hall x (List.mem_cons_self ..)
    rw [List.length_append] at hlen
    have hone : (itemsChars []).length = 1 := rfl
    obtain ⟨fuel, rfl⟩ : ∃ f, fuel = f + 1 := ⟨fuel - 1, by omega⟩
    rw [scanItems, hback fuel _ (by omega) (delimited_itemsChars [] rest)]
    rfl
  | cons y ys ih =>
    intro acc x fuel hall hlen
    obtain ⟨-, hback⟩ := hall x (List.mem_cons_self ..)
    have hy := hall y (List.mem_cons_of_mem _ (List.mem_cons_self ..))
    have hcons : itemsChars (y :: ys) = ',' :: ' ' :: (dumpsChars y ++ itemsChars ys) := rfl
    rw [List.length_append, hcons, List.length_cons, List.length_cons] at hlen
    obtain ⟨fuel, rfl⟩ : ∃ f, fuel = f + 1 := ⟨fuel - 1, by omega⟩
    have hnext := ih (acc ++ [x]) y fuel (fun z hz => hall z (List.mem_cons_of_mem _ hz))
      (by omega)
    rw [scanItems, hback fuel _ (by omega) (delimited_itemsChars (y :: ys) rest)]
    have hcomma : expect ',' (skipBlanks (itemsChars (y :: ys) ++ rest)) =
        some (' ' :: (dumpsChars y ++ (itemsChars ys ++ rest))) := by
      rw [hcons, List.cons_append, List.cons_append, List.append_assoc]
      rfl
    have hbracket : expect ']' (skipBlanks (itemsChars (y :: ys) ++ rest)) = none := rfl
    have hblank : skipBlanks (' ' :: (dumpsChars y ++ (itemsChars ys ++ rest))) =
        dumpsChars y ++ (itemsChars ys ++ rest) := (skipBlanks_dumpsChars hy.1 _).1
    simp only [bind, Option.bind, hbracket, hcomma, hblank]
    rw [hnext, List.append_assoc]
    rfl

/-- An entry of a dictionary is read up to its value. -/
theorem scanFields_entry {fuel : Nat} {acc : List (String × Json)} {k : String} {x : Json}
    {cs : List Char} (hx : Readable floatRepr x) (hback : ReadsBack floatRepr x)
    (hlen : (dumpsChars x).length ≤ fuel) (hcs : Delimited cs) :
    scanFields floatRepr (fuel + 1) acc (quoted k ++ ':' :: ' ' :: (dumpsChars x ++ cs)) =
      match expect '}' (skipBlanks cs) with
      | some rest => some (.obj (Dict.set k x acc), rest)
      | none => (expect ',' (skipBlanks cs)).bind (fun rest =>
        scanFields floatRepr fuel (Dict.set k x acc) (skipBlanks rest)) := by
  have hquote : expect '"' (quoted k ++ ':' :: ' ' :: (dumpsChars x ++ cs)) =
      some (k.toList.flatMap escape ++ '"' :: ':' :: ' ' :: (dumpsChars x ++ cs)) := by
    unfold quoted
    rw [List.cons_append, List.append_assoc]
    rfl
  have hblank : skipBlanks (' ' :: (dumpsChars x ++ cs)) = dumpsChars x ++ cs :=
    (skipBlanks_dumpsChars hx _).1
  have hcolon : expect ':' (skipBlanks (':' :: ' ' :: (dumpsChars x ++ cs))) =
      some (' ' :: (dumpsChars x ++ cs)) := rfl
  rw [scanFields]
  cases hend : expect '}' (skipBlanks cs) <;>
    simp only [bind, Option.bind, hquote, scanString_quoted, hcolon, hblank,
      hback fuel cs hlen hcs, String.ofList_toList, hend]

/-- The entries of a dictionary, after `acc` was read. -/
theorem scanFields_fieldsChars (rest : List Char) :
    ∀ (fields acc : List (String × Json)) (k : String) (x : Json) (fuel : Nat),
      (∀ kv ∈ (k, x) :: fields, Readable floatRepr kv.2 ∧ ReadsBack floatRepr kv.2) →
      (Dict.keys (acc ++ (k, x) :: fields)).Nodup →
      (quoted k ++ ':' :: ' ' :: (dumpsChars x ++ fieldsChars fields)).length ≤ fuel →
      scanFields floatRepr fuel acc
          (quoted k ++ ':' :: ' ' :: (dumpsChars x ++ (fieldsChars fields ++ rest))) =
        some (.obj (acc ++ (k, x) :: fields), rest) := by
  intro fields
  induction fields with
  | nil =>
    intro acc k x fuel hall hnodup hlen
    have hentry : Readable floatRepr x ∧ ReadsBack floatRepr x :=
      hall (k, x) (List.mem_cons_self ..)
    obtain ⟨hx, hback⟩ := hentry
    have hset : Dict.set k x acc = acc ++ [(k, x)] :=
      Dict.set_of_not_mem x (Dict.notMem_keys_of_nodup hnodup)
    simp only [List.length_append, List.length_cons] at hlen
    obtain ⟨fuel, rfl⟩ : ∃ f, fuel = f + 1 := ⟨fuel - 1, by omega⟩
    rw [scanFields_entry floatRepr hx hback (by omega) (delimited_fieldsChars [] rest), hset]
    rfl
  | cons e fields ih =>
    obtain ⟨k', x'⟩ := e
    intro acc k x fuel hall hnodup hlen
    have hentry : Readable floatRepr x ∧ ReadsBack floatRepr x :=
      hall (k, x) (List.mem_cons_self ..)
    obtain ⟨hx, hback⟩ := hentry
    have hset : Dict.set k x acc = acc ++ [(k, x)] :=
      Dict.set_of_not_mem x (Dict.notMem_keys_of_nodup hnodup)
    have hcons : fieldsChars ((k', x') :: fields) =
        ',' :: ' ' :: (quoted k' ++ ':' :: ' ' :: (dumpsChars x' ++ fieldsChars fields)) := rfl
    rw [hcons] at hlen
    simp only [List.length_append, List.length_cons] at hlen
    obtain ⟨fuel, rfl⟩ : ∃ f, fuel = f + 1 := ⟨fuel - 1, by omega⟩
    have hnext := ih (acc ++ [(k, x)]) k' x' fuel
      (fun kv hkv => hall kv (List.mem_cons_of_mem _ hkv))
      (by rw [List.append_assoc]; exact hnodup)
      (by simp only [List.length_append, List.length_cons]; omega)
    rw [scanFields_entry floatRepr hx hback (by omega)
      (delimited_fieldsChars ((k', x') :: fields) rest), hset]
    have hcomma : expect ',' (skipBlanks (fieldsChars ((k', x') :: fields) ++ rest)) =
        some (' ' :: (quoted k' ++ ':' :: ' ' ::
          (dumpsChars x' ++ (fieldsChars fields ++ rest)))) := by
      rw [hcons]
      simp only [List.cons_append, List.append_assoc]
      rfl
    have hbrace : expect '}' (skipBlanks (fieldsChars ((k', x') :: fields) ++ rest)) = none := rfl
    have hblank : skipBlanks (' ' :: (quoted k' ++ ':' :: ' ' ::
        (dumpsChars x' ++ (fieldsChars fields ++ rest)))) =
        quoted k' ++ ':' :: ' ' :: (dumpsChars x' ++ (fieldsChars fields ++ rest)) := rfl
    simp only [Option.bind, hbrace, hcomma, hblank]
    rw [hnext, List.append_assoc]
    rfl

/-- A number is read as it was written. -/
theorem readsBack_int (n : Int) : ReadsBack floatRepr (.int n) := by
  intro fuel rest hlen hrest
  have hword := scanWord_intText floatRepr n hrest
  have hchars : dumpsChars (.int n) = intText n := rfl
  obtain ⟨c, cs, heq, hc⟩ := intText_eq_cons n
  have hplain : ∀ d : Char, isDigit d = false → d ≠ '-' → c ≠ d := by
    rintro d hd hminus rfl
    rcases hc with hdigit | ⟨hcm, -⟩
    · rw [hd] at hdigit
      cases hdigit
    · exact hminus hcm
  rw [hchars, heq, List.length_cons] at hlen
  obtain ⟨fuel, rfl⟩ : ∃ f, fuel = f + 1 := ⟨fuel - 1, by omega⟩
  rw [heq] at hword
  rw [hchars, heq, List.cons_append, scanOnce, if_neg (hplain '"' (by decide) (by decide)),
    if_neg (hplain '[' (by decide) (by decide)), if_neg (hplain '{' (by decide) (by decide))]
  exact hword

theorem readsBack_float {r : String} (h : FloatReads floatRepr r) :
    ReadsBack floatRepr (.float r) := by
  intro fuel rest hlen hrest
  obtain ⟨c, cs, heq, -, hquote, hbracket, hbrace⟩ := h.opens
  have hword := h.word rest hrest
  have hchars : dumpsChars (.float r) = floatChars r := rfl
  rw [hchars, heq, List.length_cons] at hlen
  obtain ⟨fuel, rfl⟩ : ∃ f, fuel = f + 1 := ⟨fuel - 1, by omega⟩
  rw [heq] at hword
  rw [hchars, heq, List.cons_append, scanOnce, if_neg hquote, if_neg hbracket, if_neg hbrace]
  exact hword

/-- A text is read as it was written. -/
theorem readsBack_str (s : String) : ReadsBack floatRepr (.str s) := by
  intro fuel rest hlen _
  have hquoted : dumpsChars (.str s) ++ rest =
      '"' :: (s.toList.flatMap escape ++ '"' :: rest) := by
    show quoted s ++ rest = _
    unfold quoted
    rw [List.cons_append, List.append_assoc]
    rfl
  have hpos : 1 ≤ (dumpsChars (.str s)).length := by
    show 1 ≤ (quoted s).length
    unfold quoted
    rw [List.length_cons]
    omega
  obtain ⟨fuel, rfl⟩ : ∃ f, fuel = f + 1 := ⟨fuel - 1, by omega⟩
  rw [hquoted, scanOnce, if_pos rfl, scanString_quoted]
  simp only [Option.map, String.ofList_toList]

/-- **A value is read as it was written**, whatever follows it. -/
theorem readsBack {j : Json} (hj : Readable floatRepr j) : ReadsBack floatRepr j := by
  induction hj with
  | null =>
    intro fuel rest hlen _
    have hfour : (dumpsChars .null).length = 4 := rfl
    obtain ⟨fuel, rfl⟩ : ∃ f, fuel = f + 1 := ⟨fuel - 1, by omega⟩
    rfl
  | bool b =>
    intro fuel rest hlen _
    cases b with
    | true =>
      have hfour : (dumpsChars (.bool true)).length = 4 := rfl
      obtain ⟨fuel, rfl⟩ : ∃ f, fuel = f + 1 := ⟨fuel - 1, by omega⟩
      rfl
    | false =>
      have hfive : (dumpsChars (.bool false)).length = 5 := rfl
      obtain ⟨fuel, rfl⟩ : ∃ f, fuel = f + 1 := ⟨fuel - 1, by omega⟩
      rfl
  | int n => exact readsBack_int floatRepr n
  | float h => exact readsBack_float floatRepr h
  | str s => exact readsBack_str floatRepr s
  | @arr xs hplain ih =>
    intro fuel rest hlen _
    cases xs with
    | nil =>
      have htwo : (dumpsChars (.arr [])).length = 2 := rfl
      obtain ⟨fuel, rfl⟩ : ∃ f, fuel = f + 1 := ⟨fuel - 1, by omega⟩
      rfl
    | cons x xs =>
      have hcons : dumpsChars (.arr (x :: xs)) = '[' :: (dumpsChars x ++ itemsChars xs) := rfl
      rw [hcons, List.length_cons] at hlen
      obtain ⟨fuel, rfl⟩ : ∃ f, fuel = f + 1 := ⟨fuel - 1, by omega⟩
      obtain ⟨hblank, hbracket⟩ := skipBlanks_dumpsChars (hplain x (List.mem_cons_self ..))
        (itemsChars xs ++ rest)
      rw [hcons, List.cons_append, List.append_assoc, scanOnce, if_neg (by decide), if_pos rfl,
        hblank, hbracket]
      exact scanItems_itemsChars floatRepr rest xs [] x fuel
        (fun y hy => ⟨hplain y hy, ih y hy⟩) (by omega)
  | @obj fields hnodup hplain ih =>
    intro fuel rest hlen _
    cases fields with
    | nil =>
      have htwo : (dumpsChars (.obj [])).length = 2 := rfl
      obtain ⟨fuel, rfl⟩ : ∃ f, fuel = f + 1 := ⟨fuel - 1, by omega⟩
      rfl
    | cons e fields =>
      obtain ⟨k, x⟩ := e
      have hcons : dumpsChars (.obj ((k, x) :: fields)) =
        '{' :: (quoted k ++ ':' :: ' ' :: (dumpsChars x ++ fieldsChars fields)) := rfl
      rw [hcons, List.length_cons] at hlen
      obtain ⟨fuel, rfl⟩ : ∃ f, fuel = f + 1 := ⟨fuel - 1, by omega⟩
      have hcs : dumpsChars (.obj ((k, x) :: fields)) ++ rest = '{' ::
          (quoted k ++ ':' :: ' ' :: (dumpsChars x ++ (fieldsChars fields ++ rest))) := by
        rw [hcons]
        simp only [List.cons_append, List.append_assoc]
      have hblank : skipBlanks
          (quoted k ++ ':' :: ' ' :: (dumpsChars x ++ (fieldsChars fields ++ rest))) =
          quoted k ++ ':' :: ' ' :: (dumpsChars x ++ (fieldsChars fields ++ rest)) := rfl
      have hbrace : expect '}'
          (quoted k ++ ':' :: ' ' :: (dumpsChars x ++ (fieldsChars fields ++ rest))) = none := rfl
      rw [hcs, scanOnce, if_neg (by decide), if_neg (by decide), if_pos rfl, hblank, hbrace]
      exact scanFields_fieldsChars floatRepr rest fields [] k x fuel
        (fun kv hkv => ⟨hplain kv hkv, ih kv hkv⟩) hnodup (by omega)

/-- **The round trip.** -/
theorem loads_dumps_readable {j : Json} (hj : Readable floatRepr j) :
    loads floatRepr (dumps j) = some j := by
  have hread := readsBack floatRepr hj ((dumpsChars j).length + 1) [] (by omega)
    (fun c hc => by cases hc)
  have hblank := (skipBlanks_dumpsChars hj []).1
  rw [List.append_nil] at hread hblank
  unfold loads dumps
  rw [String.toList_ofList, hblank, hread]
  rfl

theorem loads_dumps {j : Json} (hj : j.plain = true) : loads floatRepr (dumps j) = some j :=
  loads_dumps_readable floatRepr (readable_of_plain hj)

/-! ## Lengths -/

theorem length_escape (c : Char) : (escape c).length = escapedLength c := by
  unfold escape escapedLength
  cases escapeLetters.lookup c with
  | some letter => rfl
  | none =>
    dsimp only
    split
    · rfl
    · split <;> rfl

theorem length_quoted (s : String) : (quoted s).length = quotedLength s := by
  have hsum : (s.toList.flatMap escape).length = (s.toList.map escapedLength).sum := by
    rw [List.length_flatMap]
    exact congrArg List.sum (List.map_congr_left (fun c _ => length_escape c))
  unfold quoted quotedLength
  rw [List.length_cons, List.length_append, hsum, List.length_singleton]
  omega

theorem length_natText (n : Nat) : (natText n).length = natLength n := by
  unfold natText natLength
  split
  · rfl
  · rw [List.length_reverse, List.length_map]

theorem length_intText (n : Int) : (intText n).length = intLength n := by
  cases n with
  | ofNat m => exact length_natText m
  | negSucc m =>
    show (natText (m + 1)).length + 1 = natLength (m + 1) + 1
    rw [length_natText]

theorem length_itemsChars {xs : List Json}
    (h : ∀ x ∈ xs, (dumpsChars x).length = x.size) :
    (itemsChars xs).length = itemsSize xs + 1 := by
  induction xs with
  | nil => rfl
  | cons x xs ih =>
    rw [itemsChars, itemsSize, List.length_cons, List.length_cons, List.length_append,
      h x (List.mem_cons_self ..), ih (fun y hy => h y (List.mem_cons_of_mem _ hy))]
    omega

theorem length_fieldsChars {fields : List (String × Json)}
    (h : ∀ kv ∈ fields, (dumpsChars kv.2).length = kv.2.size) :
    (fieldsChars fields).length = fieldsSize fields + 1 := by
  induction fields with
  | nil => rfl
  | cons e fields ih =>
    obtain ⟨k, x⟩ := e
    have hx : (dumpsChars x).length = x.size := h (k, x) (List.mem_cons_self ..)
    rw [fieldsChars, fieldsSize]
    simp only [List.length_cons, List.length_append]
    rw [length_quoted, hx, ih (fun kv hkv => h kv (List.mem_cons_of_mem _ hkv))]
    omega

/-- **The length of the text.** -/
theorem length_dumpsChars (j : Json) : (dumpsChars j).length = j.size := by
  induction j using Json.induct with
  | null => rfl
  | bool b => cases b <;> rfl
  | int n => exact length_intText n
  | float r => rfl
  | str s => exact length_quoted s
  | arr xs ih =>
    cases xs with
    | nil => rfl
    | cons x xs =>
      have hsize : (Json.arr (x :: xs)).size = x.size + 2 + itemsSize xs := rfl
      rw [hsize, dumpsChars, List.length_cons, List.length_append, ih x (List.mem_cons_self ..),
        length_itemsChars (fun y hy => ih y (List.mem_cons_of_mem _ hy))]
      omega
  | obj fields ih =>
    cases fields with
    | nil => rfl
    | cons e fields =>
      obtain ⟨k, x⟩ := e
      have hx : (dumpsChars x).length = x.size := ih (k, x) (List.mem_cons_self ..)
      have hsize : (Json.obj ((k, x) :: fields)).size =
        quotedLength k + x.size + 4 + fieldsSize fields := rfl
      rw [hsize, dumpsChars]
      simp only [List.length_cons, List.length_append]
      rw [length_quoted, hx, length_fieldsChars (fun kv hkv => ih kv (List.mem_cons_of_mem _ hkv))]
      omega

theorem length_dumps (j : Json) : (dumps j).length = j.size := by
  unfold dumps
  rw [String.length_ofList, length_dumpsChars]

/-! ## The length after a write -/

/-- Overwriting an entry exchanges the lengths of the values. -/
theorem fieldsSize_set_old {k : String} {v old : Json} :
    ∀ {fields : List (String × Json)}, fields.lookup k = some old →
      fieldsSize (Dict.set k v fields) + old.size = fieldsSize fields + v.size
  | [], h => by simp at h
  | (a, x) :: fields, h => by
    unfold Dict.set
    by_cases hak : a = k
    · rw [if_pos hak, fieldsSize, fieldsSize]
      rw [hak, List.lookup_cons_self] at h
      cases h
      rw [hak]
      omega
    · rw [Dict.lookup_cons_ne hak] at h
      have := fieldsSize_set_old (v := v) h
      rw [if_neg hak, fieldsSize, fieldsSize]
      omega

theorem fieldsSize_append (fields fields' : List (String × Json)) :
    fieldsSize (fields ++ fields') = fieldsSize fields + fieldsSize fields' := by
  induction fields with
  | nil => rw [List.nil_append, fieldsSize, Nat.zero_add]
  | cons e fields ih =>
    obtain ⟨k, x⟩ := e
    rw [List.cons_append, fieldsSize, fieldsSize, ih]
    omega

/-- A new entry adds its own length. -/
theorem fieldsSize_set_new {k : String} (v : Json) {fields : List (String × Json)}
    (h : k ∉ Dict.keys fields) :
    fieldsSize (Dict.set k v fields) = fieldsSize fields + (quotedLength k + v.size + 4) := by
  rw [Dict.set_of_not_mem v h, fieldsSize_append]
  rfl

/-- A dictionary with an entry has the length of its entries. -/
theorem size_obj {fields : List (String × Json)} (h : fields ≠ []) :
    (Json.obj fields).size = fieldsSize fields := by
  cases fields with
  | nil => exact absurd rfl h
  | cons e fields => rfl

/-- Every entry takes at least four characters. -/
theorem length_le_fieldsSize (fields : List (String × Json)) :
    4 * fields.length ≤ fieldsSize fields := by
  induction fields with
  | nil => exact Nat.le_refl _
  | cons e fields ih =>
    obtain ⟨k, x⟩ := e
    rw [fieldsSize, List.length_cons]
    omega

/-- Writing a plain value keeps a dictionary plain. -/
theorem plain_set {k : String} {v : Json} {fields : List (String × Json)}
    (h : (Json.obj fields).plain = true) (hv : v.plain = true) :
    (Json.obj (Dict.set k v fields)).plain = true := by
  rw [plain_obj] at h ⊢
  refine ⟨Dict.nodup_keys_set k v h.1, fun kv hkv => ?_⟩
  rcases Dict.mem_set hkv with rfl | hold
  · exact hv
  · exact h.2 kv hold

end PolarBear.Py
