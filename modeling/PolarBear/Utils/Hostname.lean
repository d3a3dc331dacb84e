import Mathlib.Data.List.DropRight

/-!
# `sanitize_hostname`

A host name is cut to 63 characters, cleaned and stripped of `.` and `-` at its ends,
in this order, so that what remains is a valid name (`cleanHostname_valid`) and
cleaning it again changes nothing (`cleanHostname_of_valid`). Where nothing remains,
the default name takes its place, and that is only cut: `yieldsValid_iff`.
-/

namespace PolarBear.Utils

/-! ## The code -/

/-- A unicode text, or a byte string with a character for each byte. -/
inductive Text where
  | unicode (chars : List Char)
  | bytes (chars : List Char)
  deriving DecidableEq, Repr

def Text.chars : Text → List Char
  | .unicode chars => chars
  | .bytes chars => chars

/-- `hostname.encode('latin-1', 'ignore')` of a unicode text. -/
def Text.encoded : Text → List Char
  | .unicode chars => chars.filter (fun c => c.toNat < 256)
  | .bytes chars => chars

/-- `truncate_hostname`. -/
def Text.truncated : Text → Text
  | .unicode chars => .unicode (chars.take 63)
  | .bytes chars => .bytes (chars.take 63)

/-- `\w` in a pattern for byte strings. -/
def isWord (c : Char) : Bool := c.isAlphanum || c == '_'

/-- `re.sub('[ _]', '-', s)`. -/
def dashed (s : List Char) : List Char := s.map (fun c => if c = ' ' ∨ c = '_' then '-' else c)

/-- `re.sub('[^\w.-]+', '', s)`. -/
def kept (s : List Char) : List Char := s.filter (fun c => isWord c || c == '.' || c == '-')

def isEdge (c : Char) : Bool := c == '.' || c == '-'

/-- `s.strip('.-')`. -/
def stripped (s : List Char) : List Char := (s.dropWhile isEdge).rdropWhile isEdge

/-- The encoded name before the default is considered. -/
def cleanHostname (hostname : List Char) : List Char :=
  stripped ((kept (dashed (hostname.take 63))).map Char.toLower)

def sanitizeHostname (hostname : Text) (defaultName : Option Text) : Text :=
  match defaultName with
  | some name =>
    if cleanHostname hostname.encoded = [] then name.truncated
    else .bytes (cleanHostname hostname.encoded)
  | none => .bytes (cleanHostname hostname.encoded)

/-! ## Valid names -/

/-- A lower-case letter, a digit, `.` or `-`. -/
def isNameChar (c : Char) : Bool := c.isLower || c.isDigit || isEdge c

structure ValidName (name : List Char) : Prop where
  length : name.length ≤ 63
  chars : ∀ c ∈ name, isNameChar c
  first : ∀ h : name ≠ [], ¬ isEdge (name.head h)
  last : ∀ h : name ≠ [], ¬ isEdge (name.getLast h)

theorem isUpper_eq (c : Char) : c.isUpper = decide (c.val ≥ 'A'.val ∧ c.val ≤ 'Z'.val) := rfl

theorem isLower_eq (c : Char) : c.isLower = (c.val ≥ 'a'.val && c.val ≤ 'z'.val) := rfl

theorem isAlpha_eq (c : Char) : c.isAlpha = (c.isUpper || c.isLower) := rfl

theorem toLower_of_alphanum {c : Char} (h : c.isAlphanum) :
    c.toLower.isLower || c.toLower.isDigit := by
  unfold Char.toLower
  split
  · next hupper =>
    simp [isLower_eq, UInt32.le_iff_toNat_le, UInt32.toNat_add] at hupper ⊢
    omega
  · next hupper =>
    simp [Char.isAlphanum, isAlpha_eq, isUpper_eq] at h hupper ⊢
    grind

theorem toLower_of_nameChar {c : Char} (h : isNameChar c) : c.toLower = c := by
  unfold Char.toLower
  split
  · next hupper =>
    simp [isNameChar, isEdge, isLower_eq, Char.isDigit, UInt32.le_iff_toNat_le] at h hupper
    rcases h with (hlower | hdigit) | rfl | rfl
    · omega
    · omega
    · exact absurd hupper (by decide)
    · exact absurd hupper (by decide)
  · rfl

theorem not_edge_of_alphanum {c : Char} (h : c.isAlphanum) : isEdge c = false := by
  by_contra hedge
  simp only [Bool.not_eq_false, isEdge, Bool.or_eq_true, beq_iff_eq] at hedge
  rcases hedge with rfl | rfl
  · exact absurd h (by decide)
  · exact absurd h (by decide)

theorem toLower_of_edge {c : Char} (h : isEdge c) : c.toLower = c := by
  apply toLower_of_nameChar
  simp only [isNameChar, h, Bool.or_true]

/-! ## What is kept -/

/-- A kept character is a letter or a digit of the name, or an edge. -/
theorem mem_kept_dashed {s : List Char} {c : Char} (h : c ∈ kept (dashed s)) :
    (c.isAlphanum ∧ c ∈ s) ∨ isEdge c := by
  obtain ⟨hmem, hkept⟩ := List.mem_filter.mp h
  obtain ⟨d, hd, hdash⟩ := List.mem_map.mp hmem
  by_cases hblank : d = ' ' ∨ d = '_'
  · rw [if_pos hblank] at hdash
    right
    rw [← hdash]
    rfl
  · rw [if_neg hblank] at hdash
    subst hdash
    simp only [isWord, Bool.or_eq_true, beq_iff_eq] at hkept
    rcases hkept with ((halphanum | hunder) | hdot) | hdash
    · exact Or.inl ⟨halphanum, hd⟩
    · exact absurd (Or.inr hunder) hblank
    · right
      rw [hdot]
      rfl
    · right
      rw [hdash]
      rfl

/-- Letters and digits are kept. -/
theorem mem_kept_of_alphanum {s : List Char} {c : Char} (h : c.isAlphanum) (hc : c ∈ s) :
    c ∈ kept (dashed s) := by
  apply List.mem_filter.mpr
  constructor
  · refine List.mem_map.mpr ⟨c, hc, if_neg ?_⟩
    rintro (rfl | rfl)
    · exact absurd h (by decide)
    · exact absurd h (by decide)
  · simp only [isWord, h, Bool.true_or]

theorem nameChar_of_kept {s : List Char} {c : Char} (h : c ∈ (kept (dashed s)).map Char.toLower) :
    isNameChar c := by
  obtain ⟨d, hd, rfl⟩ := List.mem_map.mp h
  rcases mem_kept_dashed hd with ⟨halphanum, -⟩ | hedge
  · have hlower := toLower_of_alphanum halphanum
    simp only [isNameChar, hlower, Bool.true_or]
  · rw [toLower_of_edge hedge]
    simp only [isNameChar, hedge, Bool.or_true]

/-! ## Stripping -/

theorem stripped_sublist (s : List Char) : (stripped s).Sublist s :=
  (List.rdropWhile_prefix _ _).sublist.trans (List.dropWhile_sublist _)

theorem stripped_last {s : List Char} (h : stripped s ≠ []) :
    ¬ isEdge ((stripped s).getLast h) :=
  List.rdropWhile_last_not _ _ h

theorem stripped_first {s : List Char} (h : stripped s ≠ []) : ¬ isEdge ((stripped s).head h) := by
  have hfront : stripped s <+: s.dropWhile isEdge := List.rdropWhile_prefix _ _
  rw [hfront.head h, List.head_dropWhile_not isEdge (hfront.ne_nil h)]
  exact Bool.false_ne_true

theorem stripped_eq_nil_iff {s : List Char} : stripped s = [] ↔ ∀ c ∈ s, isEdge c := by
  unfold stripped
  rw [List.rdropWhile_eq_nil_iff]
  constructor
  · intro h
    by_contra hnot
    have hdrop : s.dropWhile isEdge ≠ [] := fun hnil => hnot (List.dropWhile_eq_nil_iff.mp hnil)
    have hfirst := List.head_dropWhile_not isEdge hdrop
    rw [h _ (List.head_mem hdrop)] at hfirst
    exact Bool.noConfusion hfirst
  · exact fun h c hc => h c ((List.dropWhile_sublist _).subset hc)

theorem stripped_of_valid {s : List Char} (h : ValidName s) : stripped s = s := by
  have hdrop : s.dropWhile isEdge = s := by
    cases s with
    | nil => rfl
    | cons c rest => exact List.dropWhile_cons_of_neg (h.first (List.cons_ne_nil c rest))
  unfold stripped
  rw [hdrop, List.rdropWhile_eq_self_iff]
  exact h.last

/-! ## Cleaning -/

/-- What remains is a valid name. -/
theorem cleanHostname_valid (hostname : List Char) : ValidName (cleanHostname hostname) where
  length := by
    have hstripped := (stripped_sublist ((kept (dashed (hostname.take 63))).map
      Char.toLower)).length_le
    have hkept : (kept (dashed (hostname.take 63))).length ≤ (dashed (hostname.take 63)).length :=
      List.length_filter_le _ _
    simp only [List.length_map, dashed, List.length_take] at hstripped hkept
    unfold cleanHostname dashed
    omega
  chars c hc := nameChar_of_kept ((stripped_sublist _).subset hc)
  first := stripped_first
  last := stripped_last

/-- Cleaning a valid name changes nothing. -/
theorem cleanHostname_of_valid {name : List Char} (h : ValidName name) :
    cleanHostname name = name := by
  have hdashed : dashed name = name := by
    refine (List.map_congr_left ?_).trans (List.map_id name)
    intro c hc
    have hchar := h.chars c hc
    refine if_neg ?_
    rintro (rfl | rfl)
    · exact absurd hchar (by decide)
    · exact absurd hchar (by decide)
  have hkept : kept name = name := by
    refine List.filter_eq_self.mpr ?_
    intro c hc
    have hchar := h.chars c hc
    simp only [isNameChar, isEdge, isWord, Char.isAlphanum, isAlpha_eq, Bool.or_eq_true] at *
    tauto
  have hlower : name.map Char.toLower = name := by
    refine (List.map_congr_left ?_).trans (List.map_id name)
    exact fun c hc => toLower_of_nameChar (h.chars c hc)
  unfold cleanHostname
  rw [List.take_of_length_le h.length, hdashed, hkept, hlower, stripped_of_valid h]

/-- Nothing remains of a name without letters and digits in its first 63 characters. -/
theorem cleanHostname_eq_nil_iff {hostname : List Char} :
    cleanHostname hostname = [] ↔ ∀ c ∈ hostname.take 63, ¬ c.isAlphanum := by
  unfold cleanHostname
  rw [stripped_eq_nil_iff]
  constructor
  · intro h c hc halphanum
    have hedge := h _ (List.mem_map_of_mem (mem_kept_of_alphanum halphanum hc))
    have hlower := toLower_of_alphanum halphanum
    have hchar : c.toLower.isAlphanum := by
      simp only [Char.isAlphanum, isAlpha_eq, Bool.or_eq_true] at hlower ⊢
      tauto
    rw [not_edge_of_alphanum hchar] at hedge
    exact Bool.noConfusion hedge
  · intro h c hc
    obtain ⟨d, hd, rfl⟩ := List.mem_map.mp hc
    rcases mem_kept_dashed hd with ⟨halphanum, hmem⟩ | hedge
    · exact absurd halphanum (h d hmem)
    · rw [toLower_of_edge hedge]
      exact hedge

/-! ## When the result is valid -/

theorem encoded_of_valid {name : Text} (h : ValidName name.chars) : name.encoded = name.chars := by
  cases name with
  | bytes chars => rfl
  | unicode chars =>
    refine List.filter_eq_self.mpr ?_
    intro c hc
    have hchar := h.chars c hc
    simp [isNameChar, isEdge, isLower_eq, Char.isDigit, UInt32.le_iff_toNat_le] at hchar ⊢
    rcases hchar with (hlower | hdigit) | rfl | rfl
    · omega
    · omega
    · decide
    · decide

/-- The result is a valid name, and sanitizing it again returns the same name. -/
def YieldsValid (hostname : Text) (defaultName : Option Text) : Prop :=
  ValidName (sanitizeHostname hostname defaultName).chars ∧
    (sanitizeHostname (sanitizeHostname hostname defaultName) defaultName).chars =
      (sanitizeHostname hostname defaultName).chars

theorem sanitizeHostname_again (name : Text) {defaultName : Option Text}
    (h : ValidName name.chars)
    (hempty : name.chars = [] → ∀ text, defaultName = some text → text.truncated.chars = []) :
    (sanitizeHostname name defaultName).chars = name.chars := by
  have hclean : cleanHostname name.encoded = name.chars := by
    rw [encoded_of_valid h, cleanHostname_of_valid h]
  unfold sanitizeHostname
  rw [hclean]
  cases defaultName with
  | none => rfl
  | some text =>
    by_cases hnil : name.chars = []
    · simp only [if_pos hnil]
      rw [hnil]
      exact hempty hnil text rfl
    · simp only [if_neg hnil]
      rfl

/-- **Sanitizing yields valid names** exactly if a letter or a digit is among the first
63 characters, or no default is given, or one that is valid once it is cut. -/
theorem yieldsValid_iff (hostname : Text) (defaultName : Option Text) :
    YieldsValid hostname defaultName ↔
      (∃ c ∈ hostname.encoded.take 63, c.isAlphanum) ∨
        ∀ text, defaultName = some text → ValidName text.truncated.chars := by
  have hvalid := cleanHostname_valid hostname.encoded
  cases defaultName with
  | none =>
    refine iff_of_true ⟨hvalid, ?_⟩ (Or.inr fun text h => nomatch h)
    exact sanitizeHostname_again (.bytes _) hvalid (fun _ text h => nomatch h)
  | some name =>
    by_cases hnil : cleanHostname hostname.encoded = []
    · have hnone := cleanHostname_eq_nil_iff.mp hnil
      have hresult : sanitizeHostname hostname (some name) = name.truncated := if_pos hnil
      unfold YieldsValid
      rw [hresult]
      constructor
      · rintro ⟨hname, -⟩
        right
        intro text htext
        rw [← Option.some.inj htext]
        exact hname
      · rintro (⟨c, hc, halphanum⟩ | hname)
        · exact absurd halphanum (hnone c hc)
        · refine ⟨hname name rfl, sanitizeHostname_again _ (hname name rfl) ?_⟩
          intro hempty text htext
          rw [← Option.some.inj htext]
          exact hempty
    · have hsome : ∃ c ∈ hostname.encoded.take 63, c.isAlphanum := by
        by_contra hnone
        exact hnil (cleanHostname_eq_nil_iff.mpr fun c hc h => hnone ⟨c, hc, h⟩)
      have hresult : sanitizeHostname hostname (some name) =
          .bytes (cleanHostname hostname.encoded) :=
        if_neg hnil
      unfold YieldsValid
      rw [hresult]
      refine iff_of_true ⟨hvalid, ?_⟩ (Or.inl hsome)
      exact sanitizeHostname_again (.bytes _) hvalid (fun hempty => absurd hempty hnil)

/-- The default name `my server` keeps its blank. -/
theorem yieldsValid_blank_default :
    ¬ YieldsValid (.unicode "...".toList) (some (.unicode "my server".toList)) := by
  intro ⟨hvalid, _⟩
  have hblank := hvalid.chars ' ' (by decide)
  exact absurd hblank (by decide)

end PolarBear.Utils
