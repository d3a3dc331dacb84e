import Mathlib.Data.Nat.Digits.Lemmas
import PolarBear.Api.Version
import PolarBear.Lib.Regex
import PolarBear.Py.JsonRoundTrip

/-!
# Version strings

`APIVersionRequest(s)` matches `s` with a pattern that ends in `$`. That is the
end of the string, or the place before a newline at its end. So a version with a
newline after it is accepted too, and `get_string` does not give it back; every
other string is treated as it should be (`version_strings_iff`).

A digit of the pattern is an ASCII digit, as it is without the flag `UNICODE`.
-/

namespace PolarBear.Api

open PolarBear.Regex
open PolarBear.Py (hexDigit isDigit decimal natText)

/-! ## Parsing and printing -/

/-- `[1-9]` -/
def isNonZeroDigit (c : Char) : Bool := isDigit c && c != '0'

/-- `[1-9]\d*` -/
def numberPattern : Pattern := .seq (.one isNonZeroDigit) (.star (.one isDigit))

/-- `^([1-9]\d*)\.([1-9]\d*|0)$` -/
def versionPattern : Pattern :=
  .seq .atStart (.seq (.group 1 numberPattern) (.seq (.char '.')
    (.seq (.group 2 (.alt numberPattern (.char '0'))) .atEnd)))

/-- `int(match.group(n))`. -/
def groupInt (m : State) (n : Nat) : Nat := decimal ((m.groupText n).getD [])

/-- `APIVersionRequest(version_string)`; the error is `InvalidAPIVersionString`. -/
def APIVersionRequest.ofString (versionString : Option String) :
    Except String APIVersionRequest :=
  match versionString with
  | none => .ok ⟨0, 0⟩
  | some s =>
    match versionPattern.isMatch s.toList with
    | some m => .ok ⟨groupInt m 1, groupInt m 2⟩
    | none => .error s

/-- `get_string`; `none` is its `ValueError`. -/
def APIVersionRequest.getString (v : APIVersionRequest) : Option String :=
  if v.isNull then none
  else some (String.ofList (natText v.verMajor ++ '.' :: natText v.verMinor))

/-! ## Comparing -/

/-- `<` on pairs. -/
def tupleLt (p q : Nat × Nat) : Bool := decide (p.1 < q.1) || (p.1 == q.1 && decide (p.2 < q.2))

def APIVersionRequest.tuple (v : APIVersionRequest) : Nat × Nat := (v.verMajor, v.verMinor)

namespace APIVersionRequest

/-- `__lt__`. -/
def isLess (v w : APIVersionRequest) : Bool := tupleLt v.tuple w.tuple

/-- `__eq__`. -/
def isEqual (v w : APIVersionRequest) : Bool := v.tuple == w.tuple

/-- `__gt__`. -/
def isGreater (v w : APIVersionRequest) : Bool := tupleLt w.tuple v.tuple

/-- `__le__`. -/
def isAtMost (v w : APIVersionRequest) : Bool := v.isLess w || v.isEqual w

/-- `__ne__`. -/
def isDifferent (v w : APIVersionRequest) : Bool := !v.isEqual w

/-- `__ge__`. -/
def isAtLeast (v w : APIVersionRequest) : Bool := v.isGreater w || v.isEqual w

end APIVersionRequest

/-! ## What the pattern accepts -/

/-- A number from 1 on, without leading zeros. -/
def IsNumber (ds : List Char) : Prop :=
  ∃ d rest, ds = d :: rest ∧ isNonZeroDigit d = true ∧ ∀ c ∈ rest, isDigit c = true

/-- A major number, a dot, and a minor number or `0`. -/
def WellFormed (s : String) : Prop :=
  ∃ major minor, s.toList = major ++ '.' :: minor ∧ IsNumber major ∧
    (IsNumber minor ∨ minor = ['0'])

/-- `[1-9]\d*` takes the numbers. -/
theorem mem_number {s s' : State} :
    s' ∈ numberPattern.run s ↔ ∃ w rest, s.rest = w ++ rest ∧ IsNumber w ∧ s' = s.after w rest := by
  unfold numberPattern
  rw [run_seq, List.mem_flatMap]
  constructor
  · rintro ⟨t, ht, hs'⟩
    obtain ⟨d, cs, hcons, hd, rfl⟩ := mem_next.mp ht
    obtain ⟨w, rest, hsplit, hw, rfl⟩ := mem_runs.mp hs'
    refine ⟨d :: w, rest, ?_, ⟨d, w, rfl, hd, hw⟩, after_cons.symm⟩
    rw [hcons, List.cons_append]
    exact congrArg (d :: ·) hsplit
  · rintro ⟨w, rest, hsplit, ⟨d, ds, rfl, hd, hds⟩, rfl⟩
    refine ⟨s.after [d] (ds ++ rest), mem_next.mpr ⟨d, ds ++ rest, hsplit, hd, rfl⟩,
      mem_runs.mpr ⟨ds, rest, rfl, hds, after_cons⟩⟩

theorem mem_char {c : Char} {s s' : State} :
    s' ∈ (Pattern.char c).run s ↔ ∃ rest, s.rest = c :: rest ∧ s' = s.after [c] rest := by
  show s' ∈ next (· == c) s ↔ _
  rw [mem_next]
  constructor
  · rintro ⟨d, rest, hcons, hd, rfl⟩
    rw [beq_iff_eq] at hd
    subst hd
    exact ⟨rest, hcons, rfl⟩
  · rintro ⟨rest, hcons, rfl⟩
    exact ⟨c, rest, hcons, beq_self_eq_true c, rfl⟩

/-- The minor number. -/
theorem mem_minor {s s' : State} :
    s' ∈ (Pattern.alt numberPattern (.char '0')).run s ↔
      ∃ w rest, s.rest = w ++ rest ∧ (IsNumber w ∨ w = ['0']) ∧ s' = s.after w rest := by
  rw [run_alt, List.mem_append, mem_number, mem_char]
  constructor
  · rintro (⟨w, rest, hsplit, hw, rfl⟩ | ⟨rest, hcons, rfl⟩)
    · exact ⟨w, rest, hsplit, Or.inl hw, rfl⟩
    · exact ⟨['0'], rest, hcons, Or.inr rfl, rfl⟩
  · rintro ⟨w, rest, hsplit, hw | rfl, rfl⟩
    · exact Or.inl ⟨w, rest, hsplit, hw, rfl⟩
    · exact Or.inr ⟨rest, hsplit, rfl⟩

/-- The parts of an accepted string. -/
structure Parts (text major minor tail : List Char) : Prop where
  split : text = major ++ '.' :: (minor ++ tail)
  major : IsNumber major
  minor : IsNumber minor ∨ minor = ['0']
  tail : tail = [] ∨ tail = ['\n']

/-- **The ways of the pattern**: a version, and perhaps a newline after it. -/
theorem mem_version {text : List Char} {s' : State} :
    s' ∈ versionPattern.run (.start text) ↔ ∃ major minor tail, Parts text major minor tail ∧
      s' = ⟨major.length + 1 + minor.length, tail, [(2, minor), (1, major)]⟩ := by
  unfold versionPattern
  simp only [run_seq, List.mem_flatMap]
  constructor
  · rintro ⟨t₀, ht₀, t₁, ht₁, t₂, ht₂, t₃, ht₃, hend⟩
    rw [show (Pattern.atStart).run (.start text) = [.start text] from rfl,
      List.mem_singleton] at ht₀
    subst ht₀
    obtain ⟨major, rest₁, hsplit₁, hmajor, rfl⟩ := (mem_group (fun t => mem_number)).mp ht₁
    obtain ⟨rest₂, hsplit₂, rfl⟩ := mem_char.mp ht₂
    obtain ⟨minor, tail, hsplit₃, hminor, rfl⟩ := (mem_group (fun t => mem_minor)).mp ht₃
    have htext : text = major ++ rest₁ := hsplit₁
    have hrest₁ : rest₁ = '.' :: rest₂ := hsplit₂
    have hrest₂ : rest₂ = minor ++ tail := hsplit₃
    have hend' : s' ∈ (if tail = [] ∨ tail = ['\n'] then _ else []) := hend
    split at hend'
    · next htail =>
      rw [List.mem_singleton.mp hend']
      refine ⟨major, minor, tail, ⟨?_, hmajor, hminor, htail⟩, ?_⟩
      · rw [htext, hrest₁, hrest₂]
      · unfold State.after State.start
        simp
    · cases hend'
  · rintro ⟨major, minor, tail, ⟨hsplit, hmajor, hminor, htail⟩, rfl⟩
    refine ⟨.start text, List.mem_singleton.mpr rfl, _,
      (mem_group (fun t => mem_number)).mpr ⟨major, '.' :: (minor ++ tail), hsplit, hmajor, rfl⟩, _,
      mem_char.mpr ⟨minor ++ tail, rfl, rfl⟩, _,
      (mem_group (fun t => mem_minor)).mpr ⟨minor, tail, rfl, hminor, rfl⟩, ?_⟩
    show _ ∈ (if tail = [] ∨ tail = ['\n'] then _ else [])
    rw [if_pos htail, List.mem_singleton]
    unfold State.after State.start
    simp

/-! ## Numbers -/

theorem toNat_of_isDigit {c : Char} (h : isDigit c = true) : 48 ≤ c.toNat ∧ c.toNat ≤ 57 :=
  of_decide_eq_true h

theorem hexDigit_toNat {c : Char} (h : isDigit c = true) : hexDigit (c.toNat - 48) = c := by
  obtain ⟨hlow, hhigh⟩ := toNat_of_isDigit h
  unfold hexDigit
  rw [if_pos (by omega), Nat.add_sub_of_le hlow, Char.ofNat_toNat]

/-- The value of digits, in terms of the digits of a number. -/
theorem decimal_eq_ofDigits (ds : List Char) :
    decimal ds = Nat.ofDigits 10 (ds.map (fun c => c.toNat - 48)).reverse := by
  have hreverse : ∀ l : List Char,
      decimal l.reverse = Nat.ofDigits 10 (l.map (fun c => c.toNat - 48)) := by
    intro l
    unfold decimal
    rw [List.foldl_reverse]
    induction l with
    | nil => rfl
    | cons c l ih =>
      rw [List.foldr_cons, ih, List.map_cons, Nat.ofDigits_cons]
      omega
  have h := hreverse ds.reverse
  rwa [List.reverse_reverse, List.map_reverse] at h

theorem isDigit_of_isNonZeroDigit {c : Char} (h : isNonZeroDigit c = true) :
    isDigit c = true ∧ c ≠ '0' := by
  unfold isNonZeroDigit at h
  simpa using h

theorem IsNumber.isDigit {ds : List Char} (h : IsNumber ds) : ∀ c ∈ ds, isDigit c = true := by
  obtain ⟨d, rest, rfl, hd, hrest⟩ := h
  intro c hc
  rcases List.mem_cons.mp hc with rfl | hc
  · exact (isDigit_of_isNonZeroDigit hd).1
  · exact hrest c hc

/-- The digits of a number from 1 on. -/
theorem digits_decimal {ds : List Char} (h : IsNumber ds) :
    Nat.digits 10 (decimal ds) = (ds.map (fun c => c.toNat - 48)).reverse := by
  rw [decimal_eq_ofDigits]
  refine Nat.digits_ofDigits 10 (by omega) _ (fun n hn => ?_) (fun hne => ?_)
  · obtain ⟨c, hc, rfl⟩ := List.mem_map.mp (List.mem_reverse.mp hn)
    have hdigit := toNat_of_isDigit (h.isDigit c hc)
    omega
  · obtain ⟨d, rest, rfl, hd, -⟩ := h
    obtain ⟨hdigit, hzero⟩ := isDigit_of_isNonZeroDigit hd
    obtain ⟨hlow, -⟩ := toNat_of_isDigit hdigit
    have hne48 : d.toNat ≠ 48 := fun heq => hzero (Char.ext (UInt32.toNat.inj heq))
    rw [List.getLast_reverse]
    show d.toNat - 48 ≠ 0
    omega

theorem decimal_pos {ds : List Char} (h : IsNumber ds) : 0 < decimal ds := by
  by_contra hzero
  have hdigits := digits_decimal h
  rw [Nat.eq_zero_of_not_pos hzero, Nat.digits_zero] at hdigits
  obtain ⟨d, rest, rfl, -⟩ := h
  have hlength := congrArg List.length hdigits
  rw [List.length_reverse, List.length_map, List.length_cons, List.length_nil] at hlength
  omega

/-- A number is printed as it was read. -/
theorem natText_decimal {ds : List Char} (h : IsNumber ds ∨ ds = ['0']) :
    natText (decimal ds) = ds := by
  rcases h with h | rfl
  · unfold natText
    rw [if_neg (Nat.ne_of_gt (decimal_pos h)), digits_decimal h, List.map_reverse,
      List.reverse_reverse, List.map_map]
    conv_rhs => rw [← List.map_id ds]
    refine List.map_congr_left (fun c hc => ?_)
    exact hexDigit_toNat (h.isDigit c hc)
  · rfl

/-! ## Accepted strings -/

/-- What an accepted string consists of, and the version it gives. -/
theorem ofString_ok {s : String} {v : APIVersionRequest}
    (h : APIVersionRequest.ofString (some s) = .ok v) :
    ∃ major minor tail, Parts s.toList major minor tail ∧
      v = ⟨decimal major, decimal minor⟩ := by
  unfold APIVersionRequest.ofString at h
  cases hmatch : versionPattern.isMatch s.toList with
  | none =>
    simp only [hmatch] at h
    cases h
  | some m =>
    simp only [hmatch] at h
    cases h
    obtain ⟨major, minor, tail, hparts, rfl⟩ := mem_version.mp (List.mem_of_head? hmatch)
    exact ⟨major, minor, tail, hparts, rfl⟩

/-- Every string with the parts of a version is accepted. -/
theorem ofString_parts {s : String} {major minor tail : List Char}
    (h : Parts s.toList major minor tail) :
    ∃ v, APIVersionRequest.ofString (some s) = .ok v := by
  have hway := mem_version.mpr ⟨major, minor, tail, h, rfl⟩
  unfold APIVersionRequest.ofString
  cases hmatch : versionPattern.isMatch s.toList with
  | none =>
    have hnone : versionPattern.run (.start s.toList) = [] := List.head?_eq_none_iff.mp hmatch
    rw [hnone] at hway
    cases hway
  | some m =>
    simp only [hmatch]
    exact ⟨_, rfl⟩

/-- A version with a major number is not null. -/
theorem isNull_parts {major minor : List Char} (h : IsNumber major) :
    APIVersionRequest.isNull ⟨decimal major, decimal minor⟩ = false := by
  have hpos := decimal_pos h
  unfold APIVersionRequest.isNull
  simp only [Bool.and_eq_false_imp, beq_iff_eq]
  intro hzero
  omega

/-- A version is printed as its two numbers. -/
theorem getString_parts {major minor : List Char} (hmajor : IsNumber major)
    (hminor : IsNumber minor ∨ minor = ['0']) :
    APIVersionRequest.getString ⟨decimal major, decimal minor⟩ =
      some (String.ofList (major ++ '.' :: minor)) := by
  unfold APIVersionRequest.getString
  rw [isNull_parts hmajor, if_neg Bool.false_ne_true, natText_decimal (Or.inl hmajor),
    natText_decimal hminor]

/-- No newline is in a version. -/
theorem newline_not_mem {s : String} (h : WellFormed s) : '\n' ∉ s.toList := by
  obtain ⟨major, minor, hsplit, hmajor, hminor⟩ := h
  have hno : ∀ ds : List Char, IsNumber ds ∨ ds = ['0'] → '\n' ∉ ds := by
    rintro ds (hds | rfl) hmem
    · exact absurd (hds.isDigit _ hmem) (by decide)
    · exact absurd hmem (by decide)
  rw [hsplit, List.mem_append, List.mem_cons, not_or, not_or]
  exact ⟨hno major (Or.inl hmajor), by decide, hno minor hminor⟩

/-! ## The correspondence -/

/-- The string is accepted exactly if it is a version, and then it is printed again. -/
structure Corresponds (s : String) : Prop where
  accepted : (∃ v, APIVersionRequest.ofString (some s) = .ok v) ↔ WellFormed s
  printed : ∀ v, APIVersionRequest.ofString (some s) = .ok v → v.getString = some s

/-- A version with a newline after it. -/
def NewlineAfter (s : String) : Prop := ∃ t, WellFormed t ∧ s.toList = t.toList ++ ['\n']

/-- The six operators compare the pairs, and one of the first three holds. -/
structure ComparesPairs (v w : APIVersionRequest) : Prop where
  less : v.isLess w = true ↔ toLex v.tuple < toLex w.tuple
  equal : v.isEqual w = true ↔ toLex v.tuple = toLex w.tuple
  greater : v.isGreater w = true ↔ toLex w.tuple < toLex v.tuple
  atMost : v.isAtMost w = true ↔ toLex v.tuple ≤ toLex w.tuple
  different : v.isDifferent w = true ↔ toLex v.tuple ≠ toLex w.tuple
  atLeast : v.isAtLeast w = true ↔ toLex w.tuple ≤ toLex v.tuple
  total : v.isLess w = true ∨ v.isEqual w = true ∨ v.isGreater w = true

/-- The closed interval, where a null end is no end. -/
def InInterval (v minVersion maxVersion : APIVersionRequest) : Prop :=
  (minVersion.isNull = true ∨ minVersion.isAtMost v = true) ∧
    (maxVersion.isNull = true ∨ v.isAtMost maxVersion = true)

theorem tupleLt_iff (p q : Nat × Nat) : tupleLt p q = true ↔ toLex p < toLex q := by
  unfold tupleLt
  rw [Prod.Lex.toLex_lt_toLex]
  simp

theorem comparesPairs (v w : APIVersionRequest) : ComparesPairs v w := by
  have hless : v.isLess w = true ↔ toLex v.tuple < toLex w.tuple := tupleLt_iff _ _
  have hequal : v.isEqual w = true ↔ toLex v.tuple = toLex w.tuple :=
    beq_iff_eq.trans toLex_inj.symm
  have hgreater : v.isGreater w = true ↔ toLex w.tuple < toLex v.tuple := tupleLt_iff _ _
  refine ⟨hless, hequal, hgreater, ?_, ?_, ?_, ?_⟩
  · unfold APIVersionRequest.isAtMost
    rw [Bool.or_eq_true, hless, hequal, le_iff_lt_or_eq]
  · unfold APIVersionRequest.isDifferent
    rw [Bool.not_eq_true', ← Bool.not_eq_true, hequal]
  · unfold APIVersionRequest.isAtLeast
    rw [Bool.or_eq_true, hgreater, hequal, le_iff_lt_or_eq, eq_comm]
  · rw [hless, hequal, hgreater]
    exact lt_trichotomy _ _

/-- `matches`, of a version that is not null. -/
theorem isMatch_iff {v : APIVersionRequest} (hv : v.isNull = false)
    (minVersion maxVersion : APIVersionRequest) :
    ∃ answer, v.isMatch minVersion maxVersion = some answer ∧
      (answer = true ↔ InInterval v minVersion maxVersion) := by
  have hle : ∀ a b : APIVersionRequest, a ≤ b ↔ a.isAtMost b = true :=
    fun a b => (comparesPairs a b).atMost.symm
  unfold APIVersionRequest.isMatch InInterval
  rw [hv, if_neg Bool.false_ne_true]
  cases minVersion.isNull <;> cases maxVersion.isNull <;> simp [hle]

/-- **Version strings and versions correspond** for every string but a version with a newline
after it. The operators compare versions as pairs, and `matches` tests the closed interval. -/
theorem version_strings_iff (s : String) :
    (Corresponds s ↔ ¬ NewlineAfter s) ∧ (∀ v w, ComparesPairs v w) ∧
      ∀ v, APIVersionRequest.ofString (some s) = .ok v → ∀ minVersion maxVersion,
        ∃ answer, v.isMatch minVersion maxVersion = some answer ∧
          (answer = true ↔ InInterval v minVersion maxVersion) := by
  refine ⟨⟨?_, ?_⟩, comparesPairs, ?_⟩
  · rintro ⟨haccepted, -⟩ ⟨t, ⟨major, minor, hsplit, hmajor, hminor⟩, hs⟩
    have hparts : Parts s.toList major minor ['\n'] := by
      refine ⟨?_, hmajor, hminor, Or.inr rfl⟩
      rw [hs, hsplit, List.append_assoc, List.cons_append]
    have hwell := haccepted.mp (ofString_parts hparts)
    refine newline_not_mem hwell ?_
    rw [hs]
    exact List.mem_append_right _ (List.mem_singleton.mpr rfl)
  · intro hnewline
    have hexact : ∀ v, APIVersionRequest.ofString (some s) = .ok v →
        WellFormed s ∧ v.getString = some s := by
      intro v hv
      obtain ⟨major, minor, tail, hparts, rfl⟩ := ofString_ok hv
      rcases hparts.tail with rfl | rfl
      · have hsplit := hparts.split
        rw [List.append_nil] at hsplit
        refine ⟨⟨major, minor, hsplit, hparts.major, hparts.minor⟩, ?_⟩
        rw [getString_parts hparts.major hparts.minor, ← hsplit, String.ofList_toList]
      · refine absurd ⟨String.ofList (major ++ '.' :: minor), ?_, ?_⟩ hnewline
        · exact ⟨major, minor, String.toList_ofList, hparts.major, hparts.minor⟩
        · rw [String.toList_ofList, hparts.split, List.append_assoc, List.cons_append]
    refine ⟨⟨fun ⟨v, hv⟩ => (hexact v hv).1, ?_⟩, fun v hv => (hexact v hv).2⟩
    rintro ⟨major, minor, hsplit, hmajor, hminor⟩
    refine ofString_parts ⟨?_, hmajor, hminor, Or.inl rfl⟩
    rw [hsplit, List.append_nil]
  · intro v hv
    obtain ⟨major, minor, tail, hparts, rfl⟩ := ofString_ok hv
    exact isMatch_iff (isNull_parts hparts.major)

/-- `2.1` with a newline after it is accepted as `2.1`. -/
theorem newline_accepted : ¬ Corresponds "2.1\n" := by
  intro h
  have hprinted := h.printed ⟨2, 1⟩ rfl
  exact absurd hprinted (by decide)

end PolarBear.Api
