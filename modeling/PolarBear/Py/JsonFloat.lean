import Mathlib.Data.List.TakeWhile
import PolarBear.Py.JsonRoundTrip

/-!
# Floats in a JSON text

A number with a fraction or an exponent is read as a float, and written as
`float.__repr__` gives it. That text is such a number again, and is read as the same
float; this is what Python documents of `repr`, and all that is asked of the parameter
(`ReprReadsBack`). Then whatever `loads` reads is read back from what `dumps` writes of it.
-/

namespace PolarBear.Py

/-! ## The grammar of a float -/

/-- `(0|[1-9]\d*)`. -/
def IsDigits (ds : List Char) : Prop :=
  ds = ['0'] ∨ ds ≠ [] ∧ (∀ c ∈ ds, isDigit c = true) ∧ ds.head? ≠ some '0'

/-- `(\.\d+)?`. -/
inductive IsFraction : List Char → Prop
  | absent : IsFraction []
  | point {ds : List Char} (hne : ds ≠ []) (h : ∀ c ∈ ds, isDigit c = true) :
      IsFraction ('.' :: ds)

/-- `([eE][-+]?\d+)?`. -/
inductive IsExponent : List Char → Prop
  | absent : IsExponent []
  | power {e : Char} {sign ds : List Char} (he : e = 'e' ∨ e = 'E')
      (hsign : sign = [] ∨ sign = ['+'] ∨ sign = ['-']) (hne : ds ≠ [])
      (h : ∀ c ∈ ds, isDigit c = true) : IsExponent (e :: (sign ++ ds))

/-- The text of a number that is no integer. -/
structure FloatText (text : List Char) (minus : Bool) (digits fraction exponent : List Char) :
    Prop where
  parts : text = (if minus then ['-'] else []) ++ digits ++ fraction ++ exponent
  isDigits : IsDigits digits
  isFraction : IsFraction fraction
  isExponent : IsExponent exponent
  notInt : ¬ (fraction = [] ∧ exponent = [])

def IsFloat (text : List Char) : Prop :=
  ∃ minus digits fraction exponent, FloatText text minus digits fraction exponent

/-! ## Reading it -/

theorem isDigits_all {ds : List Char} (h : IsDigits ds) : ∀ c ∈ ds, isDigit c = true := by
  rcases h with rfl | ⟨-, hall, -⟩
  · intro c hc
    rw [List.mem_singleton.mp hc]
    rfl
  · exact hall

theorem isDigits_cons {ds : List Char} (h : IsDigits ds) : ∃ d ds', ds = d :: ds' := by
  rcases h with rfl | ⟨hne, -⟩
  · exact ⟨'0', [], rfl⟩
  · exact List.exists_cons_of_ne_nil hne

theorem scanDigits_append {ds rest : List Char} (h : IsDigits ds)
    (hrest : ∀ c ∈ rest.head?, isDigit c = false) : scanDigits (ds ++ rest) = (ds, rest) := by
  rcases h with rfl | ⟨hne, hall, hzero⟩
  · rfl
  · obtain ⟨d, ds, rfl⟩ := List.exists_cons_of_ne_nil hne
    have hspan := span_isDigit hall hrest
    rw [List.cons_append] at hspan ⊢
    rw [scanDigits.eq_2]
    · exact hspan
    · intro rest' hcons
      exact hzero (congrArg some (List.cons.inj hcons).1)

theorem scanFraction_append {f rest : List Char} (h : IsFraction f)
    (hrest : ∀ c ∈ rest.head?, isDigit c = false ∧ c ≠ '.') :
    scanFraction (f ++ rest) = (f, rest) := by
  cases h with
  | absent =>
    rw [List.nil_append]
    unfold scanFraction
    split
    · next rest' => exact absurd rfl (hrest '.' rfl).2
    · rfl
  | @point ds hne hall =>
    have hspan := span_isDigit hall (fun c hc => (hrest c hc).1)
    rw [List.cons_append]
    show (if ((ds ++ rest).span isDigit).1 = [] then ([], '.' :: (ds ++ rest))
      else ('.' :: ((ds ++ rest).span isDigit).1, ((ds ++ rest).span isDigit).2)) = _
    rw [hspan, if_neg hne]

theorem scanExponent_append {e rest : List Char} (h : IsExponent e) (hrest : Delimited rest) :
    scanExponent (e ++ rest) = (e, rest) := by
  cases h with
  | absent => exact scanExponent_delimited hrest
  | @power e sign ds he hsign hne hall =>
    have hspan := span_isDigit hall (isDigit_of_delimited hrest)
    have hscan : scanSign (sign ++ ds ++ rest) = (sign, ds ++ rest) := by
      rcases hsign with rfl | rfl | rfl
      · -- a digit is no sign
        obtain ⟨d, ds, rfl⟩ := List.exists_cons_of_ne_nil hne
        have hd := hall d List.mem_cons_self
        show scanSign (d :: (ds ++ rest)) = _
        unfold scanSign
        split
        · next heq =>
          rw [(List.cons.inj heq).1] at hd
          exact absurd hd (by decide)
        · next heq =>
          rw [(List.cons.inj heq).1] at hd
          exact absurd hd (by decide)
        · rfl
      · rfl
      · rfl
    rw [List.cons_append]
    unfold scanExponent
    dsimp only
    rw [if_pos he, hscan]
    dsimp only
    rw [hspan, if_neg hne]

variable {floatRepr : String → String} {text : List Char}

/-- The first characters of a float. -/
theorem IsFloat.starts (h : IsFloat text) (rest : List Char) : ∃ c cs, text ++ rest = c :: cs ∧
    (isDigit c = true ∨ (c = '-' ∧ ∃ d ds, cs = d :: ds ∧ isDigit d = true)) := by
  obtain ⟨minus, digits, fraction, exponent, h⟩ := h
  obtain ⟨d, ds, heq⟩ := isDigits_cons h.isDigits
  have hd : isDigit d = true := isDigits_all h.isDigits d (heq ▸ List.mem_cons_self)
  rw [h.parts, heq]
  cases minus with
  | true => exact ⟨'-', d :: ds ++ fraction ++ exponent ++ rest, rfl, .inr ⟨rfl, d, _, rfl, hd⟩⟩
  | false => exact ⟨d, ds ++ fraction ++ exponent ++ rest, rfl, .inl hd⟩

/-- **A float is read as one**, whatever follows. -/
theorem scanNumber_float (h : IsFloat text) {rest : List Char} (hrest : Delimited rest) :
    scanNumber floatRepr (text ++ rest) =
      some (.float (floatRepr (String.ofList text)), rest) := by
  obtain ⟨minus, digits, fraction, exponent, h⟩ := h
  have htoken : ∀ c ∈ rest.head?, isDigit c = false ∧ c ≠ '.' := by
    intro c hc
    rcases hrest c hc with rfl | rfl | rfl <;> decide
  have hexponent : ∀ c ∈ (exponent ++ rest).head?, isDigit c = false ∧ c ≠ '.' := by
    cases h.isExponent with
    | absent => exact htoken
    | power he => rcases he with rfl | rfl <;> (intro c hc; cases hc; decide)
  have hfraction : ∀ c ∈ (fraction ++ (exponent ++ rest)).head?, isDigit c = false := by
    cases h.isFraction with
    | absent => exact fun c hc => (hexponent c hc).1
    | point => intro c hc; cases hc; decide
  have hne : digits ≠ [] := by
    obtain ⟨d, ds, heq⟩ := isDigits_cons h.isDigits
    rw [heq]
    exact List.cons_ne_nil d ds
  have hminus : scanMinus (text ++ rest) = (minus, digits ++ (fraction ++ (exponent ++ rest))) := by
    rw [h.parts]
    simp only [List.append_assoc]
    cases minus with
    | true => rfl
    | false =>
      obtain ⟨d, ds, heq⟩ := isDigits_cons h.isDigits
      have hd := isDigits_all h.isDigits d (heq ▸ List.mem_cons_self)
      rw [heq]
      show scanMinus (d :: _) = _
      unfold scanMinus
      split
      · next hcons =>
        rw [(List.cons.inj hcons).1] at hd
        exact absurd hd (by decide)
      · rfl
  unfold scanNumber
  rw [hminus]
  dsimp only
  rw [scanDigits_append h.isDigits hfraction]
  dsimp only
  rw [if_neg hne, scanFraction_append h.isFraction hexponent]
  dsimp only
  rw [scanExponent_append h.isExponent hrest]
  dsimp only
  rw [if_neg h.notInt, h.parts]

/-! ## What was read -/

theorem isDigit_of_mem_takeWhile {cs : List Char} :
    ∀ c ∈ cs.takeWhile isDigit, isDigit c = true := fun _ hc => List.mem_takeWhile_imp hc

theorem scanDigits_isDigits (cs : List Char) :
    (scanDigits cs).1 = [] ∨ IsDigits (scanDigits cs).1 := by
  unfold scanDigits
  split
  · exact .inr (.inl rfl)
  · next hzero =>
    rw [List.span_eq_takeWhile_dropWhile]
    dsimp only
    by_cases hnil : cs.takeWhile isDigit = []
    · exact .inl hnil
    · refine .inr (.inr ⟨hnil, isDigit_of_mem_takeWhile, fun hhead => ?_⟩)
      cases cs with
      | nil => exact hnil rfl
      | cons c cs =>
        by_cases hc : isDigit c = true
        · rw [List.takeWhile_cons_of_pos hc] at hhead
          exact hzero cs (congrArg (· :: cs) (Option.some.inj hhead))
        · exact hnil (List.takeWhile_cons_of_neg hc)

theorem scanFraction_isFraction (cs : List Char) : IsFraction (scanFraction cs).1 := by
  unfold scanFraction
  split
  · split
    · exact .absent
    · next hne =>
      rw [List.span_eq_takeWhile_dropWhile] at hne ⊢
      exact .point hne isDigit_of_mem_takeWhile
  · exact .absent

theorem scanExponent_isExponent (cs : List Char) : IsExponent (scanExponent cs).1 := by
  unfold scanExponent
  split
  · exact .absent
  · next c rest =>
    split
    · next he =>
      have hsign : (scanSign rest).1 = [] ∨ (scanSign rest).1 = ['+'] ∨
          (scanSign rest).1 = ['-'] := by
        unfold scanSign
        split
        · exact .inr (.inl rfl)
        · exact .inr (.inr rfl)
        · exact .inl rfl
      rcases hscan : scanSign rest with ⟨sign, rest'⟩
      rw [hscan] at hsign
      dsimp only
      split
      · exact .absent
      · next hne =>
        rw [List.span_eq_takeWhile_dropWhile] at hne ⊢
        exact .power he hsign hne isDigit_of_mem_takeWhile
    · exact .absent

/-- A number that was read is an integer or a float. -/
theorem scanNumber_cases {cs rest : List Char} {j : Json}
    (h : scanNumber floatRepr cs = some (j, rest)) :
    (∃ n, j = .int n) ∨
      ∃ text, IsFloat text ∧ j = .float (floatRepr (String.ofList text)) := by
  unfold scanNumber at h
  dsimp only at h
  split at h
  · cases h
  · next hne =>
    have hdigits := (scanDigits_isDigits (scanMinus cs).2).resolve_left hne
    split at h
    · cases h
      exact .inl ⟨_, rfl⟩
    · next hfloat =>
      cases h
      exact .inr ⟨_, ⟨_, _, _, _, rfl, hdigits, scanFraction_isFraction _,
        scanExponent_isExponent _, hfloat⟩, rfl⟩

/-! ## Round trips -/

/-- What Python documents of `float.__repr__`: it gives a number again, or a word for what is
too large, and the float of that number is the same. -/
structure ReprReadsBack (floatRepr : String → String) : Prop where
  again : ∀ text, IsFloat text.toList →
    floatRepr text = "inf" ∨ floatRepr text = "-inf" ∨
      IsFloat (floatRepr text).toList ∧ floatRepr (floatRepr text) = floatRepr text

theorem floatReads_word {r : String} (h : r = "nan" ∨ r = "inf" ∨ r = "-inf") :
    FloatReads floatRepr r := by
  rcases h with rfl | rfl | rfl
  · exact ⟨⟨'N', _, rfl, by decide, by decide, by decide, by decide⟩, fun _ _ => rfl⟩
  · exact ⟨⟨'I', _, rfl, by decide, by decide, by decide, by decide⟩, fun _ _ => rfl⟩
  · exact ⟨⟨'-', _, rfl, by decide, by decide, by decide, by decide⟩, fun _ _ => rfl⟩

/-- The text of a float is none of the words. -/
theorem floatChars_isFloat {r : String} (h : IsFloat r.toList) : floatChars r = r.toList := by
  obtain ⟨c, cs, heq, hc⟩ := h.starts []
  rw [List.append_nil] at heq
  have hne : ∀ w ∈ ["nan", "inf", "-inf"], r ≠ w := by
    rintro w hw rfl
    have hword : ∀ w ∈ ["nan", "inf", "-inf"], wordStart w.toList = true := by decide
    have hstarts := isPrefixOf_number (hword r hw) hc
    rw [heq] at hstarts
    exact absurd (List.isPrefixOf_iff_prefix.mpr (List.prefix_refl _))
      (by rw [hstarts]; exact Bool.false_ne_true)
  unfold floatChars
  rw [if_neg (hne _ (by decide)), if_neg (hne _ (by decide)), if_neg (hne _ (by decide))]

theorem floatReads_isFloat {r : String} (h : IsFloat r.toList) (hrepr : floatRepr r = r) :
    FloatReads floatRepr r := by
  have hchars := floatChars_isFloat h
  constructor
  · obtain ⟨c, cs, heq, hc⟩ := h.starts []
    rw [List.append_nil] at heq
    refine ⟨c, cs, hchars.trans heq, ?_⟩
    rcases hc with hdigit | ⟨rfl, -⟩
    · have hne : ∀ d : Char, isDigit d = false → c ≠ d := by
        rintro d hd rfl
        rw [hdigit] at hd
        cases hd
      exact ⟨by simp [opens, hdigit], hne _ (by decide), hne _ (by decide), hne _ (by decide)⟩
    · decide
  · intro rest hrest
    obtain ⟨c, cs, heq, hc⟩ := h.starts rest
    rw [hchars, heq, scanWord_number floatRepr hc, ← heq, scanNumber_float h hrest,
      String.ofList_toList, hrepr]

theorem floatReads_repr (hrepr : ReprReadsBack floatRepr) (h : IsFloat text) :
    FloatReads floatRepr (floatRepr (String.ofList text)) := by
  have hagain := hrepr.again (String.ofList text) (by rw [String.toList_ofList]; exact h)
  rcases hagain with hinf | hinf | ⟨hfloat, hsame⟩
  · exact floatReads_word (.inr (.inl hinf))
  · exact floatReads_word (.inr (.inr hinf))
  · exact floatReads_isFloat hfloat hsame

theorem readable_scanWord (hrepr : ReprReadsBack floatRepr) {cs rest : List Char} {j : Json}
    (h : scanWord floatRepr cs = some (j, rest)) : Readable floatRepr j := by
  unfold scanWord at h
  split at h
  · next w j' hfind =>
    cases h
    have hmem := List.mem_of_find?_eq_some hfind
    simp only [words, List.mem_cons, Prod.mk.injEq, List.not_mem_nil, or_false] at hmem
    rcases hmem with ⟨-, rfl⟩ | ⟨-, rfl⟩ | ⟨-, rfl⟩ | ⟨-, rfl⟩ | ⟨-, rfl⟩ | ⟨-, rfl⟩
    · exact .null
    · exact .bool true
    · exact .bool false
    · exact .float (floatReads_word (.inl rfl))
    · exact .float (floatReads_word (.inr (.inl rfl)))
    · exact .float (floatReads_word (.inr (.inr rfl)))
  · rcases scanNumber_cases h with ⟨n, rfl⟩ | ⟨text, htext, rfl⟩
    · exact .int n
    · exact .float (floatReads_repr hrepr htext)

/-- What is read is readable: a value, the items of a list and the entries of a dictionary. -/
structure ScansReadable (floatRepr : String → String) (fuel : Nat) : Prop where
  once : ∀ cs j rest, scanOnce floatRepr fuel cs = some (j, rest) → Readable floatRepr j
  items : ∀ xs cs j rest, (∀ x ∈ xs, Readable floatRepr x) →
    scanItems floatRepr fuel xs cs = some (j, rest) → Readable floatRepr j
  fields : ∀ fields cs j rest, (Dict.keys fields).Nodup →
    (∀ kv ∈ fields, Readable floatRepr kv.2) →
    scanFields floatRepr fuel fields cs = some (j, rest) → Readable floatRepr j

theorem scansReadable (hrepr : ReprReadsBack floatRepr) : ∀ fuel, ScansReadable floatRepr fuel
  | 0 => by
    refine ⟨fun _ _ _ h => ?_, fun _ _ _ _ _ h => ?_, fun _ _ _ _ _ _ h => ?_⟩ <;> cases h
  | fuel + 1 => by
    have ih := scansReadable hrepr fuel
    refine ⟨fun cs j rest h => ?_, fun xs cs j rest hxs h => ?_,
      fun fields cs j rest hkeys hfields h => ?_⟩
    · cases cs with
      | nil => cases h
      | cons c cs =>
        rw [scanOnce] at h
        split at h
        · obtain ⟨s, -, hs⟩ := Option.map_eq_some_iff.mp h
          cases hs
          exact .str _
        · split at h
          · split at h
            · cases h
              exact .arr (fun _ hx => absurd hx List.not_mem_nil)
            · exact ih.items [] _ _ _ (fun _ hx => absurd hx List.not_mem_nil) h
          · split at h
            · split at h
              · cases h
                exact .obj List.nodup_nil (fun _ hx => absurd hx List.not_mem_nil)
              · exact ih.fields [] _ _ _ List.nodup_nil (fun _ hx => absurd hx List.not_mem_nil) h
            · exact readable_scanWord hrepr h
    · rw [scanItems] at h
      obtain ⟨⟨x, rest'⟩, hx, h⟩ := Option.bind_eq_some_iff.mp h
      have hitem := ih.once _ _ _ hx
      have hall : ∀ y ∈ xs ++ [x], Readable floatRepr y := by
        intro y hy
        rcases List.mem_append.mp hy with hy | hy
        · exact hxs y hy
        · exact List.mem_singleton.mp hy ▸ hitem
      dsimp only at h
      split at h
      · cases h
        exact .arr hall
      · obtain ⟨rest'', -, h⟩ := Option.bind_eq_some_iff.mp h
        exact ih.items _ _ _ _ hall h
    · rw [scanFields] at h
      obtain ⟨_, -, h⟩ := Option.bind_eq_some_iff.mp h
      obtain ⟨⟨k, _⟩, -, h⟩ := Option.bind_eq_some_iff.mp h
      obtain ⟨_, -, h⟩ := Option.bind_eq_some_iff.mp h
      obtain ⟨⟨x, rest'⟩, hx, h⟩ := Option.bind_eq_some_iff.mp h
      have hitem := ih.once _ _ _ hx
      have hnodup := Dict.nodup_keys_set (String.ofList k) x hkeys
      have hall : ∀ kv ∈ Dict.set (String.ofList k) x fields, Readable floatRepr kv.2 := by
        intro kv hkv
        rcases Dict.mem_set hkv with rfl | hkv
        · exact hitem
        · exact hfields kv hkv
      dsimp only at h
      split at h
      · cases h
        exact .obj hnodup hall
      · obtain ⟨rest'', -, h⟩ := Option.bind_eq_some_iff.mp h
        exact ih.fields _ _ _ _ hnodup hall h

/-- **What `loads` reads is read back** from what `dumps` writes of it. -/
theorem loads_dumps_loads (hrepr : ReprReadsBack floatRepr) {s : String} {j : Json}
    (h : loads floatRepr s = some j) : loads floatRepr (dumps j) = some j := by
  unfold loads at h
  obtain ⟨⟨j', rest⟩, hscan, h⟩ := Option.bind_eq_some_iff.mp h
  dsimp only at h
  split at h
  · cases h
    exact loads_dumps_readable floatRepr ((scansReadable hrepr _).once _ _ _ hscan)
  · cases h

end PolarBear.Py
