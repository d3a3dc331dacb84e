import Mathlib.Data.List.ProdSigma
import Mathlib.Data.Prod.Lex
import Mathlib.Data.Rat.Defs
import Mathlib.Algebra.Order.Ring.Rat
import Mathlib.Tactic.NormNum
import PolarBear.Lib.Best
import PolarBear.Lib.Fallible

/-!
# Content negotiation

`Accept.best_match` goes through the supported types and, for each, through the
masks that the client accepts, and keeps the best pair that matches: the highest
quality, then the fewest wildcards, then the first.

`_match_mask` takes off the last two characters of a mask with a wildcard and
compares the rest with the major type. So it takes `application**`, or
`application+*`, for `application/*`. `best_match_iff` says when this goes wrong:
when no pair that the rule accepts too is better.

A quality is what Python's `float` makes of a text; what that is stays a parameter.
It can be `nan`, which no comparison holds for.
-/

namespace PolarBear.Urlmap

open PolarBear.Best

/-- The options of a header value; an option without `=` has no value. -/
abbrev Params := List (String × Option String)

/-- A mask with its options. -/
abbrev Range := String × Params

/-- A supported type and a mask. -/
abbrev Pair := String × Range

/-- A number of Python's type `float`. -/
inductive Quality (K : Type) where
  | num (q : K)
  | nan
  deriving DecidableEq

/-- What is raised. -/
inductive Crash where
  | stopIteration
  | typeError
  deriving DecidableEq, Repr

section

variable {K : Type} [LinearOrder K]

def Quality.isLess : Quality K → Quality K → Bool
  | .num a, .num b => decide (a < b)
  | _, _ => false

def Quality.isEqual : Quality K → Quality K → Bool
  | .num a, .num b => decide (a = b)
  | _, _ => false

/-! ## `best_match` -/

/-- `content_type.split('/', 1)[0]` -/
def majorType (contentType : String) : String :=
  String.ofList (contentType.toList.takeWhile (· != '/'))

/-- `mask.count('*')` -/
def stars (mask : String) : Nat := mask.toList.count '*'

/-- `_match_mask` -/
def matchMask (mask contentType : String) : Bool :=
  if !mask.toList.contains '*' then contentType == mask
  else if mask == "*/*" then true
  else majorType contentType == String.ofList mask.toList.dropLast.dropLast

/-- The variables of the loop. -/
structure Kept (K : Type) where
  bestQuality : Quality K
  bestContentType : Option String
  bestParams : Params
  bestMatch : String

/-- The body of the inner loop, for a mask whose quality has been read. -/
def keepBetter (contentType : String) (kept : Kept K) (range : Range) (quality : Quality K) :
    Kept K :=
  if quality.isLess kept.bestQuality then kept
  else if kept.bestQuality.isEqual quality && decide (stars kept.bestMatch ≤ stars range.1) then
    kept
  else if matchMask range.1 contentType then ⟨quality, some contentType, range.2, range.1⟩
  else kept

variable [One K] [Neg K]

def Kept.start : Kept K := ⟨.num (-1), none, [], "*/*"⟩

variable (float : String → Option (Quality K))

/-- `float(params.get('q', 1))`; nothing is a `ValueError`. -/
def readQuality (params : Params) : Except Crash (Option (Quality K)) :=
  match params.lookup "q" with
  | none => .ok (some (.num 1))
  | some none => .error .typeError
  | some (some text) => .ok (float text)

/-- The body of the inner loop. -/
def tryMask (contentType : String) (kept : Kept K) (range : Range) : Except Crash (Kept K) :=
  match readQuality float range.2 with
  | .error e => .error e
  | .ok none => .ok kept
  | .ok (some quality) => .ok (keepBetter contentType kept range quality)

/-- The loops of `best_match`. -/
def bestLoop (ranges : List Range) (supported : List String) : Except Crash (Kept K) :=
  supported.foldlM (fun kept contentType => ranges.foldlM (tryMask float contentType) kept)
    Kept.start

/-- `Accept.best_match` -/
def bestMatch (ranges : List Range) (supported : List String) :
    Except Crash (Option String × Params) :=
  (bestLoop float ranges supported).map (fun kept => (kept.bestContentType, kept.bestParams))

/-! ## What the loops keep -/

/-- The order of the pairs: a higher quality is better, then fewer wildcards are. -/
def Kept.rank (kept : Kept K) : Option (Kᵒᵈ ×ₗ ℕ) :=
  match kept.bestQuality with
  | .num q => some (toLex (OrderDual.toDual q, stars kept.bestMatch))
  | .nan => none

/-- The quality of a mask, where it can be read. -/
def qualityOf (params : Params) : Quality K :=
  match readQuality float params with
  | .ok (some quality) => quality
  | _ => .nan

def isReadable (params : Params) : Bool :=
  match readQuality float params with
  | .ok (some _) => true
  | _ => false

def keptPair (p : Pair) : Kept K := ⟨qualityOf float p.2.2, some p.1, p.2.2, p.2.1⟩

/-- The variables when a pair, or nothing yet, has been kept. -/
def keptOf (o : Option Pair) : Kept K := o.elim Kept.start (keptPair float)

def rank (o : Option Pair) : Option (Kᵒᵈ ×ₗ ℕ) := (keptOf float o).rank

/-- The pairs that can be kept; the start is one. -/
def accepts (o : Option Pair) : Bool :=
  o.elim true (fun p => isReadable float p.2.2 && matchMask p.2.1 p.1)

variable {float}

omit [One K] [Neg K] in
/-- The comparisons of the loop are those of the ranks. -/
theorem keepBetter_eq (contentType : String) (kept : Kept K) (range : Range)
    (quality : Quality K) :
    keepBetter contentType kept range quality =
      if matchMask range.1 contentType &&
        beats Kept.rank ⟨quality, some contentType, range.2, range.1⟩ kept
      then ⟨quality, some contentType, range.2, range.1⟩ else kept := by
  have hcompare : beats Kept.rank ⟨quality, some contentType, range.2, range.1⟩ kept =
      (!quality.isLess kept.bestQuality && !(kept.bestQuality.isEqual quality &&
        decide (stars kept.bestMatch ≤ stars range.1))) := by
    obtain ⟨bestQuality, bestContentType, bestParams, bestMask⟩ := kept
    cases quality with
    | nan =>
      rw [beats_of_none (Or.inl rfl)]
      cases bestQuality <;> rfl
    | num q =>
      cases bestQuality with
      | nan =>
        rw [beats_of_none (Or.inr rfl)]
        rfl
      | num r =>
        have hbeats : beats Kept.rank ⟨.num q, some contentType, range.2, range.1⟩
            ⟨.num r, bestContentType, bestParams, bestMask⟩ =
              decide (toLex (OrderDual.toDual q, stars range.1) <
                toLex (OrderDual.toDual r, stars bestMask)) := beats_of_some rfl rfl
        rw [hbeats, Bool.eq_iff_iff, decide_eq_true_iff, Prod.Lex.toLex_lt_toLex]
        simp only [Quality.isLess, Quality.isEqual, Bool.and_eq_true, Bool.not_eq_true',
          Bool.and_eq_false_imp, decide_eq_true_iff, decide_eq_false_iff_not, not_lt, not_le,
          OrderDual.toDual_lt_toDual, OrderDual.toDual_inj]
        constructor
        · rintro (hlt | ⟨rfl, hstars⟩)
          · exact ⟨hlt.le, fun heq => absurd heq hlt.ne⟩
          · exact ⟨le_rfl, fun _ => hstars⟩
        · rintro ⟨hle, heq⟩
          rcases hle.lt_or_eq with hlt | rfl
          · exact Or.inl hlt
          · exact Or.inr ⟨rfl, heq rfl⟩
  rw [hcompare]
  unfold keepBetter
  by_cases hless : quality.isLess kept.bestQuality = true
  · simp [hless]
  · by_cases hequal : (kept.bestQuality.isEqual quality &&
        decide (stars kept.bestMatch ≤ stars range.1)) = true
    · rw [if_neg hless, if_pos hequal, hequal]
      simp
    · simp [hless, hequal]

/-- **One round of the inner loop.** -/
theorem tryMask_keptOf {p : Pair} {read : Option (Quality K)} (o : Option Pair)
    (h : readQuality float p.2.2 = .ok read) :
    tryMask float p.1 (keptOf float o) p.2 =
      .ok (keptOf float (if accepts float (some p) && beats (rank float) (some p) o then some p
        else o)) := by
  have haccepts : accepts float (some p) = (isReadable float p.2.2 && matchMask p.2.1 p.1) := rfl
  rw [haccepts]
  unfold tryMask
  cases read with
  | none =>
    have hunreadable : isReadable float p.2.2 = false := by
      unfold isReadable
      rw [h]
    rw [h, hunreadable]
    rfl
  | some quality =>
    have hreadable : isReadable float p.2.2 = true := by
      unfold isReadable
      rw [h]
    have hquality : qualityOf float p.2.2 = quality := by
      unfold qualityOf
      rw [h]
    have hkept : (⟨quality, some p.1, p.2.2, p.2.1⟩ : Kept K) = keptOf float (some p) := by
      rw [← hquality]
      rfl
    have hbeats : beats (rank float) (some p) o =
        beats Kept.rank (keptOf float (some p)) (keptOf float o) := rfl
    rw [h, hreadable, Bool.true_and, hbeats]
    show Except.ok (keepBetter p.1 (keptOf float o) p.2 quality) = _
    rw [keepBetter_eq, hkept, apply_ite (keptOf float)]

/-- The inner loop inside of the outer one is a loop over the pairs. -/
theorem bestLoop_eq (ranges : List Range) (supported : List String) :
    bestLoop float ranges supported =
      (supported ×ˢ ranges).foldlM (fun kept p => tryMask float p.1 kept p.2) Kept.start := by
  unfold bestLoop
  generalize (Kept.start : Kept K) = kept
  induction supported generalizing kept with
  | nil => rfl
  | cons contentType supported ih =>
    rw [List.product_cons, List.foldlM_append, List.foldlM_cons, List.foldlM_map]
    exact bind_congr (fun kept' => ih kept')

/-- **What the loops end with**, if nothing is raised. -/
theorem foldlM_tryMask (l : List Pair) (o : Option Pair)
    (h : ∀ p ∈ l, ∃ read, readQuality float p.2.2 = .ok read) :
    l.foldlM (fun kept p => tryMask float p.1 kept p.2) (keptOf float o) =
      .ok (keptOf float (best (accepts float) (rank float) o (l.map some))) := by
  induction l generalizing o with
  | nil => rfl
  | cons p l ih =>
    obtain ⟨read, hread⟩ := h p (List.mem_cons_self ..)
    rw [List.foldlM_cons, tryMask_keptOf o hread]
    exact ih _ (fun p' hp' => h p' (List.mem_cons_of_mem _ hp'))

omit [LinearOrder K] [Neg K] in
/-- A `q` without a value is what makes `float` raise. -/
theorem readQuality_ok_iff {params : Params} :
    (∃ read, readQuality float params = .ok read) ↔ params.lookup "q" ≠ some none := by
  unfold readQuality
  rcases params.lookup "q" with _ | _ | text
  · exact iff_of_true ⟨_, rfl⟩ (Option.some_ne_none none).symm
  · refine iff_of_false ?_ (fun h => h rfl)
    rintro ⟨read, hread⟩
    cases hread
  · refine iff_of_true ⟨_, rfl⟩ ?_
    intro h
    cases h

/-- **`best_match`** raises nothing exactly if no mask has a `q` without a value. -/
theorem bestLoop_ok_iff {ranges : List Range} {supported : List String} (hne : supported ≠ [])
    {kept : Kept K} :
    bestLoop float ranges supported = .ok kept ↔
      (∀ range ∈ ranges, range.2.lookup "q" ≠ some none) ∧
        kept = keptOf float (best (accepts float) (rank float) none
          ((supported ×ˢ ranges).map some)) := by
  rw [bestLoop_eq]
  have hrun : (∀ range ∈ ranges, range.2.lookup "q" ≠ some none) →
      (supported ×ˢ ranges).foldlM (fun kept p => tryMask float p.1 kept p.2) Kept.start =
        .ok (keptOf float (best (accepts float) (rank float) none
          ((supported ×ˢ ranges).map some))) := by
    intro hq
    refine foldlM_tryMask _ none (fun p hp => ?_)
    exact readQuality_ok_iff.mpr (hq p.2 (List.mem_product.mp hp).2)
  constructor
  · intro h
    have hq : ∀ range ∈ ranges, range.2.lookup "q" ≠ some none := by
      intro range hrange
      obtain ⟨contentType, hmem⟩ := List.exists_mem_of_ne_nil _ hne
      obtain ⟨c, c', htry⟩ := Fallible.foldlM_mem_ok h (contentType, range)
        (List.mem_product.mpr ⟨hmem, hrange⟩)
      have hread : ∃ read, readQuality float range.2 = .ok read := by
        unfold tryMask at htry
        cases hread : readQuality float range.2 with
        | error e =>
          rw [hread] at htry
          cases htry
        | ok read => exact ⟨read, rfl⟩
      exact readQuality_ok_iff.mp hread
    refine ⟨hq, ?_⟩
    rw [hrun hq] at h
    exact (Except.ok.inj h).symm
  · rintro ⟨hq, rfl⟩
    exact hrun hq

theorem bestMatch_ok_iff {ranges : List Range} {supported : List String} (hne : supported ≠ [])
    {r : Option String × Params} :
    bestMatch float ranges supported = .ok r ↔
      (∀ range ∈ ranges, range.2.lookup "q" ≠ some none) ∧
        r = ((keptOf float (best (accepts float) (rank float) none
            ((supported ×ˢ ranges).map some))).bestContentType,
          (keptOf float (best (accepts float) (rank float) none
            ((supported ×ˢ ranges).map some))).bestParams) := by
  unfold bestMatch
  constructor
  · intro h
    cases hloop : bestLoop float ranges supported with
    | error e =>
      rw [hloop] at h
      cases h
    | ok kept =>
      obtain ⟨hq, rfl⟩ := (bestLoop_ok_iff hne).mp hloop
      rw [hloop] at h
      exact ⟨hq, (Except.ok.inj h).symm⟩
  · rintro ⟨hq, rfl⟩
    rw [(bestLoop_ok_iff hne).mpr ⟨hq, rfl⟩]
    rfl

end

/-! ## The best match -/

/-- A mask matches a type that it is equal to, that has its major type before `/*`, or any. -/
def ruleMatch (mask contentType : String) : Bool :=
  mask == contentType || mask == "*/*" || mask == majorType contentType ++ "/*"

/-- The pairs that match by the rule. -/
def matchesByRule (p : Pair) : Bool := ruleMatch p.2.1 p.1

/-- The pairs that match by the code. -/
def matchesByCode (p : Pair) : Bool := matchMask p.2.1 p.1

/-- What is returned for a pair. -/
def answer (o : Option Pair) : Option String × Params :=
  o.elim (none, []) (fun p => (some p.1, p.2.2))

section

variable (float : String → Option (Quality ℚ))

/-- All qualities are numbers from 0 to 1. -/
def ExactQualities (ranges : List Range) : Prop :=
  ∀ range ∈ ranges, ∃ q : ℚ, readQuality float range.2 = .ok (some (.num q)) ∧ 0 ≤ q ∧ q ≤ 1

def exactQuality (params : Params) : ℚ :=
  match qualityOf float params with
  | .num q => q
  | .nan => 0

/-- A higher quality is better, then fewer wildcards are. -/
def pairRank (p : Pair) : ℚᵒᵈ ×ₗ ℕ :=
  toLex (OrderDual.toDual (exactQuality float p.2.2), stars p.2.1)

/-- The answer is that for the first of the best pairs that match by the rule. -/
def AnswersBest (ranges : List Range) (supported : List String) : Prop :=
  ∃ o, Chosen matchesByRule (pairRank float) (supported ×ˢ ranges) o ∧
    bestMatch float ranges supported = .ok (answer o)

/-- The first of the best pairs that match by the rule is the one that is taken. -/
def TakesBest (ranges : List Range) (supported : List String) : Prop :=
  ∃ o kept, Chosen matchesByRule (pairRank float) (supported ×ˢ ranges) o ∧
    bestLoop float ranges supported = .ok kept ∧
    kept.bestContentType.map (fun t => (t, kept.bestMatch, kept.bestParams)) = o ∧
    (kept.bestContentType, kept.bestParams) = answer o

/-- The code takes one pair where the rule takes another, with the same type and options. -/
def SameAnswer (ranges : List Range) (supported : List String) : Prop :=
  ∃ p p', FirstBest matchesByCode (pairRank float) (supported ×ˢ ranges) p ∧
    FirstBest matchesByRule (pairRank float) (supported ×ˢ ranges) p' ∧
    p.1 = p'.1 ∧ p.2.2 = p'.2.2

variable {float}

theorem answer_keptOf (o : Option Pair) :
    ((keptOf float o).bestContentType, (keptOf float o).bestParams) = answer o := by
  cases o <;> rfl

theorem pair_keptOf (o : Option Pair) :
    (keptOf float o).bestContentType.map
      (fun t => (t, (keptOf float o).bestMatch, (keptOf float o).bestParams)) = o := by
  cases o <;> rfl

/-- The rank of a pair whose quality is exact. -/
theorem exact_pair {ranges : List Range} (h : ExactQualities float ranges)
    {supported : List String} {p : Pair} (hp : p ∈ supported ×ˢ ranges) :
    (∃ read, readQuality float p.2.2 = .ok read) ∧ isReadable float p.2.2 = true ∧
      rank float (some p) = some (pairRank float p) ∧ 0 ≤ exactQuality float p.2.2 := by
  obtain ⟨q, hq, hpos, -⟩ := h p.2 (List.mem_product.mp hp).2
  have hquality : qualityOf float p.2.2 = .num q := by
    unfold qualityOf
    rw [hq]
  refine ⟨⟨_, hq⟩, ?_, ?_, ?_⟩
  · unfold isReadable
    rw [hq]
  · unfold rank keptOf keptPair Kept.rank pairRank exactQuality
    simp only [Option.elim_some, hquality]
  · unfold exactQuality
    rw [hquality]
    exact hpos

/-- **The pair that is taken** is the first of the best that match by the code. -/
theorem bestLoop_chosen {ranges : List Range} (h : ExactQualities float ranges)
    (supported : List String) :
    ∃ o, Chosen matchesByCode (pairRank float) (supported ×ˢ ranges) o ∧
      bestLoop float ranges supported = .ok (keptOf float o) := by
  have hexact := fun p (hp : p ∈ supported ×ˢ ranges) => exact_pair h hp
  have hstart : accepts float none = true := rfl
  obtain ⟨front, back, hbest⟩ := best_isBest (accepts float) (rank float) hstart
    ((supported ×ˢ ranges).map some)
  refine ⟨_, chosen_of_isBest ?_ ?_ ?_ hbest, ?_⟩
  · intro p hp
    show (isReadable float p.2.2 && matchMask p.2.1 p.1) = _
    rw [(hexact p hp).2.1, Bool.true_and]
    rfl
  · exact fun p hp _ => (hexact p hp).2.2.1
  · intro p hp _
    obtain ⟨-, -, hranked, hpos⟩ := hexact p hp
    have hfloor : rank float none =
        some (toLex (OrderDual.toDual (-1), stars "*/*")) := rfl
    rw [beats_of_some hranked hfloor, decide_eq_true_iff]
    unfold pairRank
    rw [Prod.Lex.toLex_lt_toLex]
    exact Or.inl (OrderDual.toDual_lt_toDual.mpr (neg_one_lt_zero.trans_le hpos))
  · rw [bestLoop_eq]
    exact foldlM_tryMask _ none (fun p hp => (hexact p hp).1)

/-- **Content negotiation** takes the best match exactly if every pair that the code and the rule
disagree on is beaten by a pair that both accept. Otherwise its answer can only be right because
the pair it takes and the right one have the same type and options. -/
theorem best_match_iff {ranges : List Range} (h : ExactQualities float ranges)
    (supported : List String) :
    (TakesBest float ranges supported ↔
      Undisputed matchesByCode matchesByRule (pairRank float) (supported ×ˢ ranges)) ∧
    (AnswersBest float ranges supported ↔
      Undisputed matchesByCode matchesByRule (pairRank float) (supported ×ˢ ranges) ∨
        SameAnswer float ranges supported) := by
  obtain ⟨o, hcode, hloop⟩ := bestLoop_chosen h supported
  have hanswer : bestMatch float ranges supported = .ok (answer o) := by
    unfold bestMatch
    rw [hloop, ← answer_keptOf o]
    rfl
  have hiff := chosen_iff_undisputed (q := matchesByRule) hcode
  refine ⟨⟨?_, ?_⟩, ?_, ?_⟩
  · rintro ⟨o', kept, hrule, hkept, hpair, -⟩
    rw [hloop] at hkept
    cases hkept
    rw [pair_keptOf] at hpair
    exact hiff.mp (hpair ▸ hrule)
  · intro hundisputed
    exact ⟨o, keptOf float o, hiff.mpr hundisputed, hloop, pair_keptOf o, answer_keptOf o⟩
  · rintro ⟨o', hrule, hanswer'⟩
    rw [hanswer] at hanswer'
    have hsame : answer o = answer o' := Except.ok.inj hanswer'
    cases o with
    | none =>
      cases o' with
      | none => exact Or.inl (hiff.mp hrule)
      | some p' => cases hsame
    | some p =>
      cases o' with
      | none => cases hsame
      | some p' =>
        obtain ⟨htype, hparams⟩ := Prod.mk.inj hsame
        exact Or.inr ⟨p, p', hcode, hrule, Option.some.inj htype, hparams⟩
  · rintro (hundisputed | ⟨p, p', hp, hp', htype, hparams⟩)
    · exact ⟨o, hiff.mpr hundisputed, hanswer⟩
    · refine ⟨some p', hp', ?_⟩
      have ho : o = some p := Chosen.unique hcode hp
      rw [hanswer, ho]
      unfold answer
      rw [Option.elim_some, Option.elim_some, htype, hparams]

end

/-- Any text is the quality 1/2. -/
def halfQuality (_ : String) : Option (Quality ℚ) := some (.num (1 / 2))

/-- `application/*;q=0.5, application/json` -/
def jsonFirst : List Range := [("application/*", [("q", some "0.5")]), ("application/json", [])]

theorem best_match_json : AnswersBest halfQuality jsonFirst ["application/json"] := by
  have hexact : ExactQualities halfQuality jsonFirst := by
    intro range hrange
    rcases List.mem_cons.mp hrange with rfl | hrange
    · exact ⟨1 / 2, rfl, by norm_num, by norm_num⟩
    · rw [List.mem_singleton.mp hrange]
      exact ⟨1, rfl, by norm_num, by norm_num⟩
  refine (best_match_iff hexact ["application/json"]).2.mpr (Or.inl ?_)
  have hagree : ∀ p ∈ ["application/json"] ×ˢ jsonFirst, matchesByCode p = matchesByRule p := by
    decide
  intro front p back hl hne
  exact absurd (hagree p (hl ▸ List.mem_append_cons_self)) hne

/-- `application**` is taken for a mask of `application/json`. -/
theorem loose_mask_taken :
    ExactQualities halfQuality [("application**", [])] ∧
      ¬ AnswersBest halfQuality [("application**", [])] ["application/json"] := by
  refine ⟨?_, ?_⟩
  · intro range hrange
    rw [List.mem_singleton.mp hrange]
    exact ⟨1, rfl, by norm_num, by norm_num⟩
  · rintro ⟨o, hchosen, hanswer⟩
    have hno : ∀ p ∈ ["application/json"] ×ˢ [(("application**", []) : Range)],
        matchesByRule p = false := by decide
    have htaken : bestMatch halfQuality [("application**", [])] ["application/json"] =
        .ok (some "application/json", []) := rfl
    rw [htaken] at hanswer
    cases o with
    | none => cases hanswer
    | some p =>
      obtain ⟨hmem, hp⟩ := FirstBest.mem hchosen
      rw [hno p hmem] at hp
      cases hp

end PolarBear.Urlmap
