import Mathlib.Data.Prod.Lex
import PolarBear.Lib.Sweep

/-!
# API versions: which method answers a request

A controller registers several functions under one name, each for an interval of
API versions; `version_select` takes the first one whose interval has the
request's version. `api_version` refuses a registration that makes two intervals
meet, by a sweep over their endpoints.

The sweep is wrong about three things. A method without an end version is
entered with the end `0.0`, which sorts before every start, so an unbounded
method never raises the counter but lowers it for everyone else until its start
is reached. And of a start and an end at one version the one registered first
comes first, so two intervals that touch are found or missed by their order.
`intersection_exact_iff` is the exact boundary: a meeting is found when at some
start enough bounded intervals are open to make up for the unbounded ones that
have not started.
-/

namespace PolarBear.Api

open PolarBear.Sweep (Event sweep weight before at_)

/-- A version `X.Y`; the null version is `0.0`. -/
structure APIVersionRequest where
  verMajor : Nat
  verMinor : Nat
  deriving DecidableEq, Repr

/-- Versions are compared as pairs. -/
instance : LinearOrder APIVersionRequest :=
  LinearOrder.lift' (fun v => toLex (v.verMajor, v.verMinor)) (by
    intro v w h
    cases v
    cases w
    simpa using h)

/-- The null version. -/
def APIVersionRequest.null : APIVersionRequest := ⟨0, 0⟩

def APIVersionRequest.isNull (v : APIVersionRequest) : Bool := v.verMajor == 0 && v.verMinor == 0

/-- `matches`; `none` is its `ValueError`. -/
def APIVersionRequest.isMatch (v minVersion maxVersion : APIVersionRequest) : Option Bool :=
  if v.isNull then none
  else if maxVersion.isNull && minVersion.isNull then some true
  else if maxVersion.isNull then some (decide (minVersion ≤ v))
  else if minVersion.isNull then some (decide (v ≤ maxVersion))
  else some (decide (minVersion ≤ v ∧ v ≤ maxVersion))

/-- A function registered for an interval of versions; a null end is no end. -/
structure VersionedMethod (φ : Type) where
  name : String
  startVersion : APIVersionRequest
  endVersion : APIVersionRequest
  func : φ

variable {φ : Type}

/-- The two events of a method. -/
def pairs (funcList : List (VersionedMethod φ)) : List (Event APIVersionRequest) :=
  funcList.flatMap (fun f => [(f.startVersion, 1), (f.endVersion, -1)])

def checkForVersionsIntersection (funcList : List (VersionedMethod φ)) : Bool :=
  sweep 1 (pairs funcList)

/-- `func_list.sort(key=lambda f: f.start_version, reverse=True)`. -/
def sortMethods (funcList : List (VersionedMethod φ)) : List (VersionedMethod φ) :=
  funcList.insertionSort (fun f g => g.startVersion ≤ f.startVersion)

/-- One use of the decorator `api_version`: append, check, sort. `none` is
`ApiVersionsIntersect`. -/
def register (funcList : List (VersionedMethod φ)) (newFunc : VersionedMethod φ) :
    Option (List (VersionedMethod φ)) :=
  if checkForVersionsIntersection (funcList ++ [newFunc]) then none
  else some (sortMethods (funcList ++ [newFunc]))

/-- The registrations of one name, in order. -/
def registerAll (funcList : List (VersionedMethod φ)) :
    List (VersionedMethod φ) → Option (List (VersionedMethod φ))
  | [] => some funcList
  | f :: fs =>
    match register funcList f with
    | some funcList' => registerAll funcList' fs
    | none => none

/-- `version_select`; `none` is an exception: `ValueError` for the null
version, `VersionNotFoundForAPIMethod` for one no method has. -/
def versionSelect (ver : APIVersionRequest) : List (VersionedMethod φ) → Option φ
  | [] => none
  | f :: fs =>
    match ver.isMatch f.startVersion f.endVersion with
    | none => none
    | some true => some f.func
    | some false => versionSelect ver fs

/-! ## Intervals -/

/-- The method answers version `v`. -/
def VersionedMethod.Contains (f : VersionedMethod φ) (v : APIVersionRequest) : Prop :=
  f.startVersion ≤ v ∧ (f.endVersion.isNull = true ∨ v ≤ f.endVersion)

/-- A start that is a version, and an end that is null or not before it. -/
structure VersionedMethod.Valid (f : VersionedMethod φ) : Prop where
  start : f.startVersion.isNull = false
  ordered : f.endVersion.isNull = true ∨ f.startVersion ≤ f.endVersion

/-- Two methods of the list share a version. -/
def Overlap (funcList : List (VersionedMethod φ)) : Prop :=
  ∃ f g v, [f, g].Sublist funcList ∧ f.Contains v ∧ g.Contains v

/-- The method has an end and is open when the sweep comes to `k` among the
events before: it started, at the latest at `k`, and does not end by then. -/
def openBefore (k : APIVersionRequest) (g : VersionedMethod φ) : Bool :=
  !g.endVersion.isNull && decide (g.startVersion ≤ k ∧ k < g.endVersion)

/-- The same for a method whose events at `k` come later. -/
def openAfter (k : APIVersionRequest) (g : VersionedMethod φ) : Bool :=
  !g.endVersion.isNull && decide (g.startVersion < k ∧ k ≤ g.endVersion)

/-- The bounded methods open at the start of `f`, with `f` itself. -/
def running (L₁ : List (VersionedMethod φ)) (f : VersionedMethod φ)
    (L₂ : List (VersionedMethod φ)) : Nat :=
  L₁.countP (openBefore f.startVersion) + L₂.countP (openAfter f.startVersion) +
    (if f.endVersion.isNull then 0 else 1)

/-- The method has no end and starts at or after `k`. -/
def lateFrom (k : APIVersionRequest) (g : VersionedMethod φ) : Bool :=
  g.endVersion.isNull && decide (k ≤ g.startVersion)

/-- The method has no end and starts after `k`. -/
def lateAfter (k : APIVersionRequest) (g : VersionedMethod φ) : Bool :=
  g.endVersion.isNull && decide (k < g.startVersion)

/-- The unbounded methods whose end is already counted at the start of `f`, but
whose start is not. -/
def pending (L₁ : List (VersionedMethod φ)) (f : VersionedMethod φ)
    (L₂ : List (VersionedMethod φ)) : Nat :=
  L₁.countP (lateAfter f.startVersion) + L₂.countP (lateFrom f.startVersion)

/-- At the start of some method two more bounded methods are open than
unbounded ones are pending. -/
def Detected (funcList : List (VersionedMethod φ)) : Prop :=
  ∃ L₁ f L₂, funcList = L₁ ++ f :: L₂ ∧ pending L₁ f L₂ + 2 ≤ running L₁ f L₂

/-! ## The sweep over endpoints -/

/-- The null version is below every other. -/
theorem null_lt {v k : APIVersionRequest} (hv : v.isNull = true) (hk : k.isNull = false) :
    v < k := by
  have hv0 : v.verMajor = 0 ∧ v.verMinor = 0 := by simpa [APIVersionRequest.isNull] using hv
  have hk0 : ¬ (k.verMajor = 0 ∧ k.verMinor = 0) := by
    intro h
    simp [APIVersionRequest.isNull, h.1, h.2] at hk
  show toLex (v.verMajor, v.verMinor) < toLex (k.verMajor, k.verMinor)
  rw [Prod.Lex.toLex_lt_toLex]
  dsimp only
  omega

theorem pairs_cons (f : VersionedMethod φ) (L : List (VersionedMethod φ)) :
    pairs (f :: L) = (f.startVersion, 1) :: (f.endVersion, -1) :: pairs L := rfl

theorem pairs_append (L₁ L₂ : List (VersionedMethod φ)) :
    pairs (L₁ ++ L₂) = pairs L₁ ++ pairs L₂ := List.flatMap_append

/-- An event of positive weight is the start of a method. -/
theorem pairs_split :
    ∀ {L : List (VersionedMethod φ)} {l₁ l₂ : List (Event APIVersionRequest)}
      {p : Event APIVersionRequest}, pairs L = l₁ ++ p :: l₂ → 0 < p.2 →
      ∃ L₁ f L₂, L = L₁ ++ f :: L₂ ∧ l₁ = pairs L₁ ∧ p = (f.startVersion, 1) := by
  intro L
  induction L with
  | nil =>
    intro l₁ l₂ p h _
    simp [pairs] at h
  | cons f L ih =>
    intro l₁ l₂ p h hp
    rw [pairs_cons] at h
    cases l₁ with
    | nil =>
      simp only [List.nil_append, List.cons.injEq] at h
      exact ⟨[], f, L, rfl, rfl, h.1.symm⟩
    | cons q l₁ =>
      simp only [List.cons_append, List.cons.injEq] at h
      cases l₁ with
      | nil =>
        -- the end of `f` has negative weight
        simp only [List.nil_append, List.cons.injEq] at h
        rw [← h.2.1] at hp
        exact absurd hp (by simp)
      | cons r l₁ =>
        simp only [List.cons_append, List.cons.injEq] at h
        obtain ⟨L₁, g, L₂, hL, hl₁, hg⟩ := ih h.2.2 hp
        refine ⟨f :: L₁, g, L₂, by rw [hL]; rfl, ?_, hg⟩
        rw [pairs_cons, ← h.1, ← h.2.1, hl₁]

/-- What the two events of a method add before `k`. -/
theorem weight_before_cons (k : APIVersionRequest) (f : VersionedMethod φ)
    (L : List (VersionedMethod φ)) :
    weight (before k (pairs (f :: L))) = (if f.startVersion < k then 1 else 0) -
      (if f.endVersion < k then 1 else 0) + weight (before k (pairs L)) := by
  unfold before
  rw [pairs_cons, List.filter_cons, List.filter_cons]
  by_cases hs : f.startVersion < k <;> by_cases he : f.endVersion < k <;> simp [hs, he]

/-- And at `k`. -/
theorem weight_at_cons (k : APIVersionRequest) (f : VersionedMethod φ)
    (L : List (VersionedMethod φ)) :
    weight (at_ k (pairs (f :: L))) = (if f.startVersion = k then 1 else 0) -
      (if f.endVersion = k then 1 else 0) + weight (at_ k (pairs L)) := by
  unfold at_
  rw [pairs_cons, List.filter_cons, List.filter_cons]
  by_cases hs : f.startVersion = k <;> by_cases he : f.endVersion = k <;> simp [hs, he]

/-- Before `k`, a valid method counts up if it is open after, and down if it
comes late. -/
theorem count_before {k : APIVersionRequest} (hk : k.isNull = false) {f : VersionedMethod φ}
    (hf : f.Valid) :
    ((if f.startVersion < k then 1 else 0) - (if f.endVersion < k then 1 else 0) : Int)
      = (if openAfter k f then 1 else 0) - (if lateFrom k f then 1 else 0) := by
  unfold openAfter lateFrom
  cases hnull : f.endVersion.isNull with
  | true =>
    rw [if_pos (null_lt hnull hk)]
    by_cases hs : f.startVersion < k
    · simp [hs, not_le.mpr hs]
    · simp [hs, not_lt.mp hs]
  | false =>
    have hle : f.startVersion ≤ f.endVersion := by
      have := hf.ordered
      rwa [hnull, Bool.false_eq_true, false_or] at this
    by_cases he : f.endVersion < k
    · simp [he, lt_of_le_of_lt hle he, not_le.mpr he]
    · simp [he, not_lt.mp he]

/-- Up to `k` itself, it counts up if it is open before, and down if it comes
after. -/
theorem count_upto {k : APIVersionRequest} (hk : k.isNull = false) {f : VersionedMethod φ}
    (hf : f.Valid) :
    ((if f.startVersion < k then 1 else 0) - (if f.endVersion < k then 1 else 0) +
        ((if f.startVersion = k then 1 else 0) - (if f.endVersion = k then 1 else 0)) : Int)
      = (if openBefore k f then 1 else 0) - (if lateAfter k f then 1 else 0) := by
  have hjoin : ∀ v : APIVersionRequest, ((if v < k then 1 else 0) + (if v = k then 1 else 0) : Int)
      = if v ≤ k then 1 else 0 := by
    intro v
    rcases lt_trichotomy v k with h | h | h
    · simp [h, h.le, h.ne]
    · simp [h]
    · simp [h.not_gt, h.ne', not_le.mpr h]
  have hs := hjoin f.startVersion
  have he := hjoin f.endVersion
  have hgoal : ((if f.startVersion ≤ k then 1 else 0) - (if f.endVersion ≤ k then 1 else 0) : Int)
      = (if openBefore k f then 1 else 0) - (if lateAfter k f then 1 else 0) := by
    unfold openBefore lateAfter
    cases hnull : f.endVersion.isNull with
    | true =>
      rw [if_pos (null_lt hnull hk).le]
      by_cases hle : f.startVersion ≤ k
      · simp [hle, not_lt.mpr hle]
      · simp [hle, not_le.mp hle]
    | false =>
      have hle : f.startVersion ≤ f.endVersion := by
        have := hf.ordered
        rwa [hnull, Bool.false_eq_true, false_or] at this
      by_cases hek : f.endVersion ≤ k
      · simp [hek, hle.trans hek, not_lt.mpr hek]
      · simp [hek, not_le.mp hek]
  omega

theorem cast_indicator (b : Bool) :
    (((if b then 1 else 0 : Nat)) : Int) = if b then 1 else 0 := by
  cases b <;> rfl

/-- What the events before `k` add up to. -/
theorem weight_before {k : APIVersionRequest} (hk : k.isNull = false) :
    ∀ L : List (VersionedMethod φ), (∀ f ∈ L, f.Valid) →
      weight (before k (pairs L)) = (L.countP (openAfter k) : Int) - L.countP (lateFrom k) := by
  intro L
  induction L with
  | nil => intro _; rfl
  | cons f L ih =>
    intro hvalid
    have hL := ih (fun g hg => hvalid g (List.mem_cons_of_mem _ hg))
    have hf := count_before hk (hvalid f (List.mem_cons_self ..))
    rw [weight_before_cons, hL, hf, List.countP_cons, List.countP_cons, Int.natCast_add,
      Int.natCast_add, cast_indicator, cast_indicator]
    omega

/-- What the events up to `k` add up to. -/
theorem weight_upto {k : APIVersionRequest} (hk : k.isNull = false) :
    ∀ L : List (VersionedMethod φ), (∀ f ∈ L, f.Valid) →
      weight (before k (pairs L)) + weight (at_ k (pairs L))
        = (L.countP (openBefore k) : Int) - L.countP (lateAfter k) := by
  intro L
  induction L with
  | nil => intro _; rfl
  | cons f L ih =>
    intro hvalid
    have hL := ih (fun g hg => hvalid g (List.mem_cons_of_mem _ hg))
    have hf := count_upto hk (hvalid f (List.mem_cons_self ..))
    rw [weight_before_cons, weight_at_cons, List.countP_cons, List.countP_cons, Int.natCast_add,
      Int.natCast_add, cast_indicator, cast_indicator]
    omega

/-- The counter right after the start of `f`. -/
theorem counter_at {L₁ L₂ : List (VersionedMethod φ)} {f : VersionedMethod φ}
    (hvalid : ∀ g ∈ L₁ ++ f :: L₂, g.Valid) :
    weight (before f.startVersion (pairs (L₁ ++ f :: L₂)))
        + weight (at_ f.startVersion (pairs L₁)) + 1
      = (running L₁ f L₂ : Int) - pending L₁ f L₂ := by
  have hf : f.Valid := hvalid f (by simp)
  have h₁ := weight_upto hf.start L₁ (fun g hg => hvalid g (by simp [hg]))
  have h₂ := weight_before hf.start L₂ (fun g hg => hvalid g (by simp [hg]))
  have hself : ((if f.startVersion < f.startVersion then 1 else 0) -
      (if f.endVersion < f.startVersion then 1 else 0) : Int)
        = if f.endVersion.isNull then -1 else 0 := by
    rw [count_before hf.start hf]
    unfold openAfter lateFrom
    cases f.endVersion.isNull with
    | true => simp
    | false => simp
  have hsplit : weight (before f.startVersion (pairs (L₁ ++ f :: L₂)))
      = weight (before f.startVersion (pairs L₁))
        + weight (before f.startVersion (pairs (f :: L₂))) := by
    unfold before
    rw [pairs_append, List.filter_append, Sweep.weight_append]
  rw [hsplit, weight_before_cons, hself, h₂]
  unfold running pending
  split <;> push_cast <;> omega

/-- **What the check finds.** -/
theorem check_iff_detected {L : List (VersionedMethod φ)} (hvalid : ∀ f ∈ L, f.Valid) :
    checkForVersionsIntersection L = true ↔ Detected L := by
  unfold checkForVersionsIntersection Detected
  rw [Sweep.sweep_iff (by decide)]
  constructor
  · intro h
    obtain ⟨l₁, p, l₂, heq, hp, hsum⟩ := h
    obtain ⟨L₁, f, L₂, hL, hl₁, hpf⟩ := pairs_split heq hp
    refine ⟨L₁, f, L₂, hL, ?_⟩
    rw [hL] at hvalid hsum
    rw [hpf, hl₁] at hsum
    have := counter_at hvalid
    dsimp only at hsum
    omega
  · intro h
    obtain ⟨L₁, f, L₂, hL, hcount⟩ := h
    rw [hL] at hvalid ⊢
    refine ⟨pairs L₁, (f.startVersion, 1), (f.endVersion, -1) :: pairs L₂, ?_, by simp, ?_⟩
    · rw [pairs_append, pairs_cons]
    · have := counter_at hvalid
      dsimp only
      omega

/-- What the check finds is there: the method and one that is open meet at its
start. -/
theorem overlap_of_detected {L : List (VersionedMethod φ)} (hvalid : ∀ f ∈ L, f.Valid)
    (h : Detected L) : Overlap L := by
  obtain ⟨L₁, f, L₂, hL, hcount⟩ := h
  have hf : f.Valid := hvalid f (by simp [hL])
  have hself : f.Contains f.startVersion := ⟨le_refl _, hf.ordered⟩
  have hopen : 0 < L₁.countP (openBefore f.startVersion) ∨
      0 < L₂.countP (openAfter f.startVersion) := by
    unfold running at hcount
    split at hcount <;> omega
  rcases hopen with hbefore | hafter
  · obtain ⟨g, hg, hopen⟩ := List.countP_pos_iff.mp hbefore
    obtain ⟨-, hstart, hend⟩ : _ ∧ g.startVersion ≤ _ ∧ _ := by
      simpa [openBefore] using hopen
    refine ⟨g, f, f.startVersion, ?_, ⟨hstart, Or.inr hend.le⟩, hself⟩
    rw [hL]
    exact (List.singleton_sublist.mpr hg).append (List.singleton_sublist.mpr (by simp))
  · obtain ⟨g, hg, hopen⟩ := List.countP_pos_iff.mp hafter
    obtain ⟨-, hstart, hend⟩ : _ ∧ g.startVersion < _ ∧ _ := by
      simpa [openAfter] using hopen
    refine ⟨f, g, f.startVersion, ?_, hself, ⟨hstart.le, Or.inr hend⟩⟩
    rw [hL]
    exact ((List.singleton_sublist.mpr hg).cons_cons f).trans (List.sublist_append_right ..)

/-- **Where the check is exact**: it never reports an intersection that is not
there, and misses one exactly when it is not detected. -/
theorem intersection_exact_iff {L : List (VersionedMethod φ)} (hvalid : ∀ f ∈ L, f.Valid) :
    (checkForVersionsIntersection L = true ↔ Overlap L) ↔ (Overlap L → Detected L) := by
  rw [check_iff_detected hvalid]
  exact ⟨fun h => h.mpr, fun h => ⟨overlap_of_detected hvalid, h⟩⟩

end PolarBear.Api
