import PolarBear.Py.Value
import Mathlib.Data.List.Count

/-!
# `summary`: counting cases of a result map

`report_result` recomputes the plan's summary from the whole result map with a
nested loop over cases and steps. The loop skips every key that `int()`
rejects (the `ValueError` is caught and printed) and, because of the
`isinstance(int(key), (int,))` test, also every key that `int()` reads as a
`long`. A case fails when some step's status equals `"FAIL"`; a case that is
not a dictionary, or has no step, counts as successful.

`summary_eq` turns the accumulating loop into three counts over the map, the
form in which everything later uses it.
-/

namespace PolarBear.Report

open PolarBear.Py

/-- `v == "FAIL"`. -/
def isFail : Json → Bool
  | .str s => s == "FAIL"
  | _ => false

/-- Some step of the case has status `"FAIL"`; only dictionaries have steps. -/
def caseFails : Json → Bool
  | .obj steps => steps.any (fun kv => isFail kv.2)
  | _ => false

/-- `isinstance(int(key), (int,))`, false when `int` raises. -/
def isCase (key : String) : Bool :=
  match pyInt key with
  | some n => isPyInt n
  | none => false

/-- The three counters of the loop. -/
structure Counts where
  total : Nat
  failure : Nat
  sucessfully : Nat
  deriving DecidableEq, Repr

/-- One round of the loop: the `try` body for one `(key, value)`. -/
def summaryStep (acc : Counts) (kv : String × Json) : Counts :=
  match pyInt kv.1 with
  | none => acc
  | some n =>
    if isPyInt n then
      if caseFails kv.2 then { acc with total := acc.total + 1, failure := acc.failure + 1 }
      else { acc with total := acc.total + 1, sucessfully := acc.sucessfully + 1 }
    else acc

def summary (template : List (String × Json)) : Counts :=
  template.foldl summaryStep ⟨0, 0, 0⟩

/-- The number of cases the loop looks at. -/
def caseCount (template : List (String × Json)) : Nat :=
  template.countP (fun kv => isCase kv.1)

/-- The number of those with some failed step. -/
def failCount (template : List (String × Json)) : Nat :=
  template.countP (fun kv => isCase kv.1 && caseFails kv.2)

theorem summaryStep_eq (acc : Counts) (kv : String × Json) :
    summaryStep acc kv =
      if isCase kv.1 then
        if caseFails kv.2 then { acc with total := acc.total + 1, failure := acc.failure + 1 }
        else { acc with total := acc.total + 1, sucessfully := acc.sucessfully + 1 }
      else acc := by
  unfold summaryStep isCase
  cases pyInt kv.1 with
  | none => rfl
  | some n => rfl

/-- The loop adds to each counter what the rest of the map contributes. -/
theorem foldl_summaryStep :
    ∀ (template : List (String × Json)) (acc : Counts),
      template.foldl summaryStep acc =
        ⟨acc.total + caseCount template, acc.failure + failCount template,
          acc.sucessfully + (caseCount template - failCount template)⟩ := by
  intro template
  induction template with
  | nil => intro acc; rfl
  | cons kv rest ih =>
    intro acc
    have hle : failCount rest ≤ caseCount rest :=
      List.countP_mono_left (fun kv _ h => by
        simp only [Bool.and_eq_true] at h
        exact h.1)
    rw [List.foldl_cons, ih, summaryStep_eq]
    simp only [caseCount, failCount] at hle ⊢
    rw [List.countP_cons, List.countP_cons]
    cases hc : isCase kv.1 with
    | false => simp
    | true =>
      cases hf : caseFails kv.2 with
      | false =>
        simp only [Bool.and_false, Bool.false_eq_true, if_true, if_false,
          Counts.mk.injEq]
        omega
      | true =>
        simp only [Bool.and_true, if_true, Counts.mk.injEq]
        omega

/-- **What `summary` computes**: the cases it looks at, those of them that
fail, and the difference. -/
theorem summary_eq (template : List (String × Json)) :
    summary template =
      ⟨caseCount template, failCount template, caseCount template - failCount template⟩ := by
  unfold summary
  rw [foldl_summaryStep]
  simp

/-- A map with a case has a positive total. -/
theorem caseCount_pos {template : List (String × Json)} {k : String}
    (hk : k ∈ Dict.keys template) (hcase : isCase k = true) : 0 < caseCount template := by
  obtain ⟨kv, hkv, rfl⟩ := List.mem_map.mp hk
  exact List.countP_pos_iff.mpr ⟨kv, hkv, hcase⟩

end PolarBear.Report
