import Mathlib.Data.List.Nodup
import Mathlib.Data.List.Sort

/-!
# Rows in the order of their keys

A comparison of keys is a linear order that tells all keys apart. Rows with distinct keys
have one order, in which each key is below the next (`sortBy_ascending`,
`eq_of_ascending`). What a selection of the keys above a row leaves, sorted, is what
follows that row (`sortBy_above`).
-/

namespace PolarBear.Sorting

variable {ρ γ : Type} (cmp : γ → γ → Ordering) (key : ρ → γ)

/-- The rows, sorted by their keys. -/
def sortBy (rows : List ρ) : List ρ := rows.mergeSort (fun a b => cmp (key a) (key b) != .gt)

/-- Each key is below the next. -/
def Ascending (rows : List ρ) : Prop := rows.Pairwise (fun a b => cmp (key a) (key b) = .lt)

variable {cmp key} {rows done rest : List ρ} {r : ρ}

theorem sortBy_perm (rows : List ρ) : (sortBy cmp key rows).Perm rows := List.mergeSort_perm _ _

variable [Std.TransCmp cmp]

/-- There is one ascending order. -/
theorem eq_of_ascending {rows' : List ρ} (h : Ascending cmp key rows)
    (h' : Ascending cmp key rows') (hperm : rows.Perm rows') : rows = rows' := by
  refine hperm.eq_of_pairwise (fun a b _ _ hab hba => ?_) h h'
  have hnot : cmp (key b) (key a) ≠ .lt := Std.OrientedCmp.not_lt_of_lt hab
  exact absurd hba hnot

variable [Std.LawfulEqCmp cmp]

theorem sortBy_ascending (h : (rows.map key).Nodup) : Ascending cmp key (sortBy cmp key rows) := by
  have hsorted : (sortBy cmp key rows).Pairwise
      (fun a b => (cmp (key a) (key b) != .gt) = true) := by
    refine List.pairwise_mergeSort (fun a b c hab hbc => ?_) (fun a b => ?_) rows
    · rw [bne_iff_ne] at hab hbc ⊢
      exact Ordering.ne_gt_iff_isLE.mpr (Std.TransCmp.isLE_trans
        (Ordering.ne_gt_iff_isLE.mp hab) (Ordering.ne_gt_iff_isLE.mp hbc))
    · rw [Bool.or_eq_true, bne_iff_ne, bne_iff_ne]
      by_cases hgt : cmp (key a) (key b) = .gt
      · rw [Std.OrientedCmp.lt_of_gt hgt]
        exact .inr (by decide)
      · exact .inl hgt
  have hnodup : ((sortBy cmp key rows).map key).Nodup :=
    ((sortBy_perm rows).map key).nodup_iff.mpr h
  have hdistinct : (sortBy cmp key rows).Pairwise (fun a b => key a ≠ key b) :=
    List.pairwise_map.mp hnodup
  refine (hsorted.and hdistinct).imp (fun {a b} hab => ?_)
  cases hcmp : cmp (key a) (key b) with
  | lt => rfl
  | eq => exact absurd (Std.LawfulEqCmp.eq_of_compare hcmp) hab.2
  | gt =>
    have hle := hab.1
    rw [hcmp] at hle
    cases hle

/-- Of rows in ascending order, those above one of them are what follows it. -/
theorem filter_above (h : Ascending cmp key (done ++ r :: rest)) :
    (done ++ r :: rest).filter (fun a => cmp (key a) (key r) == .gt) = rest := by
  obtain ⟨-, htail, hcross⟩ := List.pairwise_append.mp h
  obtain ⟨hafter, -⟩ := List.pairwise_cons.mp htail
  have hdone : done.filter (fun a => cmp (key a) (key r) == .gt) = [] := by
    refine List.filter_eq_nil_iff.mpr (fun a ha hgt => ?_)
    have hlt := hcross a ha r (List.mem_cons_self ..)
    rw [hlt] at hgt
    cases hgt
  have heq : cmp (key r) (key r) = .eq := Std.ReflCmp.compare_self
  have hself : ¬ (cmp (key r) (key r) == .gt) = true := by
    rw [heq]
    decide
  rw [List.filter_append, hdone, List.nil_append,
    List.filter_cons_of_neg (p := fun a => cmp (key a) (key r) == .gt) hself, List.filter_eq_self]
  exact fun a ha => beq_iff_eq.mpr (Std.OrientedCmp.gt_of_lt (hafter a ha))

/-- **What follows a row** are the rows above it, sorted. -/
theorem sortBy_above (h : (rows.map key).Nodup) (hrows : sortBy cmp key rows = done ++ r :: rest) :
    sortBy cmp key (rows.filter (fun a => cmp (key a) (key r) == .gt)) = rest := by
  have hascending : Ascending cmp key (sortBy cmp key rows) := sortBy_ascending h
  rw [hrows] at hascending
  have hsub : (rows.filter (fun a => cmp (key a) (key r) == .gt)).Sublist rows :=
    List.filter_sublist
  have hrest : Ascending cmp key rest :=
    (List.pairwise_cons.mp (List.pairwise_append.mp hascending).2.1).2
  refine eq_of_ascending (sortBy_ascending (h.sublist (hsub.map key))) hrest ?_
  have hperm : (rows.filter (fun a => cmp (key a) (key r) == .gt)).Perm
      ((sortBy cmp key rows).filter (fun a => cmp (key a) (key r) == .gt)) :=
    (sortBy_perm rows).symm.filter _
  rw [hrows, filter_above hascending] at hperm
  exact (sortBy_perm _).trans hperm

end PolarBear.Sorting
