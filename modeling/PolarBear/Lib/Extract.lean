import Mathlib.Data.List.Perm.Basic
import Mathlib.Data.List.Perm.Lattice
import Mathlib.Data.List.Nodup
import Mathlib.Data.List.Sort

/-!
# Taking the first rows out of a table

`firsts` selects the first `n` of the rows that satisfy a condition, in some order,
and `without` deletes the rows that have a key of the selected ones. Where keys are
unique the two are the table again, up to the order (`without_append_perm`), and if
fewer than `n` rows were selected, no row that satisfies the condition is left
(`eq_false_of_mem_without`).
-/

namespace PolarBear.Extract

variable {ρ κ : Type} [DecidableEq κ] {le : ρ → ρ → Bool} {key : ρ → κ} {p : ρ → Bool} {n : Nat}
  {rows taken : List ρ}

/-- `SELECT ... WHERE p ORDER BY ... LIMIT n`. -/
def firsts (le : ρ → ρ → Bool) (p : ρ → Bool) (n : Nat) (rows : List ρ) : List ρ :=
  ((rows.filter p).insertionSort (fun r r' => le r r' = true)).take n

/-- The rows that have a key of one of `taken`. -/
def matching (key : ρ → κ) (taken rows : List ρ) : List ρ :=
  rows.filter (fun r => key r ∈ taken.map key)

/-- `DELETE ... WHERE key IN ...`: what is left. -/
def without (key : ρ → κ) (taken rows : List ρ) : List ρ :=
  rows.filter (fun r => !decide (key r ∈ taken.map key))

theorem length_firsts_le (le : ρ → ρ → Bool) (p : ρ → Bool) (n : Nat) (rows : List ρ) :
    (firsts le p n rows).length ≤ n := List.length_take_le n _

theorem firsts_subperm (le : ρ → ρ → Bool) (p : ρ → Bool) (n : Nat) (rows : List ρ) :
    (firsts le p n rows).Subperm (rows.filter p) :=
  (List.take_sublist n _).subperm.trans (List.perm_insertionSort _ _).subperm

theorem mem_firsts {r : ρ} (h : r ∈ firsts le p n rows) : r ∈ rows ∧ p r = true :=
  List.mem_filter.mp ((firsts_subperm le p n rows).subset h)

/-- The selected rows are the ones deleted. -/
theorem matching_perm (hkeys : (rows.map key).Nodup) (h : taken.Subperm rows) :
    (matching key taken rows).Perm taken := by
  have hrows : rows.Nodup := hkeys.of_map
  have htaken : taken.Nodup := by
    obtain ⟨l, hperm, hsub⟩ := h
    exact hperm.nodup_iff.mp (hrows.sublist hsub)
  refine (List.perm_ext_iff_of_nodup (hrows.filter _) htaken).mpr (fun r => ?_)
  rw [List.mem_filter, decide_eq_true_iff, List.mem_map]
  constructor
  · rintro ⟨hr, q, hq, heq⟩
    rw [← List.inj_on_of_nodup_map hkeys (h.subset hq) hr heq]
    exact hq
  · intro hr
    exact ⟨h.subset hr, r, hr, rfl⟩

/-- **Nothing is lost**: what is left and what was selected are the rows. -/
theorem without_append_perm (hkeys : (rows.map key).Nodup) (h : taken.Subperm rows) :
    (without key taken rows ++ taken).Perm rows := by
  have hsplit : (matching key taken rows ++ without key taken rows).Perm rows :=
    List.filter_append_perm _ rows
  exact List.perm_append_comm.trans (((matching_perm hkeys h).symm.append_right _).trans hsplit)

theorem without_sublist (key : ρ → κ) (taken rows : List ρ) :
    (without key taken rows).Sublist rows := List.filter_sublist

theorem notMem_of_mem_without {r : ρ} (h : r ∈ without key taken rows) : r ∉ taken := by
  intro hr
  have hkey := (List.mem_filter.mp h).2
  rw [decide_eq_true (List.mem_map_of_mem hr)] at hkey
  cases hkey

/-- **Fewer than `n` were found**: no row that satisfies the condition is left. -/
theorem eq_false_of_mem_without (h : (firsts le p n rows).length < n) {r : ρ}
    (hr : r ∈ without key (firsts le p n rows) rows) : p r = false := by
  by_contra hp
  have hall : (rows.filter p).insertionSort (fun r r' => le r r' = true) =
      firsts le p n rows := by
    unfold firsts at h ⊢
    rw [List.length_take] at h
    exact (List.take_of_length_le (by omega)).symm
  have hin : r ∈ (rows.filter p).insertionSort (fun r r' => le r r' = true) :=
    (List.perm_insertionSort _ _).symm.subset
      (List.mem_filter.mpr ⟨(without_sublist key _ rows).subset hr, by simpa using hp⟩)
  rw [hall] at hin
  exact notMem_of_mem_without hr hin

end PolarBear.Extract
