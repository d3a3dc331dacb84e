import Mathlib.Data.List.Nodup

/-!
# Joining rows with what belongs to them

Each row has some things that belong to it. A join with a condition on these gives a row
as often as the condition holds of something that belongs to it; so it selects the rows
for which that is the case, and each of them once if nothing that belongs to one row meets
the condition twice. A key that belongs to a row at most once is such a condition.
-/

namespace PolarBear.Join

variable {α β κ : Type}

/-- The rows, joined with what belongs to them, where it meets a condition. -/
def join (belonging : α → List β) (on : β → Bool) (rows : List α) : List α :=
  rows.flatMap (fun a => ((belonging a).filter on).map (fun _ => a))

variable {belonging : α → List β} {on : β → Bool}

/-- A join on a condition that is met once at most selects rows. -/
theorem join_eq_filter (rows : List α)
    (honce : ∀ a ∈ rows, ((belonging a).filter on).length ≤ 1) :
    join belonging on rows = rows.filter (fun a => (belonging a).any on) := by
  induction rows with
  | nil => rfl
  | cons a rows ih =>
    have hrest := ih (fun b hb => honce b (List.mem_cons_of_mem _ hb))
    show ((belonging a).filter on).map (fun _ => a) ++ join belonging on rows = _
    rw [hrest]
    cases hmatch : (belonging a).filter on with
    | nil =>
      have hnone : ¬ (belonging a).any on = true := by
        rw [List.any_eq_true]
        rintro ⟨b, hb⟩
        exact List.filter_eq_nil_iff.mp hmatch b hb.1 hb.2
      rw [List.filter_cons_of_neg (p := fun a => (belonging a).any on) hnone]
      rfl
    | cons b more =>
      have hone := honce a (List.mem_cons_self ..)
      rw [hmatch] at hone
      obtain rfl : more = [] :=
        List.length_eq_zero_iff.mp (Nat.le_zero.mp (Nat.le_of_succ_le_succ hone))
      have hb : b ∈ (belonging a).filter on := by
        rw [hmatch]
        exact List.mem_cons_self ..
      rw [List.filter_cons_of_pos (p := fun a => (belonging a).any on)
        (List.any_eq_true.mpr ⟨b, List.mem_filter.mp hb⟩)]
      rfl

/-- Of things with distinct keys at most one has a given key. -/
theorem once_of_nodup [DecidableEq κ] {l : List β} {key : β → κ} (h : (l.map key).Nodup) (k : κ) :
    (l.filter (fun b => key b == k)).length ≤ 1 := by
  induction l with
  | nil => exact Nat.zero_le _
  | cons b l ih =>
    obtain ⟨hnew, hrest⟩ := List.nodup_cons.mp h
    by_cases hb : key b = k
    · have hnone : l.filter (fun b => key b == k) = [] := by
        refine List.filter_eq_nil_iff.mpr (fun b' hb' heq => hnew ?_)
        rw [hb, ← beq_iff_eq.mp heq]
        exact List.mem_map_of_mem hb'
      rw [List.filter_cons_of_pos (p := fun b => key b == k) (beq_iff_eq.mpr hb), hnone]
      exact Nat.le_refl _
    · rw [List.filter_cons_of_neg (p := fun b => key b == k) (by simpa using hb)]
      exact ih hrest

end PolarBear.Join
