import Mathlib.Algebra.BigOperators.Group.List.Basic
import Mathlib.Algebra.Order.BigOperators.Group.List
import Mathlib.Data.List.Sort
import Mathlib.Algebra.Ring.Int.Defs

/-!
# Sweeping over weighted events

Events `(k, w)` carry a position `k` in a linear order and a weight `w`. A
sweep sorts them by position, stably, and adds the weights up until the sum
exceeds a bound. `sweep_iff` describes its answer without sorting: some event of
positive weight exceeds the bound together with every event before its position
and those at its position that stand before it in the unsorted list.
-/

namespace PolarBear.Sweep

variable {α : Type}

/-- An event: position and weight. -/
abbrev Event (α : Type) : Type := α × Int

/-- The total weight of some events. -/
def weight (l : List (Event α)) : Int := (l.map Prod.snd).sum

@[simp] theorem weight_nil : weight ([] : List (Event α)) = 0 := rfl

@[simp] theorem weight_cons (p : Event α) (l : List (Event α)) :
    weight (p :: l) = p.2 + weight l := by
  simp [weight]

@[simp] theorem weight_append (l₁ l₂ : List (Event α)) :
    weight (l₁ ++ l₂) = weight l₁ + weight l₂ := by
  simp [weight]

theorem weight_perm {l₁ l₂ : List (Event α)} (h : l₁.Perm l₂) : weight l₁ = weight l₂ :=
  (h.map Prod.snd).sum_eq

/-- The counter exceeds `bound` at some point. -/
def exceeds (bound : Int) (counter : Int) : List (Event α) → Bool
  | [] => false
  | p :: ps => decide (bound < counter + p.2) || exceeds bound (counter + p.2) ps

/-- The counter first exceeds the bound at an event of positive weight. -/
theorem exceeds_iff {bound : Int} :
    ∀ (l : List (Event α)) {counter : Int}, counter ≤ bound →
      (exceeds bound counter l = true ↔ ∃ pre p post, l = pre ++ p :: post ∧ 0 < p.2 ∧
        bound < counter + weight pre + p.2) := by
  intro l
  induction l with
  | nil =>
    intro counter _
    refine ⟨fun h => absurd h (by simp [exceeds]), fun h => ?_⟩
    obtain ⟨pre, p, post, heq, -⟩ := h
    simp at heq
  | cons q l ih =>
    intro counter hcounter
    unfold exceeds
    by_cases hq : bound < counter + q.2
    · refine ⟨fun _ => ⟨[], q, l, rfl, by omega, by simpa using hq⟩, fun _ => by simp [hq]⟩
    · rw [decide_eq_false hq, Bool.false_or, ih (by omega)]
      constructor
      · intro h
        obtain ⟨pre, p, post, heq, hp, hsum⟩ := h
        refine ⟨q :: pre, p, post, by rw [heq]; rfl, hp, ?_⟩
        rw [weight_cons]
        omega
      · intro h
        obtain ⟨pre, p, post, heq, hp, hsum⟩ := h
        -- the event is not the first one, which stays within the bound
        cases pre with
        | nil =>
          simp only [List.nil_append, List.cons.injEq] at heq
          rw [weight_nil, ← heq.1] at hsum
          exact absurd hsum (by omega)
        | cons r pre =>
          simp only [List.cons_append, List.cons.injEq] at heq
          rw [weight_cons, ← heq.1] at hsum
          exact ⟨pre, p, post, heq.2, hp, by omega⟩

variable [LinearOrder α]

/-- Stable sort by position. -/
def sortEvents (l : List (Event α)) : List (Event α) :=
  l.insertionSort (fun p q => p.1 ≤ q.1)

/-- The sweep. -/
def sweep (bound : Int) (l : List (Event α)) : Bool := exceeds bound 0 (sortEvents l)

/-- The events before position `k`. -/
def before (k : α) (l : List (Event α)) : List (Event α) := l.filter (fun p => p.1 < k)

/-- The events at position `k`, in their order. -/
def at_ (k : α) (l : List (Event α)) : List (Event α) := l.filter (fun p => p.1 = k)

/-! ## The stable sort -/

theorem sortEvents_perm (l : List (Event α)) : (sortEvents l).Perm l :=
  List.perm_insertionSort _ l

theorem sortEvents_sorted (l : List (Event α)) :
    (sortEvents l).Pairwise (fun p q => p.1 ≤ q.1) := by
  have : Std.Total (fun p q : Event α => p.1 ≤ q.1) := ⟨fun p q => le_total p.1 q.1⟩
  have : IsTrans (Event α) (fun p q => p.1 ≤ q.1) := ⟨fun p q r => le_trans⟩
  exact List.pairwise_insertionSort _ l

/-- **Stability**: the events at one position keep their order. -/
theorem at_sortEvents (k : α) (l : List (Event α)) : at_ k (sortEvents l) = at_ k l := by
  have : Std.Total (fun p q : Event α => p.1 ≤ q.1) := ⟨fun p q => le_total p.1 q.1⟩
  have : IsTrans (Event α) (fun p q => p.1 ≤ q.1) := ⟨fun p q r => le_trans⟩
  have hkey : ∀ p ∈ at_ k l, p.1 = k := by
    intro p hp
    simpa [at_] using (List.mem_filter.mp hp).2
  have hpair : (at_ k l).Pairwise (fun p q => p.1 ≤ q.1) := by
    rw [List.pairwise_iff_forall_sublist]
    intro p q hsub
    have hp := hkey p (hsub.subset (List.mem_cons_self ..))
    have hq := hkey q (hsub.subset (by simp))
    rw [hp, hq]
  have hsub : (at_ k l).Sublist (sortEvents l) :=
    List.sublist_insertionSort hpair List.filter_sublist
  have hsub' : (at_ k l).Sublist (at_ k (sortEvents l)) := by
    have h := hsub.filter (fun p => decide (p.1 = k))
    rwa [List.filter_eq_self.mpr (fun p hp => by simpa using hkey p hp)] at h
  exact (hsub'.eq_of_length ((sortEvents_perm l).filter _).length_eq.symm).symm

/-- Events none of which is past `k` are those before `k` and those at `k`. -/
theorem weight_of_le {k : α} :
    ∀ {l : List (Event α)}, (∀ q ∈ l, q.1 ≤ k) →
      weight l = weight (before k l) + weight (at_ k l) := by
  intro l
  induction l with
  | nil => intro _; rfl
  | cons q l ih =>
    intro hl
    have hrest := ih (fun r hr => hl r (List.mem_cons_of_mem _ hr))
    unfold before at_ at hrest ⊢
    rcases lt_or_eq_of_le (hl q (List.mem_cons_self ..)) with hlt | heq
    · rw [List.filter_cons_of_pos (by simpa using hlt),
        List.filter_cons_of_neg (by simpa using ne_of_lt hlt)]
      simp only [weight_cons]
      omega
    · rw [List.filter_cons_of_neg (by simp [heq]), List.filter_cons_of_pos (by simpa using heq)]
      simp only [weight_cons]
      omega

/-- In a sorted list, what stands before an event is everything before its
position and some events at it. -/
theorem weight_of_sorted {pre post : List (Event α)} {p : Event α}
    (h : (pre ++ p :: post).Pairwise (fun p q => p.1 ≤ q.1)) :
    weight pre = weight (before p.1 (pre ++ p :: post)) + weight (at_ p.1 pre) := by
  obtain ⟨-, hpost, hcross⟩ := List.pairwise_append.mp h
  have hle : ∀ q ∈ pre, q.1 ≤ p.1 := fun q hq => hcross q hq p (List.mem_cons_self ..)
  have hge : ∀ q ∈ p :: post, ¬ q.1 < p.1 := by
    intro q hq
    rcases List.mem_cons.mp hq with rfl | hq
    · exact lt_irrefl _
    · exact not_lt.mpr ((List.pairwise_cons.mp hpost).1 q hq)
  have hnone : before p.1 (p :: post) = [] := by
    unfold before
    rw [List.filter_eq_nil_iff]
    intro q hq
    simpa using hge q hq
  have hpre : before p.1 (pre ++ p :: post) = before p.1 pre := by
    unfold before at hnone ⊢
    rw [List.filter_append, hnone, List.append_nil]
  rw [weight_of_le hle, hpre]

theorem at_split (p : Event α) (l₁ l₂ : List (Event α)) :
    at_ p.1 (l₁ ++ p :: l₂) = at_ p.1 l₁ ++ p :: at_ p.1 l₂ := by
  unfold at_
  rw [List.filter_append, List.filter_cons_of_pos (by simp)]

/-- A place among the events at one position is a place in the list. -/
theorem split_at_ {k : α} {l b₁ b₂ : List (Event α)} {p : Event α}
    (h : at_ k l = b₁ ++ p :: b₂) : ∃ l₁ l₂, l = l₁ ++ p :: l₂ ∧ at_ k l₁ = b₁ := by
  obtain ⟨m₁, m₂, hl, hm₁, hm₂⟩ := List.filter_eq_append_iff.mp h
  obtain ⟨n₁, n₂, hm, hn₁, -, -⟩ := List.filter_eq_cons_iff.mp hm₂
  refine ⟨m₁ ++ n₁, n₂, by rw [hl, hm, List.append_assoc], ?_⟩
  have hn : List.filter (fun q => decide (q.1 = k)) n₁ = [] := List.filter_eq_nil_iff.mpr hn₁
  unfold at_
  rw [List.filter_append, hn, List.append_nil, hm₁]

/-- **What a sweep finds**, in terms of the unsorted list. -/
theorem sweep_iff {bound : Int} (hbound : 0 ≤ bound) (l : List (Event α)) :
    sweep bound l = true ↔ ∃ l₁ p l₂, l = l₁ ++ p :: l₂ ∧ 0 < p.2 ∧
      bound < weight (before p.1 l) + weight (at_ p.1 l₁) + p.2 := by
  unfold sweep
  rw [exceeds_iff _ hbound]
  have hbefore : ∀ k, weight (before k (sortEvents l)) = weight (before k l) := fun k =>
    weight_perm ((sortEvents_perm l).filter _)
  -- the counter at `p` in the sorted list
  have hcounter : ∀ {pre p post}, sortEvents l = pre ++ p :: post →
      weight pre = weight (before p.1 l) + weight (at_ p.1 pre) := by
    intro pre p post heq
    have hsorted := sortEvents_sorted l
    rw [heq] at hsorted
    rw [weight_of_sorted hsorted, ← heq, hbefore]
  constructor
  · intro h
    obtain ⟨pre, p, post, heq, hp, hsum⟩ := h
    have hat : at_ p.1 l = at_ p.1 pre ++ p :: at_ p.1 post := by
      rw [← at_sortEvents, heq, at_split]
    obtain ⟨l₁, l₂, hl, hl₁⟩ := split_at_ hat
    refine ⟨l₁, p, l₂, hl, hp, ?_⟩
    rw [hcounter heq, ← hl₁] at hsum
    omega
  · intro h
    obtain ⟨l₁, p, l₂, heq, hp, hsum⟩ := h
    have hat : at_ p.1 (sortEvents l) = at_ p.1 l₁ ++ p :: at_ p.1 l₂ := by
      rw [at_sortEvents, heq, at_split]
    obtain ⟨pre, post, hs, hpre⟩ := split_at_ hat
    refine ⟨pre, p, post, hs, hp, ?_⟩
    rw [hcounter hs, hpre]
    omega

end PolarBear.Sweep
