import Mathlib.Order.Lattice
import Mathlib.Data.List.Basic
import Mathlib.Data.List.Induction

/-!
# The best element of a list

A loop keeps the best element it has seen. A new one takes its place if it is
better (its rank is smaller), and also if one of the two has no rank at all, as
with a number that is not a number: no comparison with it holds, so it never keeps
a place and never loses one (`beats`).

What the loop ends with is said without the loop (`IsBest`): nothing after it
beats it, and it beats everything before it, up to the last element without a rank.
Where all elements have ranks this is the first of the best ones (`FirstBest`).

Two tests that disagree on some elements choose the same one exactly if every
element they disagree on is beaten by one both accept (`chosen_iff_undisputed`).
-/

namespace PolarBear.Best

variable {α K : Type}

/-- Two places in one list: the same, or one before the other. -/
theorem places {x y : α} {front₁ back₁ front₂ back₂ : List α}
    (h : front₁ ++ x :: back₁ = front₂ ++ y :: back₂) :
    (front₁ = front₂ ∧ x = y ∧ back₁ = back₂) ∨
      (∃ mid, front₂ = front₁ ++ x :: mid ∧ back₁ = mid ++ y :: back₂) ∨
      ∃ mid, front₁ = front₂ ++ y :: mid ∧ back₂ = mid ++ x :: back₁ := by
  rcases List.append_eq_append_iff.mp h with ⟨mid, hfront, hback⟩ | ⟨mid, hfront, hback⟩
  · cases mid with
    | nil =>
      rw [List.append_nil] at hfront
      cases hback
      exact Or.inl ⟨hfront.symm, rfl, rfl⟩
    | cons z mid =>
      cases hback
      exact Or.inr (Or.inl ⟨mid, hfront, rfl⟩)
  · cases mid with
    | nil =>
      rw [List.append_nil] at hfront
      cases hback
      exact Or.inl ⟨hfront, rfl, rfl⟩
    | cons z mid =>
      cases hback
      exact Or.inr (Or.inr ⟨mid, hfront, rfl⟩)

variable [LinearOrder K]

/-! ## The loop -/

section

variable (accept : α → Bool) (rank : α → Option K)

/-- `a` takes the place of `b`. -/
def beats (a b : α) : Bool :=
  match rank a, rank b with
  | some i, some j => decide (i < j)
  | _, _ => true

/-- The loop. -/
def best (start : α) (l : List α) : α :=
  l.foldl (fun kept a => if accept a && beats rank a kept then a else kept) start

/-- What the loop ends with. -/
structure IsBest (l : List α) (a : α) (front back : List α) : Prop where
  place : l = front ++ a :: back
  accepted : accept a = true
  earlier : ∀ before b between, front = before ++ b :: between → accept b = true →
    beats rank a b = true ∨ ∃ c ∈ between, accept c = true ∧ rank c = none
  later : ∀ b ∈ back, accept b = true → beats rank b a = false

variable {accept rank}

theorem beats_of_none {a b : α} (h : rank a = none ∨ rank b = none) : beats rank a b = true := by
  unfold beats
  rcases h with h | h
  · rw [h]
  · rw [h]
    cases rank a <;> rfl

theorem beats_of_some {a b : α} {i j : K} (ha : rank a = some i) (hb : rank b = some j) :
    beats rank a b = decide (i < j) := by
  unfold beats
  rw [ha, hb]

/-- What is not beaten has a rank, and not a greater one. -/
theorem ranks_of_not_beats {a b : α} (h : beats rank a b = false) :
    ∃ i j, rank a = some i ∧ rank b = some j ∧ j ≤ i := by
  cases ha : rank a with
  | none =>
    rw [beats_of_none (Or.inl ha)] at h
    cases h
  | some i =>
    cases hb : rank b with
    | none =>
      rw [beats_of_none (Or.inr hb)] at h
      cases h
    | some j =>
      rw [beats_of_some ha hb] at h
      exact ⟨i, j, rfl, rfl, not_lt.mp (of_decide_eq_false h)⟩

/-- Beating goes through an element with a rank. -/
theorem beats_trans {a b c : α} (hb : rank b ≠ none) (hab : beats rank a b = true)
    (hbc : beats rank b c = true) : beats rank a c = true := by
  obtain ⟨j, hj⟩ := Option.ne_none_iff_exists'.mp hb
  cases ha : rank a with
  | none => exact beats_of_none (Or.inl ha)
  | some i =>
    cases hc : rank c with
    | none => exact beats_of_none (Or.inr hc)
    | some k =>
      rw [beats_of_some ha hj] at hab
      rw [beats_of_some hj hc] at hbc
      rw [beats_of_some ha hc]
      exact decide_eq_true ((of_decide_eq_true hab).trans (of_decide_eq_true hbc))

/-- What beats an element beats what did not beat that. -/
theorem beats_of_not_beats {a b c : α} (hab : beats rank a b = true)
    (hcb : beats rank c b = false) : beats rank a c = true := by
  obtain ⟨k, j, hk, hj, hle⟩ := ranks_of_not_beats hcb
  cases ha : rank a with
  | none => exact beats_of_none (Or.inl ha)
  | some i =>
    rw [beats_of_some ha hj] at hab
    rw [beats_of_some ha hk]
    exact decide_eq_true ((of_decide_eq_true hab).trans_le hle)

/-- One round in which the new element takes the place. -/
theorem IsBest.take {l front back : List α} {a x : α} (h : IsBest accept rank l a front back)
    (hx : accept x = true) (hbeats : beats rank x a = true) :
    IsBest accept rank (l ++ [x]) x l [] := by
  refine ⟨rfl, hx, ?_, fun b hb => absurd hb List.not_mem_nil⟩
  intro before b between hsplit hb
  rcases places (h.place.symm.trans hsplit) with ⟨-, rfl, -⟩ | ⟨mid, -, hback⟩ |
    ⟨mid, hfront, rfl⟩
  · exact Or.inl hbeats
  · have hmem : b ∈ back := by
      rw [hback]
      exact List.mem_append_cons_self
    exact Or.inl (beats_of_not_beats hbeats (h.later b hmem hb))
  · rcases h.earlier before b mid hfront hb with hab | ⟨c, hc, hcaccept, hcrank⟩
    · by_cases hrank : rank a = none
      · exact Or.inr ⟨a, List.mem_append_cons_self, h.accepted, hrank⟩
      · exact Or.inl (beats_trans hrank hbeats hab)
    · exact Or.inr ⟨c, List.mem_append_left _ hc, hcaccept, hcrank⟩

/-- One round in which the kept element stays. -/
theorem IsBest.keep {l front back : List α} {a x : α} (h : IsBest accept rank l a front back)
    (hx : accept x = true → beats rank x a = false) :
    IsBest accept rank (l ++ [x]) a front (back ++ [x]) := by
  refine ⟨?_, h.accepted, h.earlier, ?_⟩
  · rw [h.place, List.append_assoc, List.cons_append]
  · intro b hb
    rcases List.mem_append.mp hb with hb | hb
    · exact h.later b hb
    · rw [List.mem_singleton.mp hb]
      exact hx

variable (accept rank) in
/-- **The loop ends with the best element.** -/
theorem best_isBest {start : α} (hstart : accept start = true) (l : List α) :
    ∃ front back, IsBest accept rank (start :: l) (best accept rank start l) front back := by
  induction l using List.reverseRecOn with
  | nil =>
    refine ⟨[], [], rfl, hstart, ?_, fun b hb => absurd hb List.not_mem_nil⟩
    intro before b between hsplit
    exact absurd hsplit.symm (by simp)
  | append_singleton l x ih =>
    obtain ⟨front, back, h⟩ := ih
    have hround : best accept rank start (l ++ [x]) =
        if accept x && beats rank x (best accept rank start l) then x
        else best accept rank start l := by
      unfold best
      rw [List.foldl_concat]
    rw [hround, ← List.cons_append]
    by_cases hx : (accept x && beats rank x (best accept rank start l)) = true
    · rw [if_pos hx]
      rw [Bool.and_eq_true] at hx
      exact ⟨_, _, h.take hx.1 hx.2⟩
    · rw [if_neg hx]
      refine ⟨_, _, h.keep (fun haccept => ?_)⟩
      rw [haccept, Bool.true_and, Bool.not_eq_true] at hx
      exact hx

/-- There is only one best element. -/
theorem IsBest.unique {l front₁ back₁ front₂ back₂ : List α} {a b : α}
    (ha : IsBest accept rank l a front₁ back₁) (hb : IsBest accept rank l b front₂ back₂) :
    a = b := by
  have hfirst : ∀ {a b : α} {front₁ back₁ front₂ back₂ mid : List α},
      IsBest accept rank l a front₁ back₁ → IsBest accept rank l b front₂ back₂ →
      front₂ = front₁ ++ a :: mid → back₁ ≠ mid ++ b :: back₂ := by
    intro a b front₁ back₁ front₂ back₂ mid ha hb hfront hback
    rcases hb.earlier _ _ _ hfront ha.accepted with hbeats | ⟨c, hc, hcaccept, hcrank⟩
    · have hlater := ha.later b (hback ▸ List.mem_append_cons_self)
        hb.accepted
      rw [hbeats] at hlater
      cases hlater
    · have hlater := ha.later c (hback ▸ List.mem_append_left _ hc) hcaccept
      rw [beats_of_none (Or.inl hcrank)] at hlater
      cases hlater
  rcases places (ha.place.symm.trans hb.place) with ⟨-, hab, -⟩ | ⟨mid, hfront, hback⟩ |
    ⟨mid, hfront, hback⟩
  · exact hab
  · exact absurd hback (hfirst ha hb hfront)
  · exact absurd hback (hfirst hb ha hfront)

end

/-! ## The first of the best -/

section

variable (accept : α → Bool) (rank : α → K)

/-- The first of the best elements that a test accepts. -/
def FirstBest (l : List α) (a : α) : Prop :=
  ∃ front back, l = front ++ a :: back ∧ accept a = true ∧
    (∀ b ∈ front, accept b = true → rank a < rank b) ∧
    ∀ b ∈ back, accept b = true → rank a ≤ rank b

/-- The choice from a list: the first of the best elements, or nothing if none is accepted. -/
def Chosen (l : List α) : Option α → Prop
  | none => ∀ a ∈ l, accept a = false
  | some a => FirstBest accept rank l a

variable {accept rank}

theorem FirstBest.mem {l : List α} {a : α} (h : FirstBest accept rank l a) :
    a ∈ l ∧ accept a = true := by
  obtain ⟨front, back, rfl, ha, -⟩ := h
  exact ⟨List.mem_append_cons_self, ha⟩

/-- An accepted element is the first of the best ones, or beaten by it. -/
theorem FirstBest.compare {l front back : List α} {a c : α} (h : FirstBest accept rank l c)
    (hl : l = front ++ a :: back) (ha : accept a = true) :
    a = c ∨ (c ∈ front ∧ rank c ≤ rank a) ∨ (c ∈ back ∧ rank c < rank a) := by
  obtain ⟨front', back', hl', -, hfront, hback⟩ := h
  rcases places (hl.symm.trans hl') with ⟨-, hac, -⟩ | ⟨mid, rfl, rfl⟩ | ⟨mid, rfl, rfl⟩
  · exact Or.inl hac
  · refine Or.inr (Or.inr ⟨List.mem_append_cons_self, ?_⟩)
    exact hfront a (List.mem_append_cons_self) ha
  · refine Or.inr (Or.inl ⟨List.mem_append_cons_self, ?_⟩)
    exact hback a (List.mem_append_cons_self) ha

theorem exists_chosen (accept : α → Bool) (rank : α → K) :
    ∀ l, ∃ o, Chosen accept rank l o := by
  intro l
  induction l with
  | nil => exact ⟨none, fun a ha => absurd ha List.not_mem_nil⟩
  | cons x l ih =>
    obtain ⟨o, ho⟩ := ih
    by_cases hx : accept x = true
    · cases o with
      | none =>
        refine ⟨some x, [], l, rfl, hx, fun b hb => absurd hb List.not_mem_nil, ?_⟩
        intro b hb haccept
        rw [ho b hb] at haccept
        cases haccept
      | some a =>
        obtain ⟨front, back, rfl, ha, hfront, hback⟩ := ho
        by_cases hlt : rank a < rank x
        · refine ⟨some a, x :: front, back, rfl, ha, ?_, hback⟩
          intro b hb haccept
          rcases List.mem_cons.mp hb with rfl | hb
          · exact hlt
          · exact hfront b hb haccept
        · refine ⟨some x, [], front ++ a :: back, rfl, hx, ?_, ?_⟩
          · exact fun b hb => absurd hb List.not_mem_nil
          intro b hb haccept
          have hle := not_lt.mp hlt
          rcases List.mem_append.mp hb with hb | hb
          · exact hle.trans (hfront b hb haccept).le
          · rcases List.mem_cons.mp hb with rfl | hb
            · exact hle
            · exact hle.trans (hback b hb haccept)
    · rw [Bool.not_eq_true] at hx
      cases o with
      | none =>
        refine ⟨none, fun a ha => ?_⟩
        rcases List.mem_cons.mp ha with rfl | ha
        · exact hx
        · exact ho a ha
      | some a =>
        obtain ⟨front, back, rfl, ha, hfront, hback⟩ := ho
        refine ⟨some a, x :: front, back, rfl, ha, ?_, hback⟩
        intro b hb haccept
        rcases List.mem_cons.mp hb with rfl | hb
        · rw [hx] at haccept
          cases haccept
        · exact hfront b hb haccept

/-- Where all elements have ranks and beat the start, the loop ends with the choice. -/
theorem chosen_of_isBest {accept' : Option α → Bool} {rank' : Option α → Option K} {l : List α}
    {o : Option α} {front back : List (Option α)} (haccept : ∀ a ∈ l, accept' (some a) = accept a)
    (hrank : ∀ a ∈ l, accept a = true → rank' (some a) = some (rank a))
    (hstart : ∀ a ∈ l, accept a = true → beats rank' (some a) none = true)
    (h : IsBest accept' rank' (none :: l.map some) o front back) : Chosen accept rank l o := by
  have hbeats : ∀ a ∈ l, accept a = true → ∀ b ∈ l, accept b = true →
      beats rank' (some a) (some b) = decide (rank a < rank b) := by
    intro a ha hacc b hb hbcc
    exact beats_of_some (hrank a ha hacc) (hrank b hb hbcc)
  obtain ⟨hplace, haccepted, hearlier, hlater⟩ := h
  cases front with
  | nil =>
    obtain ⟨rfl, rfl⟩ := List.cons_eq_cons.mp hplace
    intro a ha
    by_contra hacc
    rw [Bool.not_eq_false] at hacc
    have hnot := hlater (some a) (List.mem_map.mpr ⟨a, ha, rfl⟩) ((haccept a ha).trans hacc)
    rw [hstart a ha hacc] at hnot
    cases hnot
  | cons first front =>
    obtain ⟨rfl, hmap⟩ := List.cons_eq_cons.mp hplace
    obtain ⟨before, rest, rfl, rfl, hrest⟩ := List.map_eq_append_iff.mp hmap
    obtain ⟨a, after, rfl, rfl, rfl⟩ := List.map_eq_cons_iff.mp hrest
    have hmem : a ∈ before ++ a :: after := List.mem_append_cons_self
    have hacc : accept a = true := (haccept a hmem).symm.trans haccepted
    refine ⟨before, after, rfl, hacc, ?_, ?_⟩
    · intro b hb hbacc
      have hbmem : b ∈ before ++ a :: after := List.mem_append_left _ hb
      obtain ⟨pre, mid, rfl⟩ := List.append_of_mem hb
      have hsplit : none :: (pre ++ b :: mid).map some =
          (none :: pre.map some) ++ some b :: mid.map some := by
        rw [List.map_append, List.map_cons, List.cons_append]
      rcases hearlier _ _ _ hsplit ((haccept b hbmem).trans hbacc) with hlt | ⟨c, hc, hcacc, hcrank⟩
      · rw [hbeats a hmem hacc b hbmem hbacc] at hlt
        exact of_decide_eq_true hlt
      · obtain ⟨d, hd, rfl⟩ := List.mem_map.mp hc
        have hdmem : d ∈ (pre ++ b :: mid) ++ a :: after :=
          List.mem_append_left _ (List.mem_append_right _ (List.mem_cons_of_mem _ hd))
        rw [hrank d hdmem ((haccept d hdmem).symm.trans hcacc)] at hcrank
        cases hcrank
    · intro b hb hbacc
      have hbmem : b ∈ before ++ a :: after :=
        List.mem_append_right _ (List.mem_cons_of_mem _ hb)
      have hnot := hlater (some b) (List.mem_map.mpr ⟨b, hb, rfl⟩) ((haccept b hbmem).trans hbacc)
      rw [hbeats b hbmem hbacc a hmem hacc] at hnot
      exact not_lt.mp (of_decide_eq_false hnot)

end

/-! ## Two tests -/

section

variable (p q : α → Bool) (rank : α → K)

/-- Every element that the tests disagree on is beaten by one that both accept: by a better one,
or by an equally good one before it. -/
def Undisputed (l : List α) : Prop :=
  ∀ front a back, l = front ++ a :: back → p a ≠ q a →
    (∃ b ∈ front, p b = true ∧ q b = true ∧ rank b ≤ rank a) ∨
      ∃ b ∈ back, p b = true ∧ q b = true ∧ rank b < rank a

variable {p q rank}

theorem Undisputed.symm {l : List α} (h : Undisputed p q rank l) : Undisputed q p rank l := by
  intro front a back hl hne
  rcases h front a back hl hne.symm with ⟨b, hb, hp, hq, hrank⟩ | ⟨b, hb, hp, hq, hrank⟩
  · exact Or.inl ⟨b, hb, hq, hp, hrank⟩
  · exact Or.inr ⟨b, hb, hq, hp, hrank⟩

/-- The first of the best elements is accepted by the other test too. -/
theorem Undisputed.accepts {l : List α} {a : α} (h : Undisputed p q rank l)
    (ha : FirstBest p rank l a) : q a = true := by
  obtain ⟨front, back, hl, hp, hfront, hback⟩ := ha
  by_contra hq
  have hne : p a ≠ q a := fun heq => hq (heq.symm.trans hp)
  rcases h front a back hl hne with ⟨b, hb, hpb, -, hle⟩ | ⟨b, hb, hpb, -, hlt⟩
  · exact absurd (hfront b hb hpb) (not_lt.mpr hle)
  · exact absurd (hback b hb hpb) (not_le.mpr hlt)

/-- Two choices that both tests accept are the same. -/
theorem FirstBest.eq_of_both {l : List α} {a b : α} (ha : FirstBest p rank l a)
    (hb : FirstBest q rank l b) (hqa : q a = true) (hpb : p b = true) : a = b := by
  obtain ⟨front, back, hl, -, hfront, hback⟩ := ha
  rcases hb.compare hl hqa with hab | ⟨hmem, hle⟩ | ⟨hmem, hlt⟩
  · exact hab
  · exact absurd (hfront b hmem hpb) (not_lt.mpr hle)
  · exact absurd (hback b hmem hpb) (not_le.mpr hlt)

/-- There is only one choice. -/
theorem Chosen.unique {l : List α} {o₁ o₂ : Option α} (h₁ : Chosen p rank l o₁)
    (h₂ : Chosen p rank l o₂) : o₁ = o₂ := by
  cases o₁ with
  | none =>
    cases o₂ with
    | none => rfl
    | some b =>
      obtain ⟨hmem, hb⟩ := FirstBest.mem h₂
      rw [h₁ b hmem] at hb
      cases hb
  | some a =>
    obtain ⟨hmem, ha⟩ := FirstBest.mem h₁
    cases o₂ with
    | none =>
      rw [h₂ a hmem] at ha
      cases ha
    | some b => exact congrArg some (FirstBest.eq_of_both h₁ h₂ ha (FirstBest.mem h₂).2)

/-- The choice of one test is that of the other exactly if no element is left in dispute. -/
theorem chosen_iff_undisputed {l : List α} {o : Option α} (h : Chosen p rank l o) :
    Chosen q rank l o ↔ Undisputed p q rank l := by
  constructor
  · intro hq front a back hl hne
    have hmem : a ∈ l := hl ▸ List.mem_append_cons_self
    cases o with
    | none =>
      rw [h a hmem, hq a hmem] at hne
      exact absurd rfl hne
    | some c =>
      have hpc := (FirstBest.mem h).2
      have hqc := (FirstBest.mem hq).2
      have hcompare : a = c ∨ (c ∈ front ∧ rank c ≤ rank a) ∨ (c ∈ back ∧ rank c < rank a) := by
        by_cases hpa : p a = true
        · exact FirstBest.compare h hl hpa
        · refine FirstBest.compare hq hl ?_
          rw [Bool.not_eq_true] at hpa
          rw [hpa] at hne
          exact Bool.of_not_eq_false hne.symm
      rcases hcompare with rfl | ⟨hc, hle⟩ | ⟨hc, hlt⟩
      · exact absurd (hpc.trans hqc.symm) hne
      · exact Or.inl ⟨c, hc, hpc, hqc, hle⟩
      · exact Or.inr ⟨c, hc, hpc, hqc, hlt⟩
  · intro hundisputed
    obtain ⟨o', ho'⟩ := exists_chosen q rank l
    have heq : o = o' := by
      cases o with
      | none =>
        cases o' with
        | none => rfl
        | some b =>
          have hpb := hundisputed.symm.accepts ho'
          rw [h b (FirstBest.mem ho').1] at hpb
          cases hpb
      | some a =>
        have hqa := hundisputed.accepts h
        cases o' with
        | none =>
          rw [ho' a (FirstBest.mem h).1] at hqa
          cases hqa
        | some b =>
          exact congrArg some (FirstBest.eq_of_both h ho' hqa (hundisputed.symm.accepts ho'))
    exact heq ▸ ho'

end

end PolarBear.Best
