import Mathlib.Data.Finset.Card
import PolarBear.Lib.Interleaving

/-!
# A limit that is checked before it is used up

Callers count something in the store and add to it in a later transaction, if the count was below a
limit. Between the two other callers may have added. `Adds` says how much a program can still add to
the count `m`, whatever happens between its transactions; `Admits` is a program that starts with
the count.

The limit can be overshot, but not by more than callers that were under way at the same time:
`overshoot_bounded`. `Narrow w` says that these were never more than `w`.
-/

namespace PolarBear.Transactions

open PolarBear.Transition (Run)
open Prog (transaction reading compute)

variable {κ ι τ σ ε ε' α β : Type}

theorem Prog.bind_assoc {γ : Type} (p : Prog ι τ σ ε α) (f : α → Prog ι τ σ ε β)
    (g : β → Prog ι τ σ ε γ) : ((p >>= f) >>= g) = p >>= fun a => f a >>= g := by
  show (p.andThen f).andThen g = p.andThen fun a => (f a).andThen g
  induction p with
  | ret a => rfl
  | raise e => rfl
  | tx tag post next ih =>
    refine congrArg (Prog.tx tag post) (funext fun i => funext fun s => ?_)
    exact ih i s

/-- The program has ended. -/
def Prog.finished : Prog ι τ σ ε α → Bool
  | .ret _ => true
  | .raise _ => true
  | .tx _ _ _ => false

section

variable (I : σ → Prop) (m : σ → Nat)

/-- The program keeps `I`, adds at most `n` to the count, and ends in `Q` with what it has not
added. -/
def Adds (Q : Nat → Except ε α → Prop) : Prog ι τ σ ε α → Nat → Prop
  | .ret a, n => Q n (.ok a)
  | .raise e, n => Q n (.error e)
  | .tx _ post next, n => ∀ s, I s → ∀ i, I (post i s) ∧
    ∃ k ≤ n, m (post i s) + k ≤ m s + n ∧ Adds Q (next i s) k

/-- The program starts with the count, and adds one if it was below the limit. -/
def Admits (L : Nat) : Prog ι τ σ ε α → Prop
  | .ret _ => True
  | .raise _ => True
  | .tx _ post next => ∀ s, I s → ∀ i, I (post i s) ∧ m (post i s) ≤ m s ∧
    Adds I m (fun _ _ => True) (next i s) (if m s < L then 1 else 0)

variable {I m}

theorem Adds.mono {Q Q' : Nat → Except ε α → Prop} {p : Prog ι τ σ ε α} {n n' : Nat} (hn : n ≤ n')
    (hq : ∀ k k' o, k ≤ k' → Q k o → Q' k' o) (h : Adds I m Q p n) : Adds I m Q' p n' := by
  induction p generalizing n n' with
  | ret a => exact hq _ _ _ hn h
  | raise e => exact hq _ _ _ hn h
  | tx tag post next ih =>
    intro s hs i
    obtain ⟨hpost, k, hk, hsum, hnext⟩ := h s hs i
    refine ⟨hpost, k + (n' - n), by omega, by omega, ih i s (by omega) hnext⟩

/-- **The sequence rule.** -/
theorem adds_bind {Q : Nat → Except ε β → Prop} {p : Prog ι τ σ ε α} {f : α → Prog ι τ σ ε β}
    {n : Nat} : Adds I m Q (p >>= f) n ↔ Adds I m (fun k o => match o with
      | .ok a => Adds I m Q (f a) k
      | .error e => Q k (.error e)) p n := by
  show Adds I m Q (p.andThen f) n ↔ _
  induction p generalizing n with
  | ret a => exact Iff.rfl
  | raise e => exact Iff.rfl
  | tx tag post next ih =>
    refine forall_congr' fun s => imp_congr Iff.rfl (forall_congr' fun i => and_congr Iff.rfl ?_)
    exact exists_congr fun k => and_congr Iff.rfl (and_congr Iff.rfl (ih i s))

/-- **The rule of handlers.** -/
theorem adds_tryCatch {Q : Nat → Except ε α → Prop} {p : Prog ι τ σ ε α}
    {handler : ε → Prog ι τ σ ε α} {n : Nat} :
    Adds I m Q (tryCatch p handler) n ↔ Adds I m (fun k o => match o with
      | .ok a => Q k (.ok a)
      | .error e => Adds I m Q (handler e) k) p n := by
  show Adds I m Q (p.handle handler) n ↔ _
  induction p generalizing n with
  | ret a => exact Iff.rfl
  | raise e => exact Iff.rfl
  | tx tag post next ih =>
    refine forall_congr' fun s => imp_congr Iff.rfl (forall_congr' fun i => and_congr Iff.rfl ?_)
    exact exists_congr fun k => and_congr Iff.rfl (and_congr Iff.rfl (ih i s))

theorem adds_compute {Q : Nat → Except ε α → Prop} {x : Except ε α} {n : Nat} :
    Adds I m Q (compute x : Prog ι τ σ ε α) n ↔ Q n x := by
  cases x <;> exact Iff.rfl

/-- **The rule of transactions.** -/
theorem adds_transaction {Q : Nat → Except ε α → Prop} {tag : τ} {t : ι → σ → Except ε (α × σ)}
    {n : Nat}
    (hok : ∀ s, I s → ∀ i a s', t i s = .ok (a, s') →
      I s' ∧ ∃ k ≤ n, m s' + k ≤ m s + n ∧ Q k (.ok a))
    (herror : ∀ s, I s → ∀ i e, t i s = .error e → Q n (.error e)) :
    Adds I m Q (transaction tag t) n := by
  intro s hs i
  dsimp only
  cases ht : t i s with
  | ok p => exact hok s hs i p.1 p.2 ht
  | error e => exact ⟨hs, n, Nat.le_refl _, Nat.le_refl _, herror s hs i e ht⟩

theorem adds_reading {Q : Nat → Except ε α → Prop} {tag : τ} {f : σ → Except ε α} {n : Nat}
    (h : ∀ s, I s → Q n (f s)) : Adds I m Q (reading tag f : Prog ι τ σ ε α) n := by
  refine adds_transaction (fun s hs i a s' ht => ?_) (fun s hs i e ht => ?_)
  · have hq := h s hs
    cases hf : f s with
    | error e =>
      rw [hf] at ht
      cases ht
    | ok b =>
      rw [hf] at ht hq
      cases ht
      exact ⟨hs, n, Nat.le_refl _, Nat.le_refl _, hq⟩
  · have hq := h s hs
    cases hf : f s with
    | error e' =>
      rw [hf] at ht hq
      cases ht
      exact hq
    | ok b =>
      rw [hf] at ht
      cases ht

/-- A program that starts with reading the count. -/
theorem admits_reading {L : Nat} {tag : τ} {f : σ → Except ε α} {g : α → Prog ι τ σ ε β}
    (h : ∀ s, I s → ∀ a, f s = .ok a →
      Adds I m (fun _ _ => True) (g a) (if m s < L then 1 else 0)) :
    Admits I m L ((reading tag f : Prog ι τ σ ε α) >>= g) := by
  intro s hs i
  dsimp only
  cases hf : f s with
  | ok a => exact ⟨hs, Nat.le_refl _, h s hs a hf⟩
  | error e => exact ⟨hs, Nat.le_refl _, trivial⟩

/-- A program that adds nothing. -/
theorem Adds.admits {Q : Nat → Except ε α → Prop} {L : Nat} {p : Prog ι τ σ ε α}
    (h : Adds I m Q p 0) : Admits I m L p := by
  cases p with
  | ret a => trivial
  | raise e => trivial
  | tx tag post next =>
    intro s hs i
    obtain ⟨hpost, k, hk, hsum, hnext⟩ := h s hs i
    refine ⟨hpost, by omega, hnext.mono (by omega) (fun _ _ _ _ _ => trivial)⟩

end

/-! ## Exceptions of another type -/

/-- The program with its exceptions under other names. -/
def Prog.mapError (f : ε → ε') : Prog ι τ σ ε α → Prog ι τ σ ε' α
  | .ret a => .ret a
  | .raise e => .raise (f e)
  | .tx tag post next => .tx tag post (fun i s => (next i s).mapError f)

theorem adds_mapError {I : σ → Prop} {m : σ → Nat} {Q : Nat → Except ε' α → Prop} {f : ε → ε'}
    {p : Prog ι τ σ ε α} {n : Nat} :
    Adds I m Q (p.mapError f) n ↔ Adds I m (fun k o => Q k (o.mapError f)) p n := by
  induction p generalizing n with
  | ret a => exact Iff.rfl
  | raise e => exact Iff.rfl
  | tx tag post next ih =>
    refine forall_congr' fun s => imp_congr Iff.rfl (forall_congr' fun i => and_congr Iff.rfl ?_)
    exact exists_congr fun k => and_congr Iff.rfl (and_congr Iff.rfl (ih i s))

/-! ## Turns -/

/-- The callers, and which have had a turn. -/
structure Started (κ ι τ σ ε α : Type) where
  callers : Callers κ ι τ σ ε α
  started : List κ

/-- The caller has had a turn and has not ended. -/
def UnderWay (c : Started κ ι τ σ ε α) (k : κ) : Prop :=
  k ∈ c.started ∧ (c.callers.prog k).finished = false

/-- At most `w` callers are under way. -/
def Narrow (w : Nat) (c : Started κ ι τ σ ε α) : Prop :=
  ∀ S : Finset κ, (∀ k ∈ S, UnderWay c k) → S.card ≤ w

/-- A turn after which at most `w` are under way. -/
def narrowTurn [DecidableEq κ] (w : Nat) (k : κ) (c c' : Started κ ι τ σ ε α) : Prop :=
  Turn k c.callers c'.callers ∧ c'.started = k :: c.started ∧ Narrow w c'

/-- **The balance**: the count, and the callers that may still add one to it. -/
structure Balanced (I : σ → Prop) (m : σ → Nat) (L start w : Nat) (A : Finset κ)
    (c : Started κ ι τ σ ε α) : Prop where
  inv : I c.callers.store
  waiting : ∀ k, k ∉ c.started → Admits I m L (c.callers.prog k)
  admitted : ∀ k ∈ A, UnderWay c k ∧ Adds I m (fun _ _ => True) (c.callers.prog k) 1
  refused : ∀ k ∈ c.started, k ∉ A → Adds I m (fun _ _ => True) (c.callers.prog k) 0
  bound : m c.callers.store + A.card + 1 ≤ max (start + 1) (L + w)

variable {I : σ → Prop} {m : σ → Nat} {L start w : Nat}

/-- The callers after a turn of `k`. -/
def Started.after [DecidableEq κ] (c : Started κ ι τ σ ε α) (k : κ) (store : σ)
    (next : Prog ι τ σ ε α) : Started κ ι τ σ ε α :=
  ⟨⟨store, Function.update c.callers.prog k next⟩, k :: c.started⟩

theorem narrowTurn_tx [DecidableEq κ] {k : κ} {c : Started κ ι τ σ ε α} {tag : τ}
    {post : ι → σ → σ} {next : ι → σ → Prog ι τ σ ε α} (i : ι)
    (hprog : c.callers.prog k = .tx tag post next)
    (h : Narrow w (c.after k (post i c.callers.store) (next i c.callers.store))) :
    narrowTurn w k c (c.after k (post i c.callers.store) (next i c.callers.store)) :=
  ⟨.tx i hprog, rfl, h⟩

section

variable [DecidableEq κ] {A A' : Finset κ} {k : κ} {c : Started κ ι τ σ ε α} {store : σ}
  {next : Prog ι τ σ ε α}

/-- A turn does not change what the others may do. -/
theorem Balanced.after (h : Balanced I m L start w A c) (hI : I store)
    (hA : ∀ j, j ≠ k → (j ∈ A' ↔ j ∈ A))
    (hin : k ∈ A' → next.finished = false ∧ Adds I m (fun _ _ => True) next 1)
    (hout : k ∉ A' → Adds I m (fun _ _ => True) next 0)
    (hbound : m store + A'.card + 1 ≤ max (start + 1) (L + w)) :
    Balanced I m L start w A' (c.after k store next) := by
  have hself : (c.after k store next).callers.prog k = next := Function.update_self ..
  have hother : ∀ j, j ≠ k → (c.after k store next).callers.prog j = c.callers.prog j :=
    fun j hj => Function.update_of_ne hj _ _
  refine ⟨hI, fun j hj => ?_, fun j hj => ?_, fun j hj hno => ?_, hbound⟩
  · obtain ⟨hjk, hnot⟩ := not_or.mp (fun h => hj (List.mem_cons.mpr h))
    rw [hother j hjk]
    exact h.waiting j hnot
  · by_cases hjk : j = k
    · subst hjk
      obtain ⟨hunfinished, hadds⟩ := hin hj
      refine ⟨⟨List.mem_cons_self .., ?_⟩, ?_⟩
      · rw [hself]
        exact hunfinished
      · rw [hself]
        exact hadds
    · obtain ⟨⟨hstarted, hunfinished⟩, hadds⟩ := h.admitted j ((hA j hjk).mp hj)
      refine ⟨⟨List.mem_cons_of_mem _ hstarted, ?_⟩, ?_⟩
      · rw [hother j hjk]
        exact hunfinished
      · rw [hother j hjk]
        exact hadds
  · by_cases hjk : j = k
    · subst hjk
      rw [hself]
      exact hout hno
    · rw [hother j hjk]
      exact h.refused j ((List.mem_cons.mp hj).resolve_left hjk) (fun h => hno ((hA j hjk).mpr h))

/-- A caller that has ended adds nothing. -/
theorem adds_of_finished {p : Prog ι τ σ ε α} (h : p.finished = true) :
    Adds I m (fun _ _ => True) p 0 := by
  cases p with
  | ret a => trivial
  | raise e => trivial
  | tx tag post next => cases h

/-- A caller that may add `n`, which is one at most, goes on to add or has nothing left to add. -/
theorem adds_one_or_zero {p : Prog ι τ σ ε α} {n : Nat} (hn : n ≤ 1)
    (h : Adds I m (fun _ _ => True) p n) :
    (n = 1 ∧ p.finished = false) ∨ Adds I m (fun _ _ => True) p 0 := by
  by_cases hzero : n = 0
  · rw [hzero] at h
    exact .inr h
  · by_cases hfinished : p.finished = true
    · exact .inr (adds_of_finished hfinished)
    · exact .inl ⟨by omega, Bool.eq_false_iff.mpr hfinished⟩

/-- A caller starts, and is admitted or refused. -/
theorem Balanced.start_turn (h : Balanced I m L start w A c) (hk : k ∉ c.started) (hI : I store)
    (hle : m store ≤ m c.callers.store)
    (hnext : Adds I m (fun _ _ => True) next (if m c.callers.store < L then 1 else 0))
    (hnarrow : Narrow w (c.after k store next)) :
    ∃ A', Balanced I m L start w A' (c.after k store next) := by
  have hmem : k ∉ A := fun h' => hk (h.admitted k h').1.1
  have hbound := h.bound
  rcases adds_one_or_zero (by split <;> omega) hnext with ⟨hone, hunfinished⟩ | hzero
  · have hlt : m c.callers.store < L := by
      by_contra hge
      rw [if_neg hge] at hone
      cases hone
    rw [if_pos hlt] at hnext
    -- all that are admitted are under way
    have hwidth : (insert k A).card ≤ w := by
      refine hnarrow _ (fun j hj => ?_)
      by_cases hjk : j = k
      · subst hjk
        refine ⟨List.mem_cons_self .., ?_⟩
        show (Function.update c.callers.prog j next j).finished = false
        rw [Function.update_self]
        exact hunfinished
      · have hway := (h.admitted j (Finset.mem_of_mem_insert_of_ne hj hjk)).1
        refine ⟨List.mem_cons_of_mem _ hway.1, ?_⟩
        show (Function.update c.callers.prog k next j).finished = false
        rw [Function.update_of_ne hjk]
        exact hway.2
    refine ⟨insert k A, h.after hI (fun j hj => ?_) (fun _ => ⟨hunfinished, hnext⟩)
      (fun hno => absurd (Finset.mem_insert_self k A) hno) (by omega)⟩
    exact ⟨fun hj' => Finset.mem_of_mem_insert_of_ne hj' hj, Finset.mem_insert_of_mem⟩
  · exact ⟨A, h.after hI (fun _ _ => Iff.rfl) (fun h' => absurd h' hmem) (fun _ => hzero)
      (by omega)⟩

/-- A caller that was admitted adds, or goes on; one that was refused adds nothing. -/
theorem Balanced.later_turn (h : Balanced I m L start w A c) (hk : k ∈ c.started) {i : ι} {tag : τ}
    {post : ι → σ → σ} {next : ι → σ → Prog ι τ σ ε α}
    (hprog : c.callers.prog k = .tx tag post next) :
    ∃ A', Balanced I m L start w A'
      (c.after k (post i c.callers.store) (next i c.callers.store)) := by
  have hbound := h.bound
  by_cases hmem : k ∈ A
  · have hadds := (h.admitted k hmem).2
    rw [hprog] at hadds
    obtain ⟨hI, n, hn, hsum, hnext⟩ := hadds _ h.inv i
    rcases adds_one_or_zero hn hnext with ⟨rfl, hunfinished⟩ | hzero
    · exact ⟨A, h.after hI (fun _ _ => Iff.rfl) (fun _ => ⟨hunfinished, hnext⟩)
        (fun hno => absurd hmem hno) (by omega)⟩
    · have hcard := Finset.card_erase_add_one hmem
      refine ⟨A.erase k, h.after hI (fun j hj => ?_)
        (fun h' => absurd h' (Finset.notMem_erase k A)) (fun _ => hzero) (by omega)⟩
      exact ⟨Finset.mem_of_mem_erase, fun h' => Finset.mem_erase.mpr ⟨hj, h'⟩⟩
  · have hadds := h.refused k hk hmem
    rw [hprog] at hadds
    obtain ⟨hI, n, hn, hsum, hnext⟩ := hadds _ h.inv i
    obtain rfl : n = 0 := by omega
    exact ⟨A, h.after hI (fun _ _ => Iff.rfl) (fun h' => absurd h' hmem) (fun _ => hnext)
      (by omega)⟩

end

/-- **One turn** keeps the balance. -/
theorem Balanced.turn [DecidableEq κ] {A : Finset κ} {k : κ} {c c' : Started κ ι τ σ ε α}
    (h : Balanced I m L start w A c) (hturn : narrowTurn w k c c') :
    ∃ A', Balanced I m L start w A' c' := by
  obtain ⟨⟨store', prog'⟩, started'⟩ := c'
  obtain ⟨hturn, rfl, hnarrow⟩ := hturn
  cases hturn with
  | @tx tag post next i hprog =>
    by_cases hk : k ∈ c.started
    · exact h.later_turn hk hprog
    · have hadmits := h.waiting k hk
      rw [hprog] at hadmits
      obtain ⟨hI, hle, hnext⟩ := hadmits _ h.inv i
      exact h.start_turn hk hI hle hnext hnarrow

/-- **The limit is overshot by callers under way at most.** -/
theorem overshoot_bounded [DecidableEq κ] {c c' : Started κ ι τ σ ε α} {ks : List κ}
    (hinv : I c.callers.store) (hstart : c.started = [])
    (hadmits : ∀ k, Admits I m L (c.callers.prog k)) (hrun : Run (narrowTurn w) c ks c') :
    I c'.callers.store ∧ m c'.callers.store + 1 ≤ max (m c.callers.store + 1) (L + w) := by
  have hbalanced : ∃ A : Finset κ, Balanced I m L (m c.callers.store) w A c' := by
    refine hrun.invariant (I := fun c' => ∃ A, Balanced I m L (m c.callers.store) w A c') ?_ ?_
    · rintro k c₁ c₂ ⟨A, hA⟩ hturn
      exact hA.turn hturn
    · refine ⟨∅, hinv, fun k _ => hadmits k, fun k hk => absurd hk (Finset.notMem_empty k),
        fun k hk => ?_, ?_⟩
      · rw [hstart] at hk
        exact absurd hk List.not_mem_nil
      · rw [Finset.card_empty]
        omega
  obtain ⟨A, hA⟩ := hbalanced
  have hbound := hA.bound
  exact ⟨hA.inv, by omega⟩

end PolarBear.Transactions
