import Mathlib.Data.List.Nodup
import Mathlib.Logic.Function.Basic
import PolarBear.Lib.Transactions

/-!
# Callers that take turns on one store

Any number of callers work on one store, each with a program of its own; a `Turn` is one
transaction of one of them. A caller that never gets another turn has crashed.

What a caller does is told by a `view` of the store and by its effects `eff` on the view.
`Atomic` says of a program that one of its transactions has an effect and the others leave
the view alone, whatever happens between two of them. What may happen is `G`, which every
transaction keeps to in turn.

Callers whose programs are atomic are as good as callers that do one transaction each:
`linearize` gives the order of the effects, in which every caller stands at most once, and
`linearized` says it of a run and of every point of the run: the order there is a prefix, so what
had returned before something else was called comes before it.
-/

namespace PolarBear.Transactions

open PolarBear.Transition (Run)
open Prog (transaction reading compute)

variable {κ ι τ σ ε α β V ℓ : Type}

/-- The store, and what is left of each program. -/
structure Callers (κ ι τ σ ε α : Type) where
  store : σ
  prog : κ → Prog ι τ σ ε α

/-- The next transaction of a caller. -/
inductive Turn [DecidableEq κ] : κ → Callers κ ι τ σ ε α → Callers κ ι τ σ ε α → Prop
  | tx {k : κ} {c : Callers κ ι τ σ ε α} {tag : τ} {post : ι → σ → σ}
      {next : ι → σ → Prog ι τ σ ε α} (i : ι) (h : c.prog k = .tx tag post next) :
      Turn k c ⟨post i c.store, Function.update c.prog k (next i c.store)⟩

/-! ## Atomic programs -/

/-- A program that is tried again, a number of times, where `again` says so of its exception; after
that what `again` says is raised. -/
def retrying (again : ε → Option ε) (p : Prog ι τ σ ε α) : Nat → Prog ι τ σ ε α
  | 0 => tryCatch p (fun e => throw ((again e).getD e))
  | n + 1 => tryCatch p (fun e => match again e with
    | some _ => retrying again p n
    | none => throw e)

section

variable (G : σ → σ → Prop) (view : σ → V) (eff : ℓ → V → V → Prop)

/-- A transaction leaves the view alone, or it has the one effect of its caller. `P` says what the
caller goes on with. -/
def Marks (s s' : σ) (d : Option ℓ) (P : Option ℓ → Prop) : Prop :=
  (view s' = view s ∧ P d) ∨ (d = none ∧ ∃ l, eff l (view s) (view s') ∧ P (some l))

/-- With the effect it has had so far, if any, the program ends in `Q`. -/
def Atomic (Q : Option ℓ → Except ε α → σ → Prop) : Prog ι τ σ ε α → Option ℓ → σ → Prop
  | .ret a, d, s => Q d (.ok a) s
  | .raise e, d, s => Q d (.error e) s
  | .tx _ post next, d, s => ∀ s', G s s' → ∀ i, G s' (post i s') ∧
    Marks view eff s' (post i s') d (fun d' => Atomic Q (next i s') d' (post i s'))

variable {G view eff}

theorem Marks.mono {s s' : σ} {d : Option ℓ} {P P' : Option ℓ → Prop} (hp : ∀ d, P d → P' d)
    (h : Marks view eff s s' d P) : Marks view eff s s' d P' := by
  obtain ⟨hview, hP⟩ | ⟨hd, l, heff, hP⟩ := h
  · exact .inl ⟨hview, hp _ hP⟩
  · exact .inr ⟨hd, l, heff, hp _ hP⟩

theorem Atomic.mono {Q Q' : Option ℓ → Except ε α → σ → Prop} {p : Prog ι τ σ ε α}
    (hq : ∀ d o s, Q d o s → Q' d o s) {d : Option ℓ} {s : σ} (h : Atomic G view eff Q p d s) :
    Atomic G view eff Q' p d s := by
  induction p generalizing d s with
  | ret a => exact hq _ _ _ h
  | raise e => exact hq _ _ _ h
  | tx tag post next ih =>
    intro s' hG i
    obtain ⟨hpost, hmarks⟩ := h s' hG i
    exact ⟨hpost, hmarks.mono (fun d' hnext => ih i s' hnext)⟩

/-- Others may take turns first, if `G` can be composed and the postcondition survives it. -/
theorem Atomic.stable {Q : Option ℓ → Except ε α → σ → Prop}
    (htrans : ∀ s₁ s₂ s₃, G s₁ s₂ → G s₂ s₃ → G s₁ s₃)
    (hq : ∀ d o s s', G s s' → Q d o s → Q d o s') {p : Prog ι τ σ ε α} {d : Option ℓ} {s s' : σ}
    (hG : G s s') (h : Atomic G view eff Q p d s) : Atomic G view eff Q p d s' := by
  cases p with
  | ret a => exact hq _ _ _ _ hG h
  | raise e => exact hq _ _ _ _ hG h
  | tx tag post next => exact fun s₁ hG₁ => h s₁ (htrans _ _ _ hG hG₁)

/-- **The sequence rule.** -/
theorem atomic_bind {Q : Option ℓ → Except ε β → σ → Prop} {p : Prog ι τ σ ε α}
    {f : α → Prog ι τ σ ε β} {d : Option ℓ} {s : σ} :
    Atomic G view eff Q (p >>= f) d s ↔
      Atomic G view eff (fun d o s' => match o with
        | .ok a => Atomic G view eff Q (f a) d s'
        | .error e => Q d (.error e) s') p d s := by
  show Atomic G view eff Q (p.andThen f) d s ↔ _
  induction p generalizing d s with
  | ret a => exact Iff.rfl
  | raise e => exact Iff.rfl
  | tx tag post next ih =>
    refine forall_congr' (fun s' => imp_congr Iff.rfl (forall_congr' (fun i => ?_)))
    refine and_congr Iff.rfl (or_congr (and_congr Iff.rfl (ih i s')) ?_)
    exact and_congr Iff.rfl (exists_congr (fun l => and_congr Iff.rfl (ih i s')))

/-- **The rule of handlers.** -/
theorem atomic_tryCatch {Q : Option ℓ → Except ε α → σ → Prop} {p : Prog ι τ σ ε α}
    {handler : ε → Prog ι τ σ ε α} {d : Option ℓ} {s : σ} :
    Atomic G view eff Q (tryCatch p handler) d s ↔
      Atomic G view eff (fun d o s' => match o with
        | .ok a => Q d (.ok a) s'
        | .error e => Atomic G view eff Q (handler e) d s') p d s := by
  show Atomic G view eff Q (p.handle handler) d s ↔ _
  induction p generalizing d s with
  | ret a => exact Iff.rfl
  | raise e => exact Iff.rfl
  | tx tag post next ih =>
    refine forall_congr' (fun s' => imp_congr Iff.rfl (forall_congr' (fun i => ?_)))
    refine and_congr Iff.rfl (or_congr (and_congr Iff.rfl (ih i s')) ?_)
    exact and_congr Iff.rfl (exists_congr (fun l => and_congr Iff.rfl (ih i s')))

theorem atomic_compute {Q : Option ℓ → Except ε α → σ → Prop} {x : Except ε α} {d : Option ℓ}
    {s : σ} : Atomic G view eff Q (compute x : Prog ι τ σ ε α) d s ↔ Q d x s := by
  cases x <;> exact Iff.rfl

/-- **The rule of transactions**: one that raises leaves the store alone. -/
theorem atomic_transaction {Q : Option ℓ → Except ε α → σ → Prop} {tag : τ}
    {t : ι → σ → Except ε (α × σ)} {d : Option ℓ} {s : σ} (hrefl : ∀ s, G s s)
    (hok : ∀ s', G s s' → ∀ i a s'', t i s' = .ok (a, s'') → G s' s'' ∧
      Marks view eff s' s'' d (fun d' => Q d' (.ok a) s''))
    (herror : ∀ s', G s s' → ∀ i e, t i s' = .error e →
      Marks view eff s' s' d (fun d' => Q d' (.error e) s')) :
    Atomic G view eff Q (transaction tag t) d s := by
  intro s' hG i
  dsimp only
  cases ht : t i s' with
  | ok p => exact hok s' hG i p.1 p.2 ht
  | error e => exact ⟨hrefl s', herror s' hG i e ht⟩

/-- **The rule of retries**: an attempt that asks for another one has had no effect, and leaves
what an attempt starts from. -/
theorem atomic_retrying {Q : Option ℓ → Except ε α → σ → Prop} {again : ε → Option ε}
    {p : Prog ι τ σ ε α} {I : σ → Prop}
    (h : ∀ s, I s → Atomic G view eff (fun d o s' => match o with
      | .ok a => Q d (.ok a) s'
      | .error e => match again e with
        | some inner => d = none ∧ I s' ∧ Q none (.error inner) s'
        | none => Q d (.error e) s') p none s) :
    ∀ n s, I s → Atomic G view eff Q (retrying again p n) none s
  | 0, s, hs => by
    unfold retrying
    rw [atomic_tryCatch]
    refine (h s hs).mono (fun d o s' ho => ?_)
    cases o with
    | ok a => exact ho
    | error e =>
      show Q d (.error ((again e).getD e)) s'
      dsimp only at ho
      cases hagain : again e with
      | some inner =>
        rw [hagain] at ho
        obtain ⟨rfl, -, hq⟩ := ho
        exact hq
      | none =>
        rw [hagain] at ho
        exact ho
  | n + 1, s, hs => by
    unfold retrying
    rw [atomic_tryCatch]
    refine (h s hs).mono (fun d o s' ho => ?_)
    cases o with
    | ok a => exact ho
    | error e =>
      dsimp only at ho ⊢
      cases hagain : again e with
      | some inner =>
        rw [hagain] at ho
        obtain ⟨rfl, hs', -⟩ := ho
        exact atomic_retrying h n s' hs'
      | none =>
        rw [hagain] at ho
        exact ho

end

/-! ## Turns -/

/-- A caller that is not in the order can be added at its end. -/
theorem nodup_snoc [DecidableEq κ] {order : List (κ × ℓ)} {k : κ} (l : ℓ)
    (hnodup : (order.map Prod.fst).Nodup) (hnone : order.lookup k = none) :
    ((order ++ [(k, l)]).map Prod.fst).Nodup := by
  have hnew : k ∉ order.map Prod.fst := by
    intro hmem
    obtain ⟨q, hq, rfl⟩ := List.mem_map.mp hmem
    have hno := List.lookup_eq_none_iff.mp hnone q hq
    rw [bne_self_eq_false] at hno
    cases hno
  rw [List.map_append, List.nodup_append]
  refine ⟨hnodup, List.nodup_singleton _, fun a ha b hb he => hnew ?_⟩
  rw [he, List.mem_singleton.mp hb] at ha
  exact ha

theorem lookup_snoc_self [DecidableEq κ] {order : List (κ × ℓ)} {k : κ} (l : ℓ)
    (hnone : order.lookup k = none) : (order ++ [(k, l)]).lookup k = some l := by
  rw [List.lookup_append, hnone, List.lookup_cons, beq_self_eq_true]
  rfl

theorem lookup_snoc_ne [DecidableEq κ] (order : List (κ × ℓ)) {j k : κ} (l : ℓ) (hj : j ≠ k) :
    (order ++ [(k, l)]).lookup j = order.lookup j := by
  rw [List.lookup_append, List.lookup_cons, beq_false_of_ne hj]
  exact Option.or_none

/-- **Linearization.** Where every caller has had the effect that the order says, if any, and goes
on atomically, the effects of a run are added at the end of the order. `Q` says of a caller what
it ends in with its effect. -/
theorem linearize [DecidableEq κ] {G : σ → σ → Prop} {view : σ → V}
    {eff : κ → ℓ → V → V → Prop} {Q : κ → Option ℓ → Except ε α → Prop} (hrefl : ∀ s, G s s)
    (htrans : ∀ s₁ s₂ s₃, G s₁ s₂ → G s₂ s₃ → G s₁ s₃) {c c' : Callers κ ι τ σ ε α} {ks : List κ}
    (hrun : Run Turn c ks c') :
    ∀ order : List (κ × ℓ), (order.map Prod.fst).Nodup →
      (∀ k, Atomic G view (eff k) (fun d o _ => Q k d o) (c.prog k) (order.lookup k)
        c.store) →
      ∃ more : List (κ × ℓ), ((order ++ more).map Prod.fst).Nodup ∧
        Run (fun l => eff l.1 l.2) (view c.store) more (view c'.store) ∧ G c.store c'.store ∧
        ∀ k, Atomic G view (eff k) (fun d o _ => Q k d o) (c'.prog k)
          ((order ++ more).lookup k) c'.store := by
  induction hrun with
  | nil c =>
    intro order hnodup h
    refine ⟨[], ?_, .nil _, hrefl _, ?_⟩ <;> rw [List.append_nil] <;> assumption
  | @cons c c₁ c' k ks hturn hrest ih =>
    intro order hnodup h
    cases hturn with
    | @tx tag post next i hprog =>
      have hk := h k
      rw [hprog] at hk
      obtain ⟨hG, hstep⟩ := hk c.store (hrefl _) i
      -- the others go on from the store that this turn leaves
      have hgoOn : ∀ order' : List (κ × ℓ),
          (∀ j, j ≠ k → order'.lookup j = order.lookup j) →
          Atomic G view (eff k) (fun d o _ => Q k d o) (next i c.store) (order'.lookup k)
            (post i c.store) →
          ∀ j, Atomic G view (eff j) (fun d o _ => Q j d o)
            (Function.update c.prog k (next i c.store) j) (order'.lookup j) (post i c.store) := by
        intro order' hsame hnext j
        by_cases hj : j = k
        · subst hj
          rw [Function.update_self]
          exact hnext
        · rw [Function.update_of_ne hj, hsame j hj]
          exact (h j).stable htrans (fun _ _ _ _ _ hq => hq) hG
      rcases hstep with ⟨hview, hnext⟩ | ⟨hnone, l, heff, hnext⟩
      · obtain ⟨more, hnodup', hruns, hG', hend⟩ :=
          ih order hnodup (hgoOn order (fun _ _ => rfl) hnext)
        refine ⟨more, hnodup', ?_, htrans _ _ _ hG hG', hend⟩
        rw [← hview]
        exact hruns
      · -- the caller is new in the order
        obtain ⟨more, hnodup', hruns, hG', hend⟩ :=
          ih (order ++ [(k, l)]) (nodup_snoc l hnodup hnone)
            (hgoOn _ (fun j hj => lookup_snoc_ne order l hj)
              (by rw [lookup_snoc_self l hnone]; exact hnext))
        rw [List.append_assoc] at hnodup' hend
        exact ⟨(k, l) :: more, hnodup', .cons heff hruns, htrans _ _ _ hG hG', hend⟩

/-- The callers have got from one point to another as if each had had its effect at once, in this
order. -/
structure Linearized [DecidableEq κ] (view : σ → V) (eff : κ → ℓ → V → V → Prop)
    (Q : κ → Option ℓ → Except ε α → Prop) (c c' : Callers κ ι τ σ ε α)
    (order : List (κ × ℓ)) : Prop where
  once : (order.map Prod.fst).Nodup
  effects : Run (fun l => eff l.1 l.2) (view c.store) order (view c'.store)
  returned : ∀ k a, c'.prog k = .ret a → Q k (order.lookup k) (.ok a)
  raised : ∀ k e, c'.prog k = .raise e → Q k (order.lookup k) (.error e)

/-- **Callers with atomic programs**, up to a point of a run and up to its end. -/
theorem linearized [DecidableEq κ] {G : σ → σ → Prop} {view : σ → V}
    {eff : κ → ℓ → V → V → Prop} {Q : κ → Option ℓ → Except ε α → Prop} (hrefl : ∀ s, G s s)
    (htrans : ∀ s₁ s₂ s₃, G s₁ s₂ → G s₂ s₃ → G s₁ s₃) {c c₁ c₂ : Callers κ ι τ σ ε α}
    (h : ∀ k, Atomic G view (eff k) (fun d o _ => Q k d o) (c.prog k) none c.store)
    {ks₁ ks₂ : List κ} (hrun₁ : Run Turn c ks₁ c₁) (hrun₂ : Run Turn c₁ ks₂ c₂) :
    ∃ order more : List (κ × ℓ), Linearized view eff Q c c₁ order ∧
      Linearized view eff Q c c₂ (order ++ more) ∧ G c.store c₁.store ∧ G c₁.store c₂.store := by
  obtain ⟨order, hnodup, hruns, hG, hend⟩ := linearize hrefl htrans hrun₁ [] List.nodup_nil h
  rw [List.nil_append] at hnodup hend
  obtain ⟨more, hnodup', hruns', hG', hend'⟩ := linearize hrefl htrans hrun₂ order hnodup hend
  have houtcome : ∀ {c' : Callers κ ι τ σ ε α} {order : List (κ × ℓ)},
      (∀ k, Atomic G view (eff k) (fun d o _ => Q k d o) (c'.prog k) (order.lookup k) c'.store) →
      (∀ k a, c'.prog k = .ret a → Q k (order.lookup k) (.ok a)) ∧
        ∀ k e, c'.prog k = .raise e → Q k (order.lookup k) (.error e) := by
    intro c' order hall
    refine ⟨fun k a hk => ?_, fun k e hk => ?_⟩
    · have hret := hall k
      rw [hk] at hret
      exact hret
    · have hraise := hall k
      rw [hk] at hraise
      exact hraise
  exact ⟨order, more, ⟨hnodup, hruns, (houtcome hend).1, (houtcome hend).2⟩,
    ⟨hnodup', hruns.append hruns', (houtcome hend').1, (houtcome hend').2⟩, hG, hG'⟩

end PolarBear.Transactions
