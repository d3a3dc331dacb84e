/-!
# Runs of a labelled step relation

`Run step s ls s'` is a finite run from `s` to `s'` that takes a step for each
label of `ls`. What one step preserves, a run preserves: `Run.invariant` for a
property of states, `Run.relates` for a reflexive and transitive relation
between the states of the run, both for steps that satisfy a side condition.

Two step relations that agree wherever an invariant of a third holds have the
same runs among the runs of the third: `Run.congr`.
-/

namespace PolarBear.Transition

variable {σ ℓ : Type}

/-- A run and the labels of its steps. -/
inductive Run (step : ℓ → σ → σ → Prop) : σ → List ℓ → σ → Prop
  | nil (s : σ) : Run step s [] s
  | cons {s s₁ s' : σ} {l : ℓ} {ls : List ℓ} :
      step l s s₁ → Run step s₁ ls s' → Run step s (l :: ls) s'

variable {step : ℓ → σ → σ → Prop}

/-- **Invariants.** -/
theorem Run.invariant {I : σ → Prop}
    (preserves : ∀ l s s', I s → step l s s' → I s') {s s' : σ} {ls : List ℓ}
    (h : Run step s ls s') (hs : I s) : I s' := by
  induction h with
  | nil s => exact hs
  | cons hstep _ ih => exact ih (preserves _ _ _ hs hstep)

/-- **Relations along a run**: what relates the ends of every step relates the
ends of the run. -/
theorem Run.relates {R : σ → σ → Prop} (hrefl : ∀ s, R s s)
    (htrans : ∀ s₁ s₂ s₃, R s₁ s₂ → R s₂ s₃ → R s₁ s₃) (hstep : ∀ l s s', step l s s' → R s s')
    {s s' : σ} {ls : List ℓ} (h : Run step s ls s') : R s s' := by
  induction h with
  | nil s => exact hrefl s
  | cons hs _ ih => exact htrans _ _ _ (hstep _ _ _ hs) ih

/-- Two runs, one after the other. -/
theorem Run.append {s s₁ s' : σ} {ls ls' : List ℓ} (h : Run step s ls s₁)
    (h' : Run step s₁ ls' s') : Run step s (ls ++ ls') s' := by
  induction h with
  | nil s => exact h'
  | cons hs _ ih => exact .cons hs (ih h')

/-- A run has been at a state after the first of its labels. -/
theorem Run.of_append {s s' : σ} {ls ls' : List ℓ} (h : Run step s (ls ++ ls') s') :
    ∃ s₁, Run step s ls s₁ ∧ Run step s₁ ls' s' := by
  induction ls generalizing s with
  | nil => exact ⟨s, .nil s, h⟩
  | cons l ls ih =>
    cases h with
    | cons hs hrest =>
      obtain ⟨s₁, hfirst, hlast⟩ := ih hrest
      exact ⟨s₁, .cons hs hfirst, hlast⟩

/-- **Between two steps of a run**: what the first brings about and every step up to the second
keeps holds where the second is taken. -/
theorem Run.between {Inv : σ → Prop} {s s' : σ} {l l' : ℓ} {xs ys zs : List ℓ}
    (h : Run step s (xs ++ l :: (ys ++ l' :: zs)) s') (hstart : ∀ v v', step l v v' → Inv v')
    (hkeeps : ∀ m ∈ ys, ∀ v v', step m v v' → Inv v → Inv v') :
    ∃ v v', Inv v ∧ step l' v v' := by
  have hkept : ∀ {ys : List ℓ} {v v' : σ}, (∀ m ∈ ys, ∀ v v', step m v v' → Inv v → Inv v') →
      Run step v ys v' → Inv v → Inv v' := by
    intro ys v v' hys hrun
    induction hrun with
    | nil v => exact id
    | @cons v v₁ v' m ms hstep _ ih =>
      obtain ⟨hfirst, hrest⟩ := List.forall_mem_cons.mp hys
      exact fun hv => ih hrest (hfirst v v₁ hstep hv)
  obtain ⟨v₁, -, hrest⟩ := h.of_append
  cases hrest with
  | cons hfirst hrest =>
    obtain ⟨v₂, hbetween, hlast⟩ := hrest.of_append
    cases hlast with
    | cons hsecond _ => exact ⟨v₂, _, hkept hkeeps hbetween (hstart _ _ hfirst), hsecond⟩

/-- A run of smaller steps. -/
theorem Run.mono {step' : ℓ → σ → σ → Prop} (hstep : ∀ l s s', step l s s' → step' l s s')
    {s s' : σ} {ls : List ℓ} (h : Run step s ls s') : Run step' s ls s' := by
  induction h with
  | nil s => exact .nil s
  | cons hs _ ih => exact .cons (hstep _ _ _ hs) ih

/-- **Restricted runs**: steps may be restricted by either of two conditions that
agree where an invariant holds, if the steps that satisfy one of them keep it. -/
theorem Run.congr {I : σ → Prop} {P Q : ℓ → σ → σ → Prop}
    (preserves : ∀ l s s', I s → step l s s' → P l s s' → I s')
    (hpq : ∀ l s s', I s → step l s s' → (P l s s' ↔ Q l s s'))
    {s s' : σ} {ls : List ℓ} (hs : I s) :
    Run (fun l s s' => step l s s' ∧ P l s s') s ls s' ↔
      Run (fun l s s' => step l s s' ∧ Q l s s') s ls s' := by
  constructor
  · intro h
    induction h with
    | nil s => exact .nil s
    | cons h _ ih =>
      exact .cons ⟨h.1, (hpq _ _ _ hs h.1).mp h.2⟩ (ih (preserves _ _ _ hs h.1 h.2))
  · intro h
    induction h with
    | nil s => exact .nil s
    | cons h _ ih =>
      have hp := (hpq _ _ _ hs h.1).mpr h.2
      exact .cons ⟨h.1, hp⟩ (ih (preserves _ _ _ hs h.1 hp))

end PolarBear.Transition
