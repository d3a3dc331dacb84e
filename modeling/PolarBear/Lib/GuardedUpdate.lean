import PolarBear.Lib.Interleaving
import PolarBear.Lib.Keyed

/-!
# Guarded updates by several callers

Statements on a keyed table that is a part of a store: `selectFirst` finds one of the rows of a
query, `updateWhere` changes the rows that match a condition and counts them. Which of several rows
comes first is not said by the query, but from outside (`Choice`).

Callers that only use such updates never change which row has which id, key and liveness
(`Keyed.Same`), so a row that one of them found is there under its key later. An update that can
match one live row only acts on the map of the keys at once (`atomic_updateWhere`).
-/

namespace PolarBear.Transactions

open Prog (transaction)

/-- What a statement gets from outside: the time, and which of several rows comes first. -/
structure Choice where
  now : Nat
  index : Nat
  deriving DecidableEq, Repr

/-- The first of rows in no order. -/
def Choice.first {ρ : Type} (c : Choice) (rows : List ρ) : Option ρ :=
  rows[c.index % rows.length]?

theorem first_mem {ρ : Type} {c : Choice} {rows : List ρ} {r : ρ} (h : c.first rows = some r) :
    r ∈ rows :=
  List.mem_of_getElem? h

theorem first_none {ρ : Type} {c : Choice} {rows : List ρ} (h : c.first rows = none) :
    rows = [] := by
  by_contra hne
  have hlt : c.index % rows.length < rows.length :=
    Nat.mod_lt _ (List.length_pos_iff.mpr hne)
  unfold Choice.first at h
  rw [List.getElem?_eq_getElem hlt] at h
  cases h

variable {τ σ ε ρ γ ℓ : Type} {ident : ρ → Nat} {key : ρ → γ} {live : ρ → Bool}

/-- A table that is a part of the store. -/
structure Part (σ T : Type) where
  get : σ → T
  set : T → σ → σ
  get_set : ∀ t s, get (set t s) = t

/-- A query, and what is raised if it has no row. -/
def selectFirst (tag : τ) (rows : σ → List ρ) (e : ε) : Prog Choice τ σ ε ρ :=
  transaction tag (fun i s => match i.first (rows s) with
    | some r => .ok (r, s)
    | none => .error e)

/-- `UPDATE .. WHERE`: how many rows it changed. -/
def updateWhere (tag : τ) (part : Part σ (Keyed ρ γ ident key live)) (p : ρ → Bool)
    (f : Choice → ρ → ρ) (hf : ∀ i, Keyed.Keeps ident key live (f i)) : Prog Choice τ σ ε Nat :=
  transaction tag (fun i s =>
    .ok ((part.get s).rows.countP p, part.set ((part.get s).update p (f i) (hf i)) s))

section

variable {part : Part σ (Keyed ρ γ ident key live)}

/-- What callers keep among each other. -/
def SameRows (part : Part σ (Keyed ρ γ ident key live)) (s s' : σ) : Prop :=
  Keyed.Same (part.get s) (part.get s')

theorem SameRows.refl (s : σ) : SameRows part s s := Keyed.Same.refl _

theorem SameRows.trans (s₁ s₂ s₃ : σ) (h : SameRows part s₁ s₂) (h' : SameRows part s₂ s₃) :
    SameRows part s₁ s₃ :=
  Keyed.Same.trans h h'

variable [DecidableEq γ] {eff : ℓ → (γ → Option ρ) → (γ → Option ρ) → Prop} {s : σ}

/-- The map that the table is. -/
def Part.view (part : Part σ (Keyed ρ γ ident key live)) (s : σ) : γ → Option ρ :=
  (part.get s).read

theorem atomic_selectFirst {α : Type} {tag : τ} {rows : σ → List α} {e : ε} {d : Option ℓ}
    {Q : Option ℓ → Except ε α → σ → Prop}
    (hsome : ∀ s' r, SameRows part s s' → r ∈ rows s' → Q d (.ok r) s')
    (hnone : ∀ s', SameRows part s s' → rows s' = [] → Q d (.error e) s') :
    Atomic (SameRows part) part.view eff Q (selectFirst tag rows e) d s := by
  unfold selectFirst
  refine atomic_transaction SameRows.refl (fun s' hG i r s'' ht => ?_) (fun s' hG i e' ht => ?_)
  · split at ht
    · next r' hfirst =>
      cases ht
      exact ⟨SameRows.refl _, .inl ⟨rfl, hsome s' r hG (first_mem hfirst)⟩⟩
    · cases ht
  · split at ht
    · cases ht
    · next hfirst =>
      cases ht
      exact .inl ⟨rfl, hnone s' hG (first_none hfirst)⟩

/-- **The rule of guarded updates**: one that matches no row may have an effect that leaves the map
alone, one that matches a row has its effect on the key of that row. -/
theorem atomic_updateWhere {tag : τ} {p : ρ → Bool} {f : Choice → ρ → ρ}
    {hf : ∀ i, Keyed.Keeps ident key live (f i)} {Q : Option ℓ → Except ε Nat → σ → Prop}
    (hlive : ∀ s', SameRows part s s' → ∀ r ∈ (part.get s').rows, p r = true → live r = true)
    (hone : ∀ s', SameRows part s s' → ∀ r ∈ (part.get s').rows, ∀ r' ∈ (part.get s').rows,
      p r = true → p r' = true → r = r')
    (hmiss : ∀ s', SameRows part s s' → (∀ r ∈ (part.get s').rows, p r = false) → ∀ s'',
      Q none (.ok 0) s'' ∨
        ∃ l, eff l (part.view s') (part.view s') ∧ Q (some l) (.ok 0) s'')
    (hhit : ∀ s' r, SameRows part s s' → p r = true → part.view s' (key r) = some r →
      ∀ i s'', ∃ l,
        eff l (part.view s') (Function.update (part.view s') (key r) (some (f i r))) ∧
          Q (some l) (.ok 1) s'') :
    Atomic (SameRows part) part.view eff Q (updateWhere tag part p f hf) none s := by
  unfold updateWhere
  refine atomic_transaction SameRows.refl (fun s' hG i n s'' ht => ?_) (fun s' hG i e ht => ?_)
  · cases ht
    have hget := part.get_set ((part.get s').update p (f i) (hf i)) s'
    refine ⟨?_, ?_⟩
    · unfold SameRows
      rw [hget]
      exact Keyed.same_update (hf i)
    have hview : part.view (part.set ((part.get s').update p (f i) (hf i)) s') =
        ((part.get s').update p (f i) (hf i)).read := congrArg Keyed.read hget
    unfold Marks
    rw [hview]
    rcases Keyed.update_cases (hf i) (hlive s' hG) (hone s' hG) with
      ⟨hzero, hnone, hread⟩ | ⟨hcount, r, hp, hr, hread⟩
    · rw [hread, hzero]
      rcases hmiss s' hG hnone (part.set ((part.get s').update p (f i) (hf i)) s') with hq | hl
      · exact .inl ⟨rfl, hq⟩
      · exact .inr ⟨rfl, hl⟩
    · rw [hread, hcount]
      exact .inr ⟨rfl, hhit s' r hG hp hr i _⟩
  · cases ht

end

end PolarBear.Transactions
