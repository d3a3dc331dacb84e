import PolarBear.Lib.Transactions

/-!
# Migrating in batches

`migrate_flavors` and `migrate_aggregates` are the same loop over different
entities: the ids of a batch of live rows are read, and each is migrated in a
round of its own that counts what it copied. `wp_migrateBatch` turns what one
round does, moving the first live row, into what a call does.
-/

namespace PolarBear.Db

open Transactions
open Transition (Run)
open Transactions.Prog (reading)

variable {ι τ σ ε ρ : Type}

/-- The loop of a migration: how many ids were found, and how many of them were copied. -/
def migrateBatch (mainDbIds : Prog ι τ σ ε (List Nat)) (round : Nat → Nat → Prog ι τ σ ε Nat) :
    Prog ι τ σ ε (Nat × Nat) := do
  let ids ← mainDbIds
  if ids.isEmpty then pure (0, 0)
  else
    let countHit ← ids.foldlM round 0
    pure (ids.length, countHit)

/-- The ids of the first live rows. -/
def liveIds (tag : τ) (live : σ → List ρ) (key : ρ → Nat) (limit : Nat) :
    Prog ι τ σ ε (List Nat) := reading tag (fun s => .ok (((live s).take limit).map key))

/-- **A call.** If a round moves the first live row and counts it, a call that completes has
moved and counted all it found. -/
theorem wp_migrateBatch [Nonempty ι] (safe : τ → Prop) {tag : τ} (live : σ → List ρ)
    (key : ρ → Nat) (round : Nat → Nat → Prog ι τ σ ε Nat) {P : σ → Prop}
    (hround : ∀ s r others n, P s → live s = r :: others → wp safe (fun o s' => match o with
      | .returned n' => P s' ∧ live s' = others ∧ n' = n + 1
      | .raised _ => P s'
      | .crashed => P s') (round n (key r)) s)
    {s : σ} (h : P s) (count : Nat) :
    wp safe (fun o s' => match o with
      | .returned r => P s' ∧ r.1 = min count (live s).length ∧ r.2 = r.1 ∧
          live s' = (live s).drop count
      | _ => P s') (migrateBatch (liveIds tag live key count) round) s := by
  have hsplit := List.take_append_drop count (live s)
  have hlen : (((live s).take count).map key).length = min count (live s).length := by
    rw [List.length_map, List.length_take]
  unfold migrateBatch liveIds
  rw [wp_bind, wp_reading]
  refine ⟨fun _ => h, ?_⟩
  dsimp only
  split
  next hempty =>
    -- nothing is found
    have hnil : (live s).take count = [] := List.map_eq_nil_iff.mp (List.isEmpty_iff.mp hempty)
    refine ⟨h, ?_, rfl, ?_⟩
    · rw [← hlen, hnil]
      rfl
    · rw [hnil, List.nil_append] at hsplit
      exact hsplit.symm
  next =>
    rw [wp_bind]
    refine wp_mono (wp_workOff safe round live key hround h hsplit.symm) (fun o s' ho => ?_)
    cases o with
    | raised e => exact ho
    | crashed => exact ho
    | returned hit =>
      have hhit : hit = ((live s).take count).length := ho.2.2
      refine ⟨ho.1, hlen, ?_, ho.2.1⟩
      show hit = (((live s).take count).map key).length
      rw [hhit, List.length_map]

/-- A migration from `s` to `s'`: calls with batches of one or more are made, some of them cut
short by a crash, until one completes that found nothing or copied nothing. -/
def Finished {κ : Type} (safe : τ → Prop) (prog : κ → Prog ι τ σ ε (Nat × Nat)) (count : κ → Nat)
    (s s' : σ) : Prop :=
  ∃ calls s₁ c found hit, (∀ l ∈ calls, 1 ≤ count l.1) ∧ Run (CallStep safe prog) s calls s₁ ∧
    1 ≤ count c ∧ Exec safe (prog c) s₁ (.returned (found, hit)) s' ∧ (found = 0 ∨ hit = 0)

end PolarBear.Db
