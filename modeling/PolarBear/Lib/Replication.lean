import Mathlib.Logic.Function.Basic
import PolarBear.Lib.Fallible

/-!
# Databases with a replica that lags

A `Replicated` database has committed states its replica has not reached yet, in
the order they were committed; the last of them is what the primary holds. A
commit adds one, a replication step hands the oldest to the replica. Nothing
bounds the lag.

Several databases are a `Cluster`, by the keys of their connections. Along a run
of commits to one of them and replication steps of any, its primary holds what
the commits made of it (`primary_runEvents`).
-/

namespace PolarBear.Replication

open PolarBear.Fallible

variable {κ σ ω ε : Type}

/-- What the replica holds, and the committed states it has yet to reach, the oldest first. -/
structure Replicated (σ : Type) where
  replica : σ
  pending : List σ

namespace Replicated

def primary (d : Replicated σ) : σ := d.pending.getLast?.getD d.replica

/-- A transaction commits. -/
def commit (d : Replicated σ) (s : σ) : Replicated σ := { d with pending := d.pending ++ [s] }

/-- The replica takes one transaction over. -/
def replicate (d : Replicated σ) : Replicated σ :=
  match d.pending with
  | [] => d
  | s :: rest => ⟨s, rest⟩

/-- The replica has taken everything over. -/
def CaughtUp (d : Replicated σ) : Prop := d.pending = []

@[simp] theorem primary_commit (d : Replicated σ) (s : σ) : (d.commit s).primary = s := by
  unfold primary commit
  rw [List.getLast?_concat]
  rfl

@[simp] theorem primary_replicate (d : Replicated σ) : d.replicate.primary = d.primary := by
  unfold primary replicate
  cases hpending : d.pending with
  | nil => rw [hpending]
  | cons s rest =>
    cases rest with
    | nil => rfl
    | cons s' rest => rfl

/-- Without a lag both hold the same. -/
theorem CaughtUp.replica_eq {d : Replicated σ} (h : d.CaughtUp) : d.replica = d.primary := by
  unfold CaughtUp at h
  unfold primary
  rw [h]
  rfl

end Replicated

/-- The databases, by the keys of their connections. -/
abbrev Cluster (κ σ : Type) : Type := κ → Replicated σ

/-- A write to the database of a run, or a replication step of some database. -/
inductive Event (κ ω : Type) where
  | write (w : ω)
  | replicate (db : κ)

/-- The writes among the events. -/
def writes : List (Event κ ω) → List ω
  | [] => []
  | .write w :: events => w :: writes events
  | .replicate _ :: events => writes events

section

variable [DecidableEq κ] (apply : ω → σ → Except ε σ) (db : κ)

/-- A write that raises is not committed, and is no event of a run. -/
def step (event : Event κ ω) (c : Cluster κ σ) : Except ε (Cluster κ σ) :=
  match event with
  | .write w => do
    let s ← apply w (c db).primary
    .ok (Function.update c db ((c db).commit s))
  | .replicate other => .ok (Function.update c other (c other).replicate)

/-- A run of events. -/
def runEvents (events : List (Event κ ω)) (c : Cluster κ σ) : Except ε (Cluster κ σ) :=
  events.foldlM (fun c event => step apply db event c) c

/-- A run of writes on one state. -/
def applyAll (ws : List ω) (s : σ) : Except ε σ := ws.foldlM (fun s w => apply w s) s

variable {apply db}

/-- **What the primary holds**: what the writes made of it, whatever was replicated meanwhile. -/
theorem primary_runEvents {events : List (Event κ ω)} :
    ∀ {c c' : Cluster κ σ}, runEvents apply db events c = .ok c' →
      applyAll apply (writes events) (c db).primary = .ok (c' db).primary := by
  induction events with
  | nil =>
    intro c c' h
    cases h
    rfl
  | cons event events ih =>
    intro c c' h
    unfold runEvents at h
    rw [List.foldlM_cons] at h
    obtain ⟨c₁, hone, h⟩ := bind_ok_iff.mp h
    have hrest := ih h
    cases event with
    | write w =>
      obtain ⟨s, happly, hcommit⟩ := bind_ok_iff.mp hone
      cases hcommit
      rw [Function.update_self, Replicated.primary_commit] at hrest
      unfold writes applyAll
      rw [List.foldlM_cons]
      exact bind_ok_iff.mpr ⟨s, happly, hrest⟩
    | replicate other =>
      cases hone
      by_cases hother : other = db
      · subst hother
        rw [Function.update_self, Replicated.primary_replicate] at hrest
        exact hrest
      · rw [Function.update_of_ne (Ne.symm hother)] at hrest
        exact hrest

end

end PolarBear.Replication
