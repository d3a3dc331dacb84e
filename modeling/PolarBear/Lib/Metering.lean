import Mathlib.Algebra.Order.Monoid.Canonical.Defs
import PolarBear.Lib.Transition

/-!
# Metering a counter that restarts

A counter grows from zero and starts again at zero now and then. Whoever reads it keeps the sum of
the spells that ended, and the last reading. A reading that is not at least the last one tells that
a spell has ended; one that is tells nothing, and the spell before is missed.

The counter may be a tuple: then the order is the one by components, and one component that is
lower tells of the restart of all. `Metered.Balanced` is what a run keeps: what the meter shows and
what it missed are together what was there to be read, `seen`.
-/

namespace PolarBear.Metering

open PolarBear.Transition (Run)

variable {α : Type} [AddCommMonoid α] [PartialOrder α]

/-- What is kept: the spells that ended, and the last reading. -/
structure Meter (α : Type) where
  total : α
  current : α

/-- A reading, or the last reading of a spell. -/
inductive Reading (α : Type) where
  | sample (value : α)
  | final (value : α)

def Meter.read [DecidableLE α] (m : Meter α) : Reading α → Meter α
  | .sample value =>
    if m.current ≤ value then ⟨m.total, value⟩ else ⟨m.total + m.current, value⟩
  | .final value =>
    if m.current ≤ value then ⟨m.total + value, 0⟩ else ⟨m.total + m.current + value, 0⟩

/-- What the meter shows. -/
def Meter.usage (m : Meter α) : α := m.total + m.current

/-- A counter. `past` are the last readings of the spells that ended, `last` is that of this spell;
`fresh` tells that the counter was not read since it started. -/
structure Source (α : Type) where
  count : α
  past : α
  last : α
  fresh : Bool

/-- What happens to a counter. -/
inductive Event (α : Type) where
  | grow (amount : α)
  | restart
  | sample
  | final

def Source.step (c : Source α) : Event α → Source α
  | .grow amount => { c with count := c.count + amount }
  | .restart => ⟨0, c.past + c.last, 0, true⟩
  | .sample => { c with last := c.count, fresh := false }
  | .final => ⟨0, c.past + c.count, 0, true⟩

/-- What is read. -/
def Source.reading (c : Source α) : Event α → Option (Reading α)
  | .grow _ => none
  | .restart => none
  | .sample => some (.sample c.count)
  | .final => some (.final c.count)

/-- What was there to be read. -/
def Source.seen (c : Source α) : α := c.past + c.last

/-- A counter and its meter. -/
structure Metered (α : Type) where
  source : Source α
  meter : Meter α

def Metered.step [DecidableLE α] (s : Metered α) (e : Event α) : Metered α :=
  ⟨s.source.step e, (s.source.reading e).elim s.meter s.meter.read⟩

/-- Before the first event. -/
def Metered.initial : Metered α := ⟨⟨0, 0, 0, true⟩, ⟨0, 0⟩⟩

/-- What the event misses: a spell that has ended, if the counter is past its last reading. -/
def Metered.misses [DecidableLE α] (s : Metered α) (e : Event α) : α :=
  if (s.source.reading e).isSome = true ∧ s.source.fresh = true ∧ s.meter.current ≤ s.source.count
  then s.meter.current else 0

/-- **The balance.** -/
structure Metered.Balanced (missed : α) (s : Metered α) : Prop where
  last_le : s.source.last ≤ s.source.count
  stale : s.source.fresh = true →
    s.source.last = 0 ∧ s.meter.total + s.meter.current + missed = s.source.past
  present : s.source.fresh = false →
    s.meter.current = s.source.last ∧ s.meter.total + missed = s.source.past

theorem Metered.balanced_initial : Metered.Balanced 0 (Metered.initial : Metered α) where
  last_le := le_refl _
  stale := fun _ => ⟨rfl, by rw [add_zero]; exact add_zero 0⟩
  present := fun h => Bool.noConfusion h

/-- What is shown and what was missed are what was there. -/
theorem Metered.Balanced.usage_add {missed : α} {s : Metered α} (h : s.Balanced missed) :
    s.meter.usage + missed = s.source.seen := by
  unfold Meter.usage Source.seen
  cases hfresh : s.source.fresh with
  | true =>
    obtain ⟨hlast, hsum⟩ := h.stale hfresh
    rw [hlast, add_zero, hsum]
  | false =>
    obtain ⟨hcurrent, hsum⟩ := h.present hfresh
    rw [hcurrent, add_right_comm, hsum]

/-- One reading ends the spell before, if it is noticed. -/
theorem Metered.Balanced.before [DecidableLE α] {missed : α} {s : Metered α}
    (h : s.Balanced missed) :
    (if s.meter.current ≤ s.source.count then s.meter.total else s.meter.total + s.meter.current) +
      (missed + s.misses .sample) = s.source.past := by
  unfold Metered.misses
  cases hfresh : s.source.fresh with
  | true =>
    obtain ⟨-, hsum⟩ := h.stale hfresh
    by_cases hle : s.meter.current ≤ s.source.count
    · rw [if_pos hle, if_pos ⟨rfl, rfl, hle⟩, ← hsum, ← add_assoc, add_right_comm]
    · rw [if_neg hle, if_neg (fun h => hle h.2.2), add_zero, hsum]
  | false =>
    obtain ⟨hcurrent, hsum⟩ := h.present hfresh
    rw [if_pos (hcurrent.trans_le h.last_le), if_neg (fun h => Bool.false_ne_true h.2.1), add_zero,
      hsum]

/-- **One event** adds to what was missed. -/
theorem Metered.Balanced.step [DecidableLE α] [CanonicallyOrderedAdd α] {missed : α} {s : Metered α}
    (h : s.Balanced missed) (e : Event α) : (s.step e).Balanced (missed + s.misses e) := by
  cases e with
  | grow amount =>
    have hnone : s.misses (.grow amount) = 0 := if_neg (fun h => Bool.false_ne_true h.1)
    rw [hnone, add_zero]
    exact ⟨h.last_le.trans le_self_add, h.stale, h.present⟩
  | restart =>
    have hnone : s.misses .restart = 0 := if_neg (fun h => Bool.false_ne_true h.1)
    rw [hnone, add_zero]
    refine ⟨le_refl _, fun _ => ⟨rfl, ?_⟩, fun h => Bool.noConfusion h⟩
    exact h.usage_add
  | sample =>
    have hbefore := h.before
    refine ⟨le_refl _, fun h => Bool.noConfusion h, fun _ => ?_⟩
    show (s.meter.read (.sample s.source.count)).current = s.source.count ∧
      (s.meter.read (.sample s.source.count)).total + _ = s.source.past
    unfold Meter.read
    dsimp only
    split
    · next hle =>
      rw [if_pos hle] at hbefore
      exact ⟨rfl, hbefore⟩
    · next hle =>
      rw [if_neg hle] at hbefore
      exact ⟨rfl, hbefore⟩
  | final =>
    have hbefore := h.before
    have hsame : s.misses .final = s.misses .sample := rfl
    refine ⟨le_refl _, fun _ => ⟨rfl, ?_⟩, fun h => Bool.noConfusion h⟩
    show (s.meter.read (.final s.source.count)).total +
      (s.meter.read (.final s.source.count)).current + _ = s.source.past + s.source.count
    unfold Meter.read
    dsimp only
    rw [hsame]
    split
    · next hle =>
      rw [if_pos hle] at hbefore
      rw [add_zero, add_right_comm, hbefore]
    · next hle =>
      rw [if_neg hle] at hbefore
      rw [add_zero, add_right_comm, hbefore]

/-! ## Whether anything is missed -/

/-- The event notices a restart, if there was one that matters. -/
def Metered.Notices (s : Metered α) (e : Event α) : Prop :=
  (s.source.reading e).isSome = true → s.source.fresh = true →
    s.meter.current ≤ s.source.count → s.meter.current = 0

theorem Metered.misses_eq_zero_iff [DecidableLE α] {s : Metered α} {e : Event α} :
    s.misses e = 0 ↔ s.Notices e := by
  unfold Metered.misses Metered.Notices
  split
  · next h => exact ⟨fun hzero _ _ _ => hzero, fun hnotices => hnotices h.1 h.2.1 h.2.2⟩
  · next h => exact ⟨fun _ hreads hfresh hle => absurd ⟨hreads, hfresh, hle⟩ h, fun _ => rfl⟩

/-- **The meter is right exactly if nothing was missed.** -/
theorem Metered.Balanced.usage_eq_iff [IsCancelAdd α] {missed : α} {s : Metered α}
    (h : s.Balanced missed) : s.meter.usage = s.source.seen ↔ missed = 0 := by
  rw [← h.usage_add, left_eq_add]

/-- It never shows too much. -/
theorem Metered.Balanced.usage_le [CanonicallyOrderedAdd α] {missed : α} {s : Metered α}
    (h : s.Balanced missed) : s.meter.usage ≤ s.source.seen := by
  rw [← h.usage_add]
  exact le_self_add

end PolarBear.Metering
