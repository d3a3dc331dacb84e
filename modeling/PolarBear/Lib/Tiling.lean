/-!
# Periods between marks

A calendar unit sets marks on the time line. Every time lies behind the mark that
starts its unit, and every mark has a mark before it, one unit earlier. The last
period to be over at a time runs between two marks: `lastPeriod` takes the mark that
starts the time's unit or, where that is not yet past, the one before.

The mark before a mark need not exist at the beginning of the time line, so the laws
(`Marks.Lawful`) are about marks and times with room below them.
-/

namespace PolarBear.Tiling

variable {τ : Type}

/-- The marks of one unit. -/
structure Marks (τ : Type) where
  instant : τ → Nat
  /-- The mark that starts the unit of a time. -/
  start : τ → τ
  /-- The mark before a mark. -/
  prev : τ → τ
  /-- The instant one unit later. -/
  after : τ → Nat

/-- The last period to be over at `t`: its beginning and its end. -/
def Marks.lastPeriod (m : Marks τ) (t : τ) : τ × τ :=
  if m.instant t ≤ m.instant (m.start t) then (m.prev (m.prev (m.start t)), m.prev (m.start t))
  else (m.prev (m.start t), m.start t)

/-- What makes the marks a tiling, for the marks and the times with room below them. -/
structure Marks.Lawful (m : Marks τ) (Mark Time : τ → Prop) : Prop where
  start_mark : ∀ t, Time t → Mark (m.start t)
  prev_mark : ∀ t, Time t → Mark (m.prev (m.start t))
  start_of_mark : ∀ t, Mark t → m.start t = t
  lt_after_start : ∀ t, Time t → m.instant t < m.after (m.start t)
  prev_start_lt : ∀ t, Time t → m.instant (m.prev (m.start t)) < m.instant t
  prev_lt : ∀ t, Mark t → m.instant (m.prev t) < m.instant t
  after_prev : ∀ t, Mark t → m.after (m.prev t) = m.instant t

/-- A period one unit long, over at `t`, with less than a unit to go to `t`. -/
structure Marks.Tile (m : Marks τ) (t begin_ end_ : τ) : Prop where
  begin_lt : m.instant begin_ < m.instant end_
  end_lt : m.instant end_ < m.instant t
  one_unit : m.after begin_ = m.instant end_
  latest : m.instant t ≤ m.after end_

variable {m : Marks τ} {Mark Time : τ → Prop}

theorem Marks.lastPeriod_end_mark (h : m.Lawful Mark Time) {t : τ} (ht : Time t) :
    Mark (m.lastPeriod t).2 := by
  unfold Marks.lastPeriod
  split
  · exact h.prev_mark t ht
  · exact h.start_mark t ht

/-- A period begins at the mark before its end. -/
theorem Marks.lastPeriod_begin (t : τ) : (m.lastPeriod t).1 = m.prev (m.lastPeriod t).2 := by
  unfold Marks.lastPeriod
  split <;> rfl

/-- **The last period** is one unit long and less than a unit old. -/
theorem Marks.lastPeriod_tile (h : m.Lawful Mark Time) {t : τ} (ht : Time t) :
    m.Tile t (m.lastPeriod t).1 (m.lastPeriod t).2 := by
  have hmark := Marks.lastPeriod_end_mark h ht
  rw [Marks.lastPeriod_begin]
  refine ⟨h.prev_lt _ hmark, ?_, h.after_prev _ hmark, ?_⟩
  · unfold Marks.lastPeriod
    split
    · exact h.prev_start_lt t ht
    · next hlt => exact Nat.lt_of_not_le hlt
  · unfold Marks.lastPeriod
    split
    · next hle =>
      rw [h.after_prev _ (h.start_mark t ht)]
      exact hle
    · exact Nat.le_of_lt (h.lt_after_start t ht)

/-- A mark is its own start, so at a mark the period before it is over. -/
theorem Marks.lastPeriod_mark (h : m.Lawful Mark Time) {t : τ} (ht : Mark t) :
    m.lastPeriod t = (m.prev (m.prev t), m.prev t) := by
  unfold Marks.lastPeriod
  rw [h.start_of_mark t ht, if_pos (Nat.le_refl _)]

/-- **Periods follow on each other**: at the end of the last period, the last period is
the one that ends where it begins. -/
theorem Marks.lastPeriod_lastPeriod (h : m.Lawful Mark Time) {t : τ} (ht : Time t) :
    (m.lastPeriod (m.lastPeriod t).2).2 = (m.lastPeriod t).1 := by
  rw [Marks.lastPeriod_mark h (Marks.lastPeriod_end_mark h ht), Marks.lastPeriod_begin]

end PolarBear.Tiling
