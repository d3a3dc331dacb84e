import PolarBear.Lib.Transition
import PolarBear.Services.Service

/-!
# Heartbeats of several workers

The workers of one service share its row, and each reports its state through a
`Service` object of its own: it adds one to its copy of `report_count` and saves.
`service_update` stamps `last_seen_up` when the counter it is given exceeds the
stored one; the comment above it says "if that value changes".

With one worker the two are the same. A worker whose siblings have reported more
often writes a lower counter, and its report is accepted without a stamp.
`heartbeats_refresh_iff` is the exact boundary over runs: a report refreshes the
row exactly if the worker's copy has not fallen behind the row.
-/

namespace PolarBear.Services

open PolarBear.Transition (Run)

/-- A worker's `Service` object, with the attributes a report depends on. -/
structure Reporter where
  binary : String
  version : Option Nat
  reportCount : Nat

/-- The object when `save` is called: `report_count` is all that changed. -/
def Reporter.object (w : Reporter) (serviceId : Nat) : ServiceObject where
  id := some serviceId
  binary := w.binary
  version := w.version
  changes := { ServiceChanges.empty with reportCount := some w.reportCount }
  binary_eq := by
    intro b h
    cases h
  version_eq := by
    intro v h
    cases h

/-- `_from_db_object`: the attributes come from the row again. -/
def Reporter.refresh (w : Reporter) (row : ServiceRow) : Reporter where
  binary := row.binary.getD w.binary
  version := row.version
  reportCount := row.reportCount

/-- The table and the objects of the workers `ι`; the time, and the time of the
last report that was accepted. -/
structure Heartbeats (ι : Type) where
  table : ServiceTable
  ref : ι → Reporter
  clock : Nat
  lastReport : Option Nat

variable {ι : Type} [DecidableEq ι]

/-- `report_count += 1`. -/
def Reporter.increment (w : Reporter) : Reporter := { w with reportCount := w.reportCount + 1 }

/-- The `save` of a report. -/
def Heartbeats.save (s : Heartbeats ι) (serviceId : Nat) (i : ι) (now : Nat) :
    Except ServiceError (ServiceTable × ServiceRow) :=
  Services.save .off now ((s.ref i).increment.object serviceId) s.table

/-- The report is accepted. -/
def Heartbeats.accepted (s : Heartbeats ι) (serviceId : Nat) (i : ι) (now : Nat) : Prop :=
  ∃ p, s.save serviceId i now = .ok p

/-- `DbDriver._report_state`. An exception is logged; the counter stays
incremented. -/
def reportState (serviceId : Nat) (i : ι) (now : Nat) (s : Heartbeats ι) : Heartbeats ι :=
  match s.save serviceId i now with
  | .ok (t', row) =>
    { table := t', ref := Function.update s.ref i ((s.ref i).increment.refresh row)
      clock := now, lastReport := some now }
  | .error _ =>
    { s with ref := Function.update s.ref i (s.ref i).increment, clock := now }

/-- `DbDriver.is_up`: the last heartbeat, or the row's other times if there was
none, is at most `service_down_time` away. -/
def isUp (serviceDownTime now : Nat) (lastSeenUp updatedAt : Option Nat) (createdAt : Nat) : Bool :=
  let lastHeartbeat := (lastSeenUp.or updatedAt).getD createdAt
  decide (((now : Int) - lastHeartbeat).natAbs ≤ serviceDownTime)

/-! ## Steps -/

variable (serviceId : Nat)

/-- A report at a later time. -/
def beat (l : ι × Nat) (s s' : Heartbeats ι) : Prop :=
  s.clock < l.2 ∧ s' = reportState serviceId l.1 l.2 s

/-- The report, if it is accepted, refreshes the row. -/
def Refreshes (l : ι × Nat) (s s' : Heartbeats ι) : Prop :=
  s.accepted serviceId l.1 l.2 →
    ∃ r, s'.table.byId serviceId = some r ∧ r.lastSeenUp = some l.2

/-- The worker has not fallen behind: its copy is not below the stored
counter. -/
def CaughtUp (l : ι × Nat) (s : Heartbeats ι) : Prop :=
  s.accepted serviceId l.1 l.2 →
    ∀ r, s.table.byId serviceId = some r → r.reportCount ≤ (s.ref l.1).reportCount

/-- No stamp of the row is later than the clock. -/
def NotAhead (s : Heartbeats ι) : Prop :=
  ∀ r, s.table.byId serviceId = some r → ∀ t, r.lastSeenUp = some t → t ≤ s.clock

/-- Before the first report. -/
structure Heartbeats.Initial (s : Heartbeats ι) : Prop where
  none_yet : s.lastReport = none
  past : NotAhead serviceId s

/-- What an accepted report does to the row. -/
def ServiceRow.reported (r : ServiceRow) (count now : Nat) : ServiceRow :=
  { r with
    reportCount := count
    lastSeenUp := if r.reportCount < count then some now else r.lastSeenUp }

/-- **One report**: refused, and the table stays, or accepted, and the row is
the reported one. -/
theorem reportState_cases (i : ι) (now : Nat) (s : Heartbeats ι) :
    (¬ s.accepted serviceId i now ∧ (reportState serviceId i now s).table = s.table ∧
      (reportState serviceId i now s).lastReport = s.lastReport) ∨
    (s.accepted serviceId i now ∧ (reportState serviceId i now s).lastReport = some now ∧
      ∃ r, s.table.byId serviceId = some r ∧ (reportState serviceId i now s).table.byId serviceId =
        some (r.reported ((s.ref i).reportCount + 1) now)) := by
  unfold Heartbeats.accepted reportState
  cases hsave : s.save serviceId i now with
  | error e =>
    left
    refine ⟨fun h => ?_, rfl, rfl⟩
    obtain ⟨p, hp⟩ := h
    cases hp
  | ok p =>
    obtain ⟨t', row⟩ := p
    right
    obtain ⟨-, id, hid, hupdate⟩ := save_ok hsave
    cases hid
    obtain ⟨old, hold, hrow, hput⟩ := serviceUpdate_ok hupdate
    obtain ⟨hmem, hlive, hoid⟩ := byId_some hold
    have hrid : row.id = serviceId := by
      rw [hrow, ← hoid]
      rfl
    have hrlive : row.live = true := by
      rw [hrow, ← hlive]
      rfl
    have hwrote : Wrote s.table row t' := wrote_update hmem (hoid.trans hrid.symm) hput
    refine ⟨⟨_, rfl⟩, rfl, old, hold, ?_⟩
    show t'.byId serviceId = _
    rw [← hrid, byId_wrote hwrote hrlive, hrow]
    rfl

theorem clock_reportState (i : ι) (now : Nat) (s : Heartbeats ι) :
    (reportState serviceId i now s).clock = now := by
  unfold reportState
  split <;> rfl

theorem beat_notAhead (l : ι × Nat) (s s' : Heartbeats ι) (h : NotAhead serviceId s)
    (hbeat : beat serviceId l s s') : NotAhead serviceId s' := by
  obtain ⟨hlt, rfl⟩ := hbeat
  intro r' hr' t ht
  rw [clock_reportState]
  rcases reportState_cases serviceId l.1 l.2 s with ⟨-, htable, -⟩ | ⟨-, -, r, hr, hnew⟩
  · rw [htable] at hr'
    have := h r' hr' t ht
    omega
  · rw [hnew] at hr'
    cases hr'
    unfold ServiceRow.reported at ht
    dsimp only at ht
    split at ht
    · cases ht
      exact Nat.le_refl _
    · have := h r hr t ht
      omega

/-- **One report refreshes the row exactly if the worker has not fallen
behind.** -/
theorem refreshes_iff (l : ι × Nat) (s s' : Heartbeats ι) (h : NotAhead serviceId s)
    (hbeat : beat serviceId l s s') : Refreshes serviceId l s s' ↔ CaughtUp serviceId l s := by
  obtain ⟨hlt, rfl⟩ := hbeat
  unfold Refreshes CaughtUp
  rcases reportState_cases serviceId l.1 l.2 s with ⟨hno, -, -⟩ | ⟨hyes, -, r, hr, hnew⟩
  · exact ⟨fun _ hacc => absurd hacc hno, fun _ hacc => absurd hacc hno⟩
  · constructor
    · intro href hacc r₁ hr₁
      rw [hr] at hr₁
      cases hr₁
      obtain ⟨r', hr', hstamp⟩ := href hacc
      rw [hnew] at hr'
      cases hr'
      unfold ServiceRow.reported at hstamp
      dsimp only at hstamp
      by_cases hcount : r.reportCount < (s.ref l.1).reportCount + 1
      · omega
      · -- the old stamp is not the time of this report
        rw [if_neg hcount] at hstamp
        have := h r hr _ hstamp
        omega
    · intro hcaught hacc
      have hle := hcaught hacc r hr
      refine ⟨_, hnew, ?_⟩
      show (if r.reportCount < (s.ref l.1).reportCount + 1 then some l.2 else r.lastSeenUp) = _
      rw [if_pos (by omega)]

/-- The row has the time of the last accepted report. -/
def Fresh (s : Heartbeats ι) : Prop :=
  ∀ t, s.lastReport = some t → ∃ r, s.table.byId serviceId = some r ∧ r.lastSeenUp = some t

theorem beat_fresh (l : ι × Nat) (s s' : Heartbeats ι) (h : Fresh serviceId s)
    (hbeat : beat serviceId l s s' ∧ Refreshes serviceId l s s') : Fresh serviceId s' := by
  obtain ⟨⟨hlt, rfl⟩, href⟩ := hbeat
  intro t ht
  rcases reportState_cases serviceId l.1 l.2 s with ⟨-, htable, hlast⟩ | ⟨hyes, hlast, -⟩
  · rw [hlast] at ht
    rw [htable]
    exact h t ht
  · rw [hlast] at ht
    cases ht
    exact href hyes

/-- **Heartbeats.** In a run of reports at increasing times every accepted one
refreshes the row exactly if every worker whose report is accepted has not
fallen behind the row then. And if so, the service is up as long as the last
accepted report is not too long ago. -/
theorem heartbeats_refresh_iff {s₀ s : Heartbeats ι} (hinit : s₀.Initial serviceId)
    (ls : List (ι × Nat)) :
    (Run (fun l s s' => beat serviceId l s s' ∧ Refreshes serviceId l s s') s₀ ls s ↔
      Run (fun l s s' => beat serviceId l s s' ∧ CaughtUp serviceId l s) s₀ ls s) ∧
    (Run (fun l s s' => beat serviceId l s s' ∧ CaughtUp serviceId l s) s₀ ls s →
      ∀ t, s.lastReport = some t → ∃ r, s.table.byId serviceId = some r ∧
        ∀ serviceDownTime now updatedAt createdAt, t ≤ now → now ≤ t + serviceDownTime →
          isUp serviceDownTime now r.lastSeenUp updatedAt createdAt = true) := by
  have hiff : Run (fun l s s' => beat serviceId l s s' ∧ Refreshes serviceId l s s') s₀ ls s ↔
      Run (fun l s s' => beat serviceId l s s' ∧ CaughtUp serviceId l s) s₀ ls s :=
    Run.congr (fun l s s' h hbeat _ => beat_notAhead serviceId l s s' h hbeat)
      (refreshes_iff serviceId) hinit.past
  refine ⟨hiff, fun hrun t ht => ?_⟩
  have hfresh : Fresh serviceId s := (hiff.mpr hrun).invariant (beat_fresh serviceId) (by
    intro t ht
    rw [hinit.none_yet] at ht
    cases ht)
  obtain ⟨r, hr, hstamp⟩ := hfresh t ht
  refine ⟨r, hr, fun serviceDownTime now updatedAt createdAt hle hdown => ?_⟩
  unfold isUp
  rw [hstamp, Option.some_or, Option.getD_some]
  exact decide_eq_true (by omega)

/-- Two workers that read the row of a new service. -/
def siblings : Heartbeats Bool where
  table := ⟨[⟨1, some "new", some "nova-compute", some "compute", 0, false, none, none, false,
    some 15, 0⟩], by decide⟩
  ref := fun _ => ⟨"nova-compute", some 15, 0⟩
  clock := 0
  lastReport := none

/-- The same after two reports of one of them. -/
def outpaced : Heartbeats Bool := reportState 1 true 2 (reportState 1 true 1 siblings)

theorem siblings_initial : siblings.Initial 1 where
  none_yet := rfl
  past := by
    intro r hr t ht
    cases hr
    cases ht

/-- The result applies to them. -/
theorem siblings_refresh :
    Run (fun l s s' => beat 1 l s s' ∧ Refreshes 1 l s s') siblings [(true, 1), (true, 2)] outpaced
      ↔ Run (fun l s s' => beat 1 l s s' ∧ CaughtUp 1 l s) siblings [(true, 1), (true, 2)]
        outpaced :=
  (heartbeats_refresh_iff 1 siblings_initial [(true, 1), (true, 2)]).1

/-- **An accepted report without effect**: the other worker reports at time `3`.
The stored counter changes from `2` to `1`, and `last_seen_up` stays `2`. -/
theorem slower_worker_ignored :
    siblings.Initial 1 ∧
    Run (beat 1) siblings [(true, 1), (true, 2), (false, 3)] (reportState 1 false 3 outpaced) ∧
    outpaced.accepted 1 false 3 ∧
    (outpaced.table.byId 1).map (fun r => (r.reportCount, r.lastSeenUp)) = some (2, some 2) ∧
    ((reportState 1 false 3 outpaced).table.byId 1).map (fun r => (r.reportCount, r.lastSeenUp)) =
      some (1, some 2) := by
  refine ⟨siblings_initial, ?_, ?_, by decide, by decide⟩
  · exact .cons ⟨by decide, rfl⟩ (.cons ⟨by decide, rfl⟩ (.cons ⟨by decide, rfl⟩ (.nil _)))
  · have hok : (outpaced.save 1 false 3).isOk = true := by decide
    unfold Heartbeats.accepted
    cases hsave : outpaced.save 1 false 3 with
    | error e =>
      rw [hsave] at hok
      cases hok
    | ok p => exact ⟨p, rfl⟩

end PolarBear.Services
