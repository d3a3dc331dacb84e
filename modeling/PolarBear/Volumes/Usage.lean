import Mathlib.Algebra.GroupWithZero.Nat
import Mathlib.Algebra.Order.Monoid.Prod
import Mathlib.Algebra.Order.Group.Nat
import Mathlib.Logic.Function.Basic
import PolarBear.Db.Query
import PolarBear.Lib.Metering
import PolarBear.Lib.Table

/-!
# Volume usage

The hypervisor counts the requests and bytes of a volume from zero each time its instance starts.
`vol_usage_update` keeps, for each volume, the last reading and the totals of what was counted
before. That an instance has been rebooted it learns from the reading alone: one of the four numbers
is lower than in the database. So it is the meter of `Lib.Metering`, with the order by components.

`volUsage_exact_iff` is the exact boundary over runs on any number of volumes: the notification
(`usage_volume_info`) has all the traffic that was there to be read exactly if at no reading after a
reboot all four numbers are past those before it. It never has more.
-/

namespace PolarBear.Volumes

open PolarBear.Metering (Meter Reading Source Event Metered)
open PolarBear.Db
open PolarBear.Transition (Run)

/-- The columns of `volume_usage_cache`. -/
structure VolumeUsage where
  id : Nat
  volumeId : String
  instanceUuid : Option String
  projectId : Option String
  userId : Option String
  availabilityZone : Option String
  totLastRefreshed : Option Nat
  totReads : Nat
  totReadBytes : Nat
  totWrites : Nat
  totWriteBytes : Nat
  currLastRefreshed : Option Nat
  currReads : Nat
  currReadBytes : Nat
  currWrites : Nat
  currWriteBytes : Nat
  deriving DecidableEq, Repr

abbrev VolumeUsages := Table VolumeUsage VolumeUsage.id

/-- The arguments of `vol_usage_update` but for the volume and `update_totals`. -/
structure UsageReport where
  rdReq : Nat
  rdBytes : Nat
  wrReq : Nat
  wrBytes : Nat
  instanceId : Option String
  projectId : Option String
  userId : Option String
  availabilityZone : Option String

/-- "Volume(%s) has lower stats then what is in the database." -/
def lowerStats (u : VolumeUsage) (report : UsageReport) : Bool :=
  decide (report.rdReq < u.currReads) || decide (report.rdBytes < u.currReadBytes) ||
    decide (report.wrReq < u.currWrites) || decide (report.wrBytes < u.currWriteBytes)

/-- The columns that every update writes. -/
def VolumeUsage.describe (u : VolumeUsage) (report : UsageReport) : VolumeUsage :=
  { u with
    instanceUuid := report.instanceId
    projectId := report.projectId
    userId := report.userId
    availabilityZone := report.availabilityZone }

/-- The totals with what the row counts at present added. -/
def VolumeUsage.carry (u : VolumeUsage) : VolumeUsage :=
  { u with
    totReads := u.totReads + u.currReads
    totReadBytes := u.totReadBytes + u.currReadBytes
    totWrites := u.totWrites + u.currWrites
    totWriteBytes := u.totWriteBytes + u.currWriteBytes }

/-- The values without `update_totals`. -/
def VolumeUsage.setCurrent (u : VolumeUsage) (refreshed : Nat) (report : UsageReport) :
    VolumeUsage :=
  { u with
    currLastRefreshed := some refreshed
    currReads := report.rdReq
    currReadBytes := report.rdBytes
    currWrites := report.wrReq
    currWriteBytes := report.wrBytes }

/-- The values with `update_totals`. -/
def VolumeUsage.addTotals (u : VolumeUsage) (refreshed : Nat) (report : UsageReport) :
    VolumeUsage :=
  { u with
    totLastRefreshed := some refreshed
    totReads := u.totReads + report.rdReq
    totReadBytes := u.totReadBytes + report.rdBytes
    totWrites := u.totWrites + report.wrReq
    totWriteBytes := u.totWriteBytes + report.wrBytes
    currReads := 0
    currReadBytes := 0
    currWrites := 0
    currWriteBytes := 0 }

/-- `current_usage.update(values)`: with lower stats what the row counts at present goes to the
totals too. -/
def VolumeUsage.update (u : VolumeUsage) (refreshed : Nat) (report : UsageReport)
    (updateTotals : Bool) : VolumeUsage :=
  let base := (if lowerStats u report then u.carry else u).describe report
  if !updateTotals then base.setCurrent refreshed report else base.addTotals refreshed report

/-- The row of a volume that has none; the other columns have their default. -/
def newVolumeUsage (volumeId : String) (refreshed : Nat) (report : UsageReport)
    (updateTotals : Bool) (id : Nat) : VolumeUsage where
  id := id
  volumeId := volumeId
  instanceUuid := report.instanceId
  projectId := report.projectId
  userId := report.userId
  availabilityZone := report.availabilityZone
  totLastRefreshed := if updateTotals then some refreshed else none
  totReads := if updateTotals then report.rdReq else 0
  totReadBytes := if updateTotals then report.rdBytes else 0
  totWrites := if updateTotals then report.wrReq else 0
  totWriteBytes := if updateTotals then report.wrBytes else 0
  currLastRefreshed := if updateTotals then none else some refreshed
  currReads := if updateTotals then 0 else report.rdReq
  currReadBytes := if updateTotals then 0 else report.rdBytes
  currWrites := if updateTotals then 0 else report.wrReq
  currWriteBytes := if updateTotals then 0 else report.wrBytes

/-- The row of a volume. -/
def usageOf (t : VolumeUsages) (volumeId : String) : Option VolumeUsage :=
  t.rows.find? (fun u => u.volumeId == volumeId)

theorem VolumeUsage.id_update (u : VolumeUsage) (refreshed : Nat) (report : UsageReport)
    (updateTotals : Bool) : (u.update refreshed report updateTotals).id = u.id := by
  unfold VolumeUsage.update
  dsimp only
  split <;> (show (VolumeUsage.id (if _ then _ else _)) = _; split <;> rfl)

/-- `vol_usage_update`. -/
def volUsageUpdate (ctxt : Context) (refreshed : Nat) (volumeId : String) (report : UsageReport)
    (updateTotals : Bool) (t : VolumeUsages) : Except NovaError VolumeUsages := do
  requireContext ctxt
  match usageOf t volumeId with
  | some current =>
    pure (t.modify (fun u => u.id == current.id) (fun u => u.update refreshed report updateTotals)
      (fun u => u.id_update refreshed report updateTotals))
  | none => pure (t.insert (newVolumeUsage volumeId refreshed report updateTotals) (fun _ => rfl))

/-- `vol_get_usage_by_time`. -/
def volGetUsageByTime (ctxt : Context) (start : Nat) (t : VolumeUsages) :
    Except NovaError (List VolumeUsage) := do
  requireContext ctxt
  let after : Option Nat → Bool := fun refreshed => refreshed.elim true (fun time => start < time)
  pure (t.rows.filter (fun u => after u.totLastRefreshed || after u.currLastRefreshed))

/-- The four numbers of a notification. -/
structure VolumeUsageInfo where
  volumeId : String
  tenantId : Option String
  userId : Option String
  availabilityZone : Option String
  instanceId : Option String
  lastRefreshed : Option Nat
  reads : Nat
  readBytes : Nat
  writes : Nat
  writeBytes : Nat
  deriving DecidableEq, Repr

/-- `usage_volume_info`. -/
def usageVolumeInfo (u : VolumeUsage) : VolumeUsageInfo where
  volumeId := u.volumeId
  tenantId := u.projectId
  userId := u.userId
  availabilityZone := u.availabilityZone
  instanceId := u.instanceUuid
  lastRefreshed :=
    match u.totLastRefreshed, u.currLastRefreshed with
    | some tot, some curr => some (max tot curr)
    | some tot, none => some tot
    | none, curr => curr
  reads := u.totReads + u.currReads
  readBytes := u.totReadBytes + u.currReadBytes
  writes := u.totWrites + u.currWrites
  writeBytes := u.totWriteBytes + u.currWriteBytes

/-! ## A row is a meter -/

/-- Reads, read bytes, writes, written bytes. -/
abbrev Counters := Nat × Nat × Nat × Nat

def UsageReport.counters (report : UsageReport) : Counters :=
  (report.rdReq, report.rdBytes, report.wrReq, report.wrBytes)

def VolumeUsageInfo.counters (info : VolumeUsageInfo) : Counters :=
  (info.reads, info.readBytes, info.writes, info.writeBytes)

def VolumeUsage.meter (u : VolumeUsage) : Meter Counters where
  total := (u.totReads, u.totReadBytes, u.totWrites, u.totWriteBytes)
  current := (u.currReads, u.currReadBytes, u.currWrites, u.currWriteBytes)

theorem usageVolumeInfo_counters (u : VolumeUsage) :
    (usageVolumeInfo u).counters = u.meter.usage := rfl

/-- A report as a reading. -/
def UsageReport.reading (report : UsageReport) (updateTotals : Bool) : Reading Counters :=
  if updateTotals then .final report.counters else .sample report.counters

/-- The stats are lower exactly if they are not at least those in the database. -/
theorem lowerStats_iff (u : VolumeUsage) (report : UsageReport) :
    lowerStats u report = true ↔ ¬ u.meter.current ≤ report.counters := by
  unfold lowerStats VolumeUsage.meter UsageReport.counters
  simp only [Bool.or_eq_true, decide_eq_true_eq, Prod.mk_le_mk]
  omega

theorem VolumeUsage.meter_setCurrent (u : VolumeUsage) (refreshed : Nat) (report : UsageReport) :
    ((u.describe report).setCurrent refreshed report).meter = ⟨u.meter.total, report.counters⟩ :=
  rfl

theorem VolumeUsage.meter_addTotals (u : VolumeUsage) (refreshed : Nat) (report : UsageReport) :
    ((u.describe report).addTotals refreshed report).meter =
      ⟨u.meter.total + report.counters, 0⟩ := rfl

theorem VolumeUsage.total_carry (u : VolumeUsage) :
    u.carry.meter.total = u.meter.total + u.meter.current := rfl

/-- **An update is a reading.** -/
theorem VolumeUsage.meter_update (u : VolumeUsage) (refreshed : Nat) (report : UsageReport)
    (updateTotals : Bool) :
    (u.update refreshed report updateTotals).meter =
      u.meter.read (report.reading updateTotals) := by
  have htotal : (if lowerStats u report then u.carry else u).meter.total =
      if u.meter.current ≤ report.counters then u.meter.total
      else u.meter.total + u.meter.current := by
    by_cases hlower : lowerStats u report = true
    · rw [if_pos hlower, if_neg ((lowerStats_iff u report).mp hlower), u.total_carry]
    · rw [if_neg hlower, if_pos (not_not.mp (fun h => hlower ((lowerStats_iff u report).mpr h)))]
  cases updateTotals with
  | false =>
    show (VolumeUsage.setCurrent _ refreshed report).meter = u.meter.read (.sample report.counters)
    rw [VolumeUsage.meter_setCurrent, htotal]
    unfold Meter.read
    dsimp only
    split <;> rfl
  | true =>
    show (VolumeUsage.addTotals _ refreshed report).meter = u.meter.read (.final report.counters)
    rw [VolumeUsage.meter_addTotals, htotal]
    unfold Meter.read
    dsimp only
    split <;> rfl

/-- The meter that a volume without a row stands for reads the first report. -/
theorem meter_newVolumeUsage (volumeId : String) (refreshed : Nat) (report : UsageReport)
    (updateTotals : Bool) (id : Nat) :
    (newVolumeUsage volumeId refreshed report updateTotals id).meter =
      (⟨0, 0⟩ : Meter Counters).read (report.reading updateTotals) := by
  have hle : (0 : Counters) ≤ report.counters := zero_le
  cases updateTotals with
  | false =>
    show _ = Meter.read ⟨0, 0⟩ (.sample report.counters)
    unfold Meter.read
    dsimp only
    rw [if_pos hle]
    rfl
  | true =>
    show _ = Meter.read ⟨0, 0⟩ (.final report.counters)
    unfold Meter.read
    dsimp only
    rw [if_pos hle, zero_add]
    rfl

/-- What the table has of a volume. -/
def meterOf (t : VolumeUsages) (volumeId : String) : Meter Counters :=
  ((usageOf t volumeId).map VolumeUsage.meter).getD ⟨0, 0⟩

theorem usageOf_some {t : VolumeUsages} {volumeId : String} {u : VolumeUsage}
    (h : usageOf t volumeId = some u) : u ∈ t.rows ∧ u.volumeId = volumeId :=
  ⟨List.mem_of_find?_eq_some h,
    beq_iff_eq.mp (List.find?_some (p := fun u : VolumeUsage => u.volumeId == volumeId) h)⟩

theorem VolumeUsage.volumeId_update (u : VolumeUsage) (refreshed : Nat) (report : UsageReport)
    (updateTotals : Bool) : (u.update refreshed report updateTotals).volumeId = u.volumeId := by
  unfold VolumeUsage.update
  dsimp only
  split <;> (show VolumeUsage.volumeId (if _ then _ else _) = _; split <;> rfl)

/-- What `vol_usage_update` leaves in the row of the volume. -/
def reportedUsage (t : VolumeUsages) (refreshed : Nat) (volumeId : String) (report : UsageReport)
    (updateTotals : Bool) : VolumeUsage :=
  match usageOf t volumeId with
  | some current => current.update refreshed report updateTotals
  | none => newVolumeUsage volumeId refreshed report updateTotals t.next

/-- **One update** writes the row of its volume and no other. -/
theorem usageOf_volUsageUpdate {ctxt : Context} (hctxt : requireContext ctxt = .ok ())
    (refreshed : Nat) (volumeId : String) (report : UsageReport) (updateTotals : Bool)
    (t : VolumeUsages) :
    ∃ t', volUsageUpdate ctxt refreshed volumeId report updateTotals t = .ok t' ∧
      ∀ v, usageOf t' v = if v = volumeId then
        some (reportedUsage t refreshed volumeId report updateTotals) else usageOf t v := by
  unfold volUsageUpdate reportedUsage
  rw [hctxt]
  cases hfound : usageOf t volumeId with
  | some current =>
    refine ⟨_, rfl, fun v => ?_⟩
    obtain ⟨hmem, hvolume⟩ := usageOf_some hfound
    have hread : usageOf (t.modify (fun u => u.id == current.id)
        (fun u => u.update refreshed report updateTotals)
        (fun u => u.id_update refreshed report updateTotals)) v =
        (usageOf t v).map (fun u => if (u.id == current.id) = true
          then u.update refreshed report updateTotals else u) := by
      unfold usageOf Table.modify
      rw [List.find?_map]
      refine congrArg (Option.map _) (congrArg (fun q => List.find? q t.rows) (funext fun u => ?_))
      show ((if (u.id == current.id) = true then u.update refreshed report updateTotals
        else u).volumeId == v) = (u.volumeId == v)
      split
      · rw [u.volumeId_update]
      · rfl
    rw [hread]
    by_cases hv : v = volumeId
    · rw [if_pos hv, hv, hfound, Option.map_some, if_pos (beq_self_eq_true _)]
    · rw [if_neg hv]
      cases hother : usageOf t v with
      | none => rfl
      | some u =>
        -- the row of another volume has another id
        have hne : ¬ (u.id == current.id) = true := by
          intro h
          obtain ⟨hmem', hvolume'⟩ := usageOf_some hother
          rw [t.eq_of_key hmem' hmem (beq_iff_eq.mp h), hvolume] at hvolume'
          exact hv hvolume'.symm
        rw [Option.map_some, if_neg hne]
  | none =>
    refine ⟨_, rfl, fun v => ?_⟩
    show (t.rows ++ [newVolumeUsage volumeId refreshed report updateTotals t.next]).find? _ = _
    rw [List.find?_append]
    by_cases hv : v = volumeId
    · rw [if_pos hv, hv]
      rw [show t.rows.find? (fun u => u.volumeId == volumeId) = none from hfound, Option.none_or]
      exact List.find?_cons_of_pos (beq_self_eq_true volumeId)
    · rw [if_neg hv]
      have hno : [newVolumeUsage volumeId refreshed report updateTotals t.next].find?
          (fun u => u.volumeId == v) = none :=
        List.find?_eq_none.mpr (fun u hu h => by
          rw [List.mem_singleton.mp hu] at h
          exact hv (beq_iff_eq.mp h).symm)
      rw [hno, Option.or_none]
      rfl

/-- The row is the meter after the reading. -/
theorem meter_reportedUsage (t : VolumeUsages) (refreshed : Nat) (volumeId : String)
    (report : UsageReport) (updateTotals : Bool) :
    (reportedUsage t refreshed volumeId report updateTotals).meter =
      (meterOf t volumeId).read (report.reading updateTotals) := by
  unfold reportedUsage meterOf
  cases usageOf t volumeId with
  | some current => exact current.meter_update refreshed report updateTotals
  | none => exact meter_newVolumeUsage volumeId refreshed report updateTotals t.next

/-! ## Runs -/

/-- The table, and the counters of the volumes in the hypervisors. -/
structure Monitor where
  table : VolumeUsages
  source : String → Source Counters
  clock : Nat

/-- What happens to a volume, and when; `described` has the columns of its instance. -/
structure VolumeEvent where
  volumeId : String
  event : Event Counters
  time : Nat
  described : UsageReport

/-- The report of a reading. -/
def VolumeEvent.report (l : VolumeEvent) (count : Counters) : UsageReport :=
  { l.described with
    rdReq := count.1
    rdBytes := count.2.1
    wrReq := count.2.2.1
    wrBytes := count.2.2.2 }

/-- What happens to the table: a sample is an update, the last reading (when the volume is detached)
one with `update_totals`. -/
def VolumeEvent.write (ctxt : Context) (l : VolumeEvent) (count : Counters) (t : VolumeUsages) :
    Except NovaError VolumeUsages :=
  match l.event with
  | .grow _ => pure t
  | .restart => pure t
  | .sample => volUsageUpdate ctxt l.time l.volumeId (l.report count) false t
  | .final => volUsageUpdate ctxt l.time l.volumeId (l.report count) true t

/-- A step, at a later time. -/
def monitorStep (ctxt : Context) (l : VolumeEvent) (s s' : Monitor) : Prop :=
  s.clock < l.time ∧ ∃ t', l.write ctxt (s.source l.volumeId).count s.table = .ok t' ∧
    s' = ⟨t', Function.update s.source l.volumeId ((s.source l.volumeId).step l.event), l.time⟩

theorem monitorStep.parts {ctxt : Context} {l : VolumeEvent} {s s' : Monitor}
    (h : monitorStep ctxt l s s') :
    s.clock < l.time ∧ s'.clock = l.time ∧
      l.write ctxt (s.source l.volumeId).count s.table = .ok s'.table ∧
      s'.source = Function.update s.source l.volumeId ((s.source l.volumeId).step l.event) := by
  obtain ⟨hclock, t', hwrite, rfl⟩ := h
  exact ⟨hclock, rfl, hwrite, rfl⟩

/-- No volume has been read. -/
def Monitor.initial : Monitor := ⟨Table.empty, fun _ => ⟨0, 0, 0, true⟩, 0⟩

/-- A volume in the library's terms. -/
def Monitor.metered (s : Monitor) (volumeId : String) : Metered Counters :=
  ⟨s.source volumeId, meterOf s.table volumeId⟩

/-- **One step** is one of the meter of its volume. -/
theorem metered_step {ctxt : Context} (hctxt : requireContext ctxt = .ok ()) {l : VolumeEvent}
    {s s' : Monitor} (h : monitorStep ctxt l s s') :
    s'.metered = Function.update s.metered l.volumeId ((s.metered l.volumeId).step l.event) := by
  obtain ⟨-, -, hwrite, hsource⟩ := h.parts
  have hmeter : ∀ v, meterOf s'.table v = if v = l.volumeId then
      ((s.source l.volumeId).reading l.event).elim (meterOf s.table l.volumeId)
        (meterOf s.table l.volumeId).read else meterOf s.table v := by
    intro v
    unfold VolumeEvent.write at hwrite
    have hupdate : ∀ updateTotals, volUsageUpdate ctxt l.time l.volumeId
        (l.report (s.source l.volumeId).count) updateTotals s.table = .ok s'.table →
        meterOf s'.table v = if v = l.volumeId then (meterOf s.table l.volumeId).read
          ((l.report (s.source l.volumeId).count).reading updateTotals) else
            meterOf s.table v := by
      intro updateTotals hok
      obtain ⟨t₁, ht₁, hrows⟩ := usageOf_volUsageUpdate hctxt l.time l.volumeId
        (l.report (s.source l.volumeId).count) updateTotals s.table
      rw [ht₁] at hok
      cases hok
      conv_lhs => unfold meterOf
      rw [hrows v]
      split
      · exact meter_reportedUsage s.table l.time l.volumeId _ updateTotals
      · rfl
    cases hevent : l.event with
    | grow amount =>
      rw [hevent] at hwrite
      have htable : s.table = s'.table := Except.ok.inj hwrite
      rw [← htable]
      split
      · next hv => rw [hv]; rfl
      · rfl
    | restart =>
      rw [hevent] at hwrite
      have htable : s.table = s'.table := Except.ok.inj hwrite
      rw [← htable]
      split
      · next hv => rw [hv]; rfl
      · rfl
    | sample =>
      rw [hevent] at hwrite
      exact hupdate false hwrite
    | final =>
      rw [hevent] at hwrite
      exact hupdate true hwrite
  funext v
  unfold Monitor.metered
  rw [hmeter v, hsource]
  by_cases hv : v = l.volumeId
  · rw [if_pos hv, hv, Function.update_self, Function.update_self]
    rfl
  · rw [if_neg hv, Function.update_of_ne hv, Function.update_of_ne hv]

/-- The numbers of the notification for a volume. -/
def Monitor.reported (s : Monitor) (volumeId : String) : Counters :=
  ((usageOf s.table volumeId).map (fun u => (usageVolumeInfo u).counters)).getD 0

theorem reported_eq (s : Monitor) (volumeId : String) :
    s.reported volumeId = (s.metered volumeId).meter.usage := by
  unfold Monitor.reported Monitor.metered meterOf
  cases usageOf s.table volumeId with
  | none => rfl
  | some u => exact usageVolumeInfo_counters u

/-! ## Exactly the traffic -/

/-- The notifications have the traffic that was there to be read. -/
def Exact (s : Monitor) : Prop := ∀ v, s.reported v = (s.source v).seen

/-- At a reading after a reboot some number is lower than before, or all were zero. -/
def Notices (l : VolumeEvent) (s : Monitor) : Prop :=
  (s.metered l.volumeId).Notices l.event

/-- Every volume's meter is balanced. -/
def Balances (missed : String → Counters) (s : Monitor) : Prop :=
  ∀ v, (s.metered v).Balanced (missed v)

theorem balances_initial : Balances 0 Monitor.initial :=
  fun _ => Metered.balanced_initial

/-- One step adds to what was missed of its volume. -/
theorem balances_step {ctxt : Context} (hctxt : requireContext ctxt = .ok ()) {l : VolumeEvent}
    {s s' : Monitor} (h : monitorStep ctxt l s s') {missed : String → Counters}
    (hbal : Balances missed s) :
    Balances (Function.update missed l.volumeId
      (missed l.volumeId + (s.metered l.volumeId).misses l.event)) s' := by
  intro v
  rw [metered_step hctxt h]
  by_cases hv : v = l.volumeId
  · rw [hv, Function.update_self, Function.update_self]
    exact (hbal l.volumeId).step l.event
  · rw [Function.update_of_ne hv, Function.update_of_ne hv]
    exact hbal v

/-- A step from the whole traffic to the whole traffic is one that misses nothing. -/
theorem exact_step_iff {ctxt : Context} (hctxt : requireContext ctxt = .ok ()) {l : VolumeEvent}
    {s s' : Monitor} (h : monitorStep ctxt l s s') (hbal : Balances 0 s) :
    Exact s' ↔ Notices l s := by
  have hbal' := balances_step hctxt h hbal
  have hexact : Exact s' ↔ Function.update (0 : String → Counters) l.volumeId
      ((0 : String → Counters) l.volumeId + (s.metered l.volumeId).misses l.event) = 0 := by
    rw [funext_iff]
    refine forall_congr' (fun v => ?_)
    rw [reported_eq]
    exact (hbal' v).usage_eq_iff
  rw [hexact, Pi.zero_apply, zero_add, Notices, ← Metered.misses_eq_zero_iff]
  constructor
  · intro hzero
    have hat := congrFun hzero l.volumeId
    rw [Function.update_self] at hat
    exact hat
  · intro hzero
    rw [hzero]
    exact Function.update_eq_self l.volumeId (0 : String → Counters)

theorem balances_of_exact {ctxt : Context} (hctxt : requireContext ctxt = .ok ()) {l : VolumeEvent}
    {s s' : Monitor} (h : monitorStep ctxt l s s') (hbal : Balances 0 s) (hexact : Exact s') :
    Balances 0 s' := by
  have hnone := Metered.misses_eq_zero_iff.mpr ((exact_step_iff hctxt h hbal).mp hexact)
  have hbal' := balances_step hctxt h hbal
  rw [hnone, Pi.zero_apply, zero_add] at hbal'
  have hsame : Function.update (0 : String → Counters) l.volumeId 0 = 0 :=
    Function.update_eq_self l.volumeId 0
  rw [hsame] at hbal'
  exact hbal'

/-! ## The listing by time -/

/-- The row of the volume was written at `time` or later. -/
def Refreshed (s : Monitor) (volumeId : String) (time : Nat) : Prop :=
  ∃ u, usageOf s.table volumeId = some u ∧
    (u.totLastRefreshed.elim False (time ≤ ·) ∨ u.currLastRefreshed.elim False (time ≤ ·))

/-- An update refreshes the row. -/
theorem refreshed_reportedUsage (t : VolumeUsages) (refreshed : Nat) (volumeId : String)
    (report : UsageReport) (updateTotals : Bool) :
    (reportedUsage t refreshed volumeId report updateTotals).totLastRefreshed = some refreshed ∨
      (reportedUsage t refreshed volumeId report updateTotals).currLastRefreshed =
        some refreshed := by
  unfold reportedUsage
  cases usageOf t volumeId with
  | some current =>
    cases updateTotals with
    | false => exact .inr rfl
    | true => exact .inl rfl
  | none =>
    cases updateTotals with
    | false => exact .inr rfl
    | true => exact .inl rfl

/-- A reading refreshes the row of its volume, and every step leaves what was refreshed. -/
theorem refreshed_step {ctxt : Context} (hctxt : requireContext ctxt = .ok ()) {l : VolumeEvent}
    {s s' : Monitor} (h : monitorStep ctxt l s s') :
    (((s.source l.volumeId).reading l.event).isSome = true →
      Refreshed s' l.volumeId l.time) ∧
    ∀ v time, time ≤ s.clock → Refreshed s v time → Refreshed s' v time := by
  obtain ⟨hclock, -, hwrite, -⟩ := h.parts
  have hupdate : ∀ updateTotals, volUsageUpdate ctxt l.time l.volumeId
      (l.report (s.source l.volumeId).count) updateTotals s.table = .ok s'.table →
      (∀ time, time ≤ l.time → Refreshed s' l.volumeId time) ∧
        ∀ v, v ≠ l.volumeId → usageOf s'.table v = usageOf s.table v := by
    intro updateTotals hok
    obtain ⟨t₁, ht₁, hrows⟩ := usageOf_volUsageUpdate hctxt l.time l.volumeId
      (l.report (s.source l.volumeId).count) updateTotals s.table
    rw [ht₁] at hok
    cases hok
    refine ⟨fun time hle => ⟨_, (hrows l.volumeId).trans (if_pos rfl), ?_⟩,
      fun v hv => (hrows v).trans (if_neg hv)⟩
    rcases refreshed_reportedUsage s.table l.time l.volumeId
      (l.report (s.source l.volumeId).count) updateTotals with htot | hcurr
    · rw [htot]
      exact .inl hle
    · rw [hcurr]
      exact .inr hle
  have hreading : ∀ updateTotals, volUsageUpdate ctxt l.time l.volumeId
      (l.report (s.source l.volumeId).count) updateTotals s.table = .ok s'.table →
      Refreshed s' l.volumeId l.time ∧
        ∀ v time, time ≤ s.clock → Refreshed s v time → Refreshed s' v time := by
    intro updateTotals hok
    obtain ⟨hself, hothers⟩ := hupdate updateTotals hok
    refine ⟨hself l.time (Nat.le_refl _), fun v time hle hv => ?_⟩
    by_cases hvolume : v = l.volumeId
    · rw [hvolume]
      exact hself time (hle.trans (Nat.le_of_lt hclock))
    · obtain ⟨u, hu, htime⟩ := hv
      exact ⟨u, (hothers v hvolume).trans hu, htime⟩
  have hidle : s.table = s'.table →
      ∀ v time, time ≤ s.clock → Refreshed s v time → Refreshed s' v time := by
    intro htable v time _ hv
    unfold Refreshed at hv ⊢
    rw [← htable]
    exact hv
  unfold VolumeEvent.write at hwrite
  cases hevent : l.event with
  | grow amount =>
    rw [hevent] at hwrite
    exact ⟨fun hsome => absurd hsome Bool.false_ne_true, hidle (Except.ok.inj hwrite)⟩
  | restart =>
    rw [hevent] at hwrite
    exact ⟨fun hsome => absurd hsome Bool.false_ne_true, hidle (Except.ok.inj hwrite)⟩
  | sample =>
    rw [hevent] at hwrite
    obtain ⟨hself, hkept⟩ := hreading false hwrite
    exact ⟨fun _ => hself, hkept⟩
  | final =>
    rw [hevent] at hwrite
    obtain ⟨hself, hkept⟩ := hreading true hwrite
    exact ⟨fun _ => hself, hkept⟩

/-- The event reads the counter. -/
def VolumeEvent.reads (l : VolumeEvent) : Prop := l.event = .sample ∨ l.event = .final

/-- What was read after a time is listed. -/
theorem listed_of_read {ctxt : Context} (hctxt : requireContext ctxt = .ok ()) {s s' : Monitor}
    {ls : List VolumeEvent} (hrun : Run (monitorStep ctxt) s ls s') {start : Nat} {l : VolumeEvent}
    (hl : l ∈ ls) (hreads : l.reads) (hstart : start < l.time) :
    ∃ listed, volGetUsageByTime ctxt start s'.table = .ok listed ∧
      ∃ u ∈ listed, u.volumeId = l.volumeId := by
  obtain ⟨before, after, rfl⟩ := List.append_of_mem hl
  obtain ⟨s₁, -, hrest⟩ := hrun.of_append
  cases hrest with
  | @cons _ s₂ _ _ _ hstep hafter =>
    have hread : ((s₁.source l.volumeId).reading l.event).isSome = true := by
      rcases hreads with hevent | hevent
      · rw [hevent]
        rfl
      · rw [hevent]
        rfl
    have hnew := (refreshed_step hctxt hstep).1 hread
    have hkept : s₂.clock ≤ s'.clock ∧
        ∀ v time, time ≤ s₂.clock → Refreshed s₂ v time → Refreshed s' v time := by
      refine hafter.relates (R := fun s s' => s.clock ≤ s'.clock ∧
        ∀ v time, time ≤ s.clock → Refreshed s v time → Refreshed s' v time)
        (fun s => ⟨Nat.le_refl _, fun _ _ _ hv => hv⟩) (fun s₁ s₂ s₃ h₁ h₂ => ?_)
        (fun l s s' hstep => ?_)
      · exact ⟨h₁.1.trans h₂.1,
          fun v time hle hv => h₂.2 v time (hle.trans h₁.1) (h₁.2 v time hle hv)⟩
      · refine ⟨?_, (refreshed_step hctxt hstep).2⟩
        rw [hstep.parts.2.1]
        exact Nat.le_of_lt hstep.1
    obtain ⟨u, hu, htime⟩ := hkept.2 l.volumeId l.time (Nat.le_of_eq hstep.parts.2.1.symm) hnew
    obtain ⟨hmem, hvolume⟩ := usageOf_some hu
    unfold volGetUsageByTime
    rw [hctxt]
    refine ⟨_, rfl, u, List.mem_filter.mpr ⟨hmem, ?_⟩, hvolume⟩
    rw [Bool.or_eq_true]
    refine htime.imp (fun htot => ?_) (fun hcurr => ?_)
    · cases hrefreshed : u.totLastRefreshed with
      | none => rfl
      | some time =>
        rw [hrefreshed] at htot
        exact decide_eq_true (Nat.lt_of_lt_of_le hstart htot)
    · cases hrefreshed : u.currLastRefreshed with
      | none => rfl
      | some time =>
        rw [hrefreshed] at hcurr
        exact decide_eq_true (Nat.lt_of_lt_of_le hstart hcurr)

/-- **Volume usage.** In every run of polls, detachments and reboots of any volumes, the
notifications have all the traffic that was there to be read after each step exactly if every
reading after a reboot notices it. They never have more, and a volume that was read after a time is
listed for it. -/
theorem volUsage_exact_iff {ctxt : Context} (hctxt : requireContext ctxt = .ok ()) {s : Monitor}
    (ls : List VolumeEvent) :
    (Run (fun l s s' => monitorStep ctxt l s s' ∧ Exact s') Monitor.initial ls s ↔
      Run (fun l s s' => monitorStep ctxt l s s' ∧ Notices l s) Monitor.initial ls s) ∧
    (Run (monitorStep ctxt) Monitor.initial ls s →
      (∀ v, s.reported v ≤ (s.source v).seen) ∧
      ∀ start, ∀ l ∈ ls, l.reads → start < l.time →
        ∃ listed, volGetUsageByTime ctxt start s.table = .ok listed ∧
          ∃ u ∈ listed, u.volumeId = l.volumeId) := by
  refine ⟨?_, fun hrun => ⟨fun v => ?_, fun start l hl hreads hstart =>
    listed_of_read hctxt hrun hl hreads hstart⟩⟩
  · refine Run.congr (I := Balances 0) (fun l s s' hbal hstep hexact => ?_)
      (fun l s s' hbal hstep => exact_step_iff hctxt hstep hbal) balances_initial
    exact balances_of_exact hctxt hstep hbal hexact
  · have hbal : ∃ missed, Balances missed s := by
      refine hrun.invariant (I := fun s => ∃ missed, Balances missed s) ?_ ⟨0, balances_initial⟩
      rintro l s s' ⟨missed, hbal⟩ hstep
      exact ⟨_, balances_step hctxt hstep hbal⟩
    obtain ⟨missed, hmissed⟩ := hbal
    rw [reported_eq]
    exact (hmissed v).usage_le

/-- A volume is polled, its instance reboots, and it is polled again when it is past the first
reading. -/
def pastReboot : List VolumeEvent :=
  [⟨"v", .grow (5, 0, 0, 0), 1, ⟨0, 0, 0, 0, some "i", some "p", some "u", none⟩⟩,
   ⟨"v", .sample, 2, ⟨0, 0, 0, 0, some "i", some "p", some "u", none⟩⟩,
   ⟨"v", .restart, 3, ⟨0, 0, 0, 0, some "i", some "p", some "u", none⟩⟩,
   ⟨"v", .grow (7, 0, 0, 0), 4, ⟨0, 0, 0, 0, some "i", some "p", some "u", none⟩⟩,
   ⟨"v", .sample, 5, ⟨0, 0, 0, 0, some "i", some "p", some "u", none⟩⟩]

/-- The notification has seven of the twelve reads. -/
theorem pastReboot_reported : ∃ s, Run (monitorStep adminContext) Monitor.initial pastReboot s ∧
    s.reported "v" = (7, 0, 0, 0) ∧ (s.source "v").seen = (12, 0, 0, 0) ∧
    s.reported "v" ≤ (s.source "v").seen := by
  have hrun : ∃ s, Run (monitorStep adminContext) Monitor.initial pastReboot s ∧
      s.reported "v" = (7, 0, 0, 0) ∧ (s.source "v").seen = (12, 0, 0, 0) :=
    ⟨_, .cons ⟨by decide, _, rfl, rfl⟩ (.cons ⟨by decide, _, rfl, rfl⟩
      (.cons ⟨by decide, _, rfl, rfl⟩ (.cons ⟨by decide, _, rfl, rfl⟩
        (.cons ⟨by decide, _, rfl, rfl⟩ (.nil _))))), rfl, rfl⟩
  obtain ⟨s, hrun, hreported, hseen⟩ := hrun
  exact ⟨s, hrun, hreported, hseen,
    ((volUsage_exact_iff (requireContext_admin rfl) pastReboot).2 hrun).1 "v"⟩

end PolarBear.Volumes
