import PolarBear.Quota.RefreshRun
import PolarBear.Quota.Reserve

/-!
# A request that is over quota

`quota_reserve` refreshes the usage rows before it compares them with the limits.
Its comment says that the exception is raised outside the transaction, since the
updates of the refresh "would be discarded, but they're not invalidated by being
over-quota". The exception is raised inside, and leaves the writer's transaction,
which rolls back.

`overQuota_keepsRefresh_iff` says when nothing is lost by that.
-/

namespace PolarBear.Quota

open PolarBear.Fallible

/-- `main_context_manager.writer`: the tables are committed, or rolled back where an
exception leaves the transaction. -/
def writerTables {α : Type} (t : QuotaTables) (body : Except QuotaError (α × QuotaTables)) :
    QuotaTables :=
  match body with
  | .ok (_, t') => t'
  | .error _ => t

variable (env : RefreshEnv)

/-- The tables after a call of `quota_reserve`. -/
def tablesAfterReserve (projectQuotas userQuotas deltas : List (String × Int)) (expire : Int)
    (t : QuotaTables) : QuotaTables :=
  writerTables t ((quotaReserve env projectQuotas userQuotas deltas expire t).map
    (fun out => (out.1, out.2.1)))

/-- The rows that a request starts from. -/
def startRefresh (t : QuotaTables) : Refresh :=
  ⟨t.usages, (getProjectUserQuotaUsages t.usages env.project env.user).2, []⟩

/-- What is to hold after a request that was over quota: nothing is reserved, and
what the refresh found stays. -/
structure KeepsRefresh (deltas : List (String × Int)) (t t' : QuotaTables) : Prop where
  reservations : t'.reservations = t.reservations
  reserved : ∀ r ∈ t.usages.rows, ∃ r' ∈ t'.usages.rows, r'.id = r.id ∧ r'.reserved = r.reserved
  refreshed : ∀ s, refreshQuotaUsagesIfNeeded env false (Dict.keys deltas) (startRefresh env t) =
      .ok s →
    ∀ r ∈ s.usages.rows, ∃ r' ∈ t'.usages.rows, r'.id = r.id ∧ r'.inUse = r.inUse ∧
      r'.untilRefresh = r.untilRefresh

/-- The refresh of the request has nothing to do: what is reported is what the rows
say, with the counter that a refresh sets, and a resource that is popped and not
reported has a row without a counter to count down. -/
def RefreshIdle (deltas : List (String × Int)) (t : QuotaTables) : Prop :=
  let pops := plan env false (startRefresh env t) env.order (Dict.keys deltas)
  ∀ q, match lastOf (allReported env pops) q with
    | some v => ∃ row, pick t.usages env.project env.user q = some row ∧ row.inUse = v ∧
        row.untilRefresh = orNone env.untilRefresh
    | none => q ∈ Dict.keys pops → ∃ row, pick t.usages env.project env.user q = some row ∧
        (row.inUse < 0 ∨ row.untilRefresh = none)

section

variable {env} {t : QuotaTables} {deltas : List (String × Int)}

/-- Counting down always changes the counter. -/
theorem isQuotaRefreshNeeded_keeps_iff (row : QuotaUsage) :
    (isQuotaRefreshNeeded env row).2 = row.untilRefresh ↔
      row.inUse < 0 ∨ row.untilRefresh = none := by
  unfold isQuotaRefreshNeeded
  split
  · next hneg => simp [hneg]
  · next hneg =>
    cases row.untilRefresh with
    | none => simp
    | some n => simp [hneg]

theorem startRefresh_picked (q : String) :
    (startRefresh env t).picked q = pick t.usages env.project env.user q :=
  (refreshed_start env t.usages).picked_eq q

theorem startRefresh_ownRows : (startRefresh env t).OwnRows :=
  ownRows_start t.usages env.project env.user []

/-- The refresh leaves what every resource shows exactly where it has nothing to
do. -/
theorem shown_eq_iff {s : Refresh}
    (h : refreshQuotaUsagesIfNeeded env false (Dict.keys deltas) (startRefresh env t) = .ok s) :
    (∀ q, s.shown q = (startRefresh env t).shown q) ↔ RefreshIdle env deltas t := by
  obtain ⟨work', hrun⟩ := refresh_popped startRefresh_ownRows h
  apply forall_congr'
  intro q
  cases hlast : lastOf (allReported env (plan env false (startRefresh env t) env.order
      (Dict.keys deltas))) q with
  | some v =>
    rw [hrun.shown hlast]
    unfold Refresh.shown
    rw [startRefresh_picked]
    cases pick t.usages env.project env.user q with
    | none => simp
    | some row => simp [eq_comm]
  | none =>
    simp only
    have hnot := lastOf_eq_none.mp hlast
    by_cases hpop : q ∈ Dict.keys (plan env false (startRefresh env t) env.order
        (Dict.keys deltas))
    · rw [hrun.checked hnot hpop]
      unfold Refresh.shown afterCheck
      rw [startRefresh_picked]
      cases pick t.usages env.project env.user q with
      | none => simp [hpop]
      | some row => simp [hpop, isQuotaRefreshNeeded_keeps_iff]
    · have hsame : s.shown q = (startRefresh env t).shown q :=
        congrArg (Option.map _) (hrun.other hnot hpop)
      simp [hsame, hpop]

/-- The rows of the refresh are those before it exactly where every resource shows
the same. -/
theorem rows_kept_iff {s : Refresh}
    (h : refreshQuotaUsagesIfNeeded env false (Dict.keys deltas) (startRefresh env t) = .ok s) :
    (∀ r ∈ s.usages.rows, ∃ r' ∈ t.usages.rows, r'.id = r.id ∧ r'.inUse = r.inUse ∧
        r'.untilRefresh = r.untilRefresh) ↔
      ∀ q, s.shown q = (startRefresh env t).shown q := by
  obtain ⟨work', hrun⟩ := refresh_popped startRefresh_ownRows h
  have hframe := hrun.frame
  constructor
  · intro hall q
    unfold Refresh.shown
    cases hrow : s.picked q with
    | none =>
      have hnone : (startRefresh env t).picked q = none := by
        rw [startRefresh_ownRows.picked_eq_none]
        cases hlookup : (startRefresh env t).userUsages.lookup q with
        | none => rfl
        | some id =>
          rw [hrun.ownRows.picked_eq_none, hframe.kept hlookup] at hrow
          cases hrow
      rw [hnone]
    | some row =>
      obtain ⟨hlookup, hbyId⟩ := Refresh.picked_id hrow
      obtain ⟨r', hr', hid, hinUse, huntil⟩ := hall row (s.usages.byId_iff.mp hbyId).1
      have hold : t.usages.byId row.id = some r' := t.usages.byId_iff.mpr ⟨hr', hid⟩
      cases hstart : (startRefresh env t).picked q with
      | none =>
        -- a row that was added has an id of its own
        have hfresh := hframe.fresh (startRefresh_ownRows.picked_eq_none.mp hstart) hlookup
        rw [show (startRefresh env t).usages.byId row.id = some r' from hold] at hfresh
        cases hfresh
      | some row₀ =>
        obtain ⟨hlookup₀, hbyId₀⟩ := Refresh.picked_id hstart
        have hsameId := hframe.kept hlookup₀
        rw [hlookup, Option.some.injEq] at hsameId
        rw [← hsameId, show (startRefresh env t).usages.byId row.id = some r' from hold,
          Option.some.injEq] at hbyId₀
        rw [Option.map_some, Option.map_some, ← hbyId₀, hinUse, huntil]
  · intro hall r hr
    have hbyId : s.usages.byId r.id = some r := s.usages.byId_iff.mpr ⟨hr, rfl⟩
    by_cases hpicked : ∃ q, s.userUsages.lookup q = some r.id
    · obtain ⟨q, hlookup⟩ := hpicked
      have hshown := hall q
      unfold Refresh.shown at hshown
      rw [Refresh.picked_of_lookup hlookup, hbyId, Option.map_some] at hshown
      obtain ⟨row₀, hstart, hfields⟩ := Option.map_eq_some_iff.mp hshown.symm
      obtain ⟨hlookup₀, hbyId₀⟩ := Refresh.picked_id hstart
      have hsameId := hframe.kept hlookup₀
      rw [hlookup, Option.some.injEq] at hsameId
      rw [Prod.mk.injEq] at hfields
      exact ⟨row₀, (t.usages.byId_iff.mp hbyId₀).1, hsameId.symm, hfields.1, hfields.2⟩
    · have hsame := hframe.rows (fun q hq => hpicked ⟨q, hq⟩)
      rw [hbyId] at hsame
      exact ⟨r, (t.usages.byId_iff.mp hsame.symm).1, rfl, rfl, rfl⟩

/-- A refresh raises nothing but `KeyError`. -/
theorem refresh_raises (force : Bool) (keys : List String) (s : Refresh) :
    Raises (fun e => ∃ key, e = .keyError key)
      (refreshQuotaUsagesIfNeeded env force keys s) := by
  apply Raises.bind
  · apply Raises.foldlM
    intro st res
    unfold refreshResource
    split
    · exact Raises.ok st
    · apply Raises.bind
      · unfold refreshDue
        split
        · exact Raises.ok _
        · unfold checkRefresh
          split
          · exact Raises.error ⟨_, rfl⟩
          · exact Raises.ok _
      · intro due
        split
        · unfold syncResource
          split
          · exact Raises.error ⟨_, rfl⟩
          · exact Raises.ok _
        · exact Raises.ok _
  · intro st
    exact Raises.ok _

/-- A request that returns or is over quota has refreshed its rows. -/
theorem exists_refreshed {projectQuotas userQuotas : List (String × Int)} {expire : Int}
    (h : ∀ key, quotaReserve env projectQuotas userQuotas deltas expire t ≠
      .error (.keyError key)) :
    ∃ s, refreshQuotaUsagesIfNeeded env false (Dict.keys deltas) (startRefresh env t) = .ok s := by
  cases hrefresh : refreshQuotaUsagesIfNeeded env false (Dict.keys deltas)
      (startRefresh env t) with
  | ok s => exact ⟨s, rfl⟩
  | error e =>
    obtain ⟨key, hkey⟩ := refresh_raises false (Dict.keys deltas) (startRefresh env t) e hrefresh
    have hraised : quotaReserve env projectQuotas userQuotas deltas expire t = .error e := by
      unfold quotaReserve
      unfold startRefresh at hrefresh
      simp only [hrefresh, bind, Except.bind]
    exact absurd (hraised.trans (congrArg Except.error hkey)) (h key)

/-- **A request that is over quota keeps the refresh** exactly where the refresh
had nothing to do; it never reserves anything. -/
theorem overQuota_keepsRefresh_iff {projectQuotas userQuotas : List (String × Int)} {expire : Int}
    {overs : List String} {quotas : List (String × Int)} {usages : List (String × Int × Int)}
    (h : quotaReserve env projectQuotas userQuotas deltas expire t =
      .error (.overQuota overs quotas usages)) :
    KeepsRefresh env deltas t
        (tablesAfterReserve env projectQuotas userQuotas deltas expire t) ↔
      RefreshIdle env deltas t := by
  have hrolledBack : tablesAfterReserve env projectQuotas userQuotas deltas expire t = t := by
    unfold tablesAfterReserve
    rw [h]
    rfl
  have hanswer : ∀ key, quotaReserve env projectQuotas userQuotas deltas expire t ≠
      .error (.keyError key) := by
    intro key hkey
    rw [h] at hkey
    cases hkey
  obtain ⟨s, hs⟩ := exists_refreshed hanswer
  rw [hrolledBack, ← shown_eq_iff hs, ← rows_kept_iff hs]
  constructor
  · intro hkeeps
    exact hkeeps.refreshed s hs
  · intro hall
    refine ⟨rfl, fun r hr => ⟨r, hr, rfl, rfl⟩, ?_⟩
    intro s' hs'
    rw [hs, Except.ok.injEq] at hs'
    rw [← hs']
    exact hall

end

/-! ## A stale count -/

/-- The user `u` has used `inUse` instances, by a row with a counter or without. -/
def instancesTables (inUse : Int) (untilRefresh : Option Int) : QuotaTables where
  usages :=
    { rows := [⟨0, some "p", some "u", "instances", inUse, 0, untilRefresh, 0, false⟩]
      next := 1
      sorted := List.pairwise_singleton _ _
      below := by simp }
  reservations := Table.empty

/-- A request of `u`, who really uses 10. -/
def requestOfU : RefreshEnv where
  project := some "p"
  user := some "u"
  untilRefresh := some 5
  maxAge := 0
  now := 1
  order := ["instances"]
  sync := fun _ => some [("instances", 10)]

/-- A request for one more of 10 instances. -/
def requestOneMore (t : QuotaTables) :
    Except QuotaError (List Nat × QuotaTables × List (Nat × Int)) :=
  quotaReserve requestOfU [("instances", 10)] [("instances", 10)] [("instances", 1)] 60 t

theorem overQuota_keeps_current :
    KeepsRefresh requestOfU [("instances", 1)] (instancesTables 10 none)
      (tablesAfterReserve requestOfU [("instances", 10)] [("instances", 10)] [("instances", 1)] 60
        (instancesTables 10 none)) := by
  have hover : requestOneMore (instancesTables 10 none) =
      .error (.overQuota ["instances"] [("instances", 10)] [("instances", 10, 0)]) := by rfl
  refine (overQuota_keepsRefresh_iff hover).mpr ?_
  have hidle : ∀ q, q ∈ ["instances"] → ∃ row, pick (instancesTables 10 none).usages (some "p")
      (some "u") q = some row ∧ (row.inUse < 0 ∨ row.untilRefresh = none) := by
    intro q hq
    rw [List.mem_singleton.mp hq]
    exact ⟨_, rfl, .inr rfl⟩
  exact hidle

/-- The refresh finds that 10 are used and not 3; the request is over quota, and
the row says 3 again. -/
theorem overQuota_discards_refresh :
    requestOneMore (instancesTables 3 (some 1)) =
        .error (.overQuota ["instances"] [("instances", 10)] [("instances", 3, 0)]) ∧
      (tablesAfterReserve requestOfU [("instances", 10)] [("instances", 10)] [("instances", 1)] 60
        (instancesTables 3 (some 1))).usages.rows.map (fun r => (r.inUse, r.untilRefresh)) =
          [(3, some 1)] ∧
      ¬KeepsRefresh requestOfU [("instances", 1)] (instancesTables 3 (some 1))
        (tablesAfterReserve requestOfU [("instances", 10)] [("instances", 10)] [("instances", 1)] 60
          (instancesTables 3 (some 1))) := by
  refine ⟨by rfl, by rfl, ?_⟩
  intro hkeeps
  obtain ⟨s, hs, hrow⟩ : ∃ s, refreshQuotaUsagesIfNeeded requestOfU false ["instances"]
      (startRefresh requestOfU (instancesTables 3 (some 1))) = .ok s ∧
      s.usages.rows = [⟨0, some "p", some "u", "instances", 10, 0, some 5, 1, false⟩] :=
    ⟨_, rfl, rfl⟩
  obtain ⟨r', hr', -, hinUse, -⟩ := hkeeps.refreshed s hs _ (hrow ▸ List.mem_cons_self ..)
  have hr : r' = ⟨0, some "p", some "u", "instances", 3, 0, some 1, 0, false⟩ :=
    List.mem_singleton.mp hr'
  rw [hr] at hinUse
  cases hinUse

end PolarBear.Quota
