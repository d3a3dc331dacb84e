import Mathlib.Data.Prod.Lex
import PolarBear.Services.MinimumVersion

/-!
# The automatic RPC version cap

With `upgrade_levels.compute = auto` a process asks for the minimum version of
the live `nova-compute` services once, looks its RPC version up in
`SERVICE_VERSION_HISTORY`, and keeps it in the module global `LAST_VERSION`
until a manager's `reset` clears it.

What it keeps is only as good as the services that were live when it asked: one
that joins later, or comes back from being forced down, may be older than the
cap. `cap_safe` is what the design gives: as long as no write undercuts a cap
that is being kept, every cap suits every live service. The minimum `0` means
"no service" here, so nothing is said of a call that finds one of version `0`.
-/

namespace PolarBear.Services

/-- A version `X.Y` of the compute RPC API. -/
structure RpcVersion where
  verMajor : Nat
  verMinor : Nat
  deriving DecidableEq, Repr

/-- Versions are compared as pairs. -/
instance : LinearOrder RpcVersion :=
  LinearOrder.lift' (fun v => toLex (v.verMajor, v.verMinor)) (by
    intro v w h
    cases v
    cases w
    simpa using h)

/-- `SERVICE_VERSION`. -/
def serviceVersion : Nat := 15

/-- `SERVICE_VERSION_HISTORY`: what each entry has under `compute_rpc`. -/
def serviceVersionHistory : List (Option RpcVersion) :=
  [some ⟨4, 0⟩, some ⟨4, 4⟩, some ⟨4, 5⟩, some ⟨4, 6⟩, some ⟨4, 6⟩, some ⟨4, 7⟩, some ⟨4, 8⟩,
    some ⟨4, 9⟩, some ⟨4, 10⟩, some ⟨4, 11⟩, some ⟨4, 11⟩, some ⟨4, 12⟩, some ⟨4, 12⟩,
    some ⟨4, 13⟩, some ⟨4, 13⟩, some ⟨4, 13⟩]

/-- `ComputeAPI.VERSION_ALIASES`. -/
def versionAliases : List (String × RpcVersion) :=
  [("icehouse", ⟨3, 23⟩), ("juno", ⟨3, 35⟩), ("kilo", ⟨4, 0⟩), ("liberty", ⟨4, 5⟩),
    ("mitaka", ⟨4, 11⟩)]

/-- `VERSION_ALIASES["mitaka"]`. -/
def mitaka : RpcVersion := ⟨4, 11⟩

example : versionAliases.lookup "mitaka" = some mitaka := by decide

/-- The services of all processes, and what one process keeps. -/
structure Deployment where
  table : ServiceTable
  lastVersion : Option RpcVersion
  cache : VersionCache

/-- `ComputeAPI._determine_version_cap`: the cap, and what the process keeps. -/
def determineVersionCap (target : RpcVersion) (s : Deployment) :
    Except ServiceError (RpcVersion × Deployment) :=
  match s.lastVersion with
  | some cap => .ok (cap, s)
  | none => do
    let (version, cache) ← getMinimumVersion s.cache s.table "nova-compute"
    if version = 0 then .ok (mitaka, { s with cache := cache })
    else
      match serviceVersionHistory[version]? with
      | none => .error (.serviceTooOld (some serviceVersion) version)
      | some none => .ok (target, { s with cache := cache })
      | some (some cap) => .ok (cap, { s with lastVersion := some cap, cache := cache })

/-- `reset` of a manager clears `LAST_VERSION`. -/
def Deployment.reset (s : Deployment) : Deployment := { s with lastVersion := none }

/-- What `db.service_destroy` leaves of a live row. -/
def ServiceRow.softDelete (r : ServiceRow) : ServiceRow := { r with deleted := r.id }

/-- The live `nova-compute` services that are not forced down. -/
def Deployment.computes (s : Deployment) : List ServiceRow := s.table.services "nova-compute"

/-- The RPC version the history records for the version of a service. -/
def ServiceRow.computeRpc (r : ServiceRow) : Option RpcVersion :=
  r.version.bind (fun v => serviceVersionHistory[v]?.join)

/-- A cap a service can serve. -/
def ServiceRow.Serves (r : ServiceRow) (cap : RpcVersion) : Prop :=
  ∃ rpc, r.computeRpc = some rpc ∧ cap ≤ rpc

/-- A version in the history. -/
def ServiceRow.Recorded (r : ServiceRow) : Prop :=
  ∃ v, r.version = some v ∧ v < serviceVersionHistory.length

/-! ## Steps -/

/-- What happens: one row of `services` is added or replaced, by any process;
this process determines a cap; a manager is reset. -/
inductive CapEvent where
  | write (row : ServiceRow)
  | determine (target : RpcVersion)
  | reset

/-- The steps, for `nova-compute` services of recorded versions. A call that
raises changes nothing that is modelled. -/
def capStep (e : CapEvent) (s s' : Deployment) : Prop :=
  match e with
  | .write row => Wrote s.table row s'.table ∧ s'.lastVersion = s.lastVersion ∧
      s'.cache = s.cache ∧ (counted "nova-compute" row = true → row.Recorded)
  | .determine target =>
      (∃ cap, determineVersionCap target s = .ok (cap, s')) ∨
        (∃ err, determineVersionCap target s = .error err ∧ s' = s)
  | .reset => s' = s.reset

/-- A process that kept nothing yet, in a deployment of recorded versions. -/
structure Deployment.Initial (s : Deployment) : Prop where
  last : s.lastVersion = none
  off : s.cache = VersionCache.off
  recorded : ∀ r ∈ s.computes, r.Recorded

/-- A write that does not undercut the cap the process keeps. -/
def CapEvent.Honours (s : Deployment) : CapEvent → Prop
  | .write row => counted "nova-compute" row = true →
      ∀ cap, s.lastVersion = some cap → row.Serves cap
  | .determine _ => True
  | .reset => True

/-- A step of the run the cap is designed for. -/
def honouredStep (e : CapEvent) (s s' : Deployment) : Prop := capStep e s s' ∧ e.Honours s

/-- Every `create` and `save` is a write in this sense. -/
theorem call_capStep {c : Call} {s : Deployment} {t' : ServiceTable} {row : ServiceRow}
    (h : c.run s.table = .ok (t', row)) (hrec : row.Recorded) :
    capStep (.write row) s { s with table := t' } := by
  obtain ⟨-, hwrote, -⟩ := call_wrote h
  exact ⟨hwrote, rfl, rfl, fun _ => hrec⟩

/-- So is the deletion of a service, which leaves no live row. -/
theorem destroy_capStep {s : Deployment} {r : ServiceRow} {t' : ServiceTable}
    (hr : r ∈ s.table.rows) (hid : r.id ≠ 0) (h : s.table.update? r.softDelete = some t') :
    capStep (.write r.softDelete) s { s with table := t' } := by
  have hwrote : Wrote s.table r.softDelete t' := wrote_update hr rfl h
  refine ⟨hwrote, rfl, rfl, fun hc => ?_⟩
  -- a soft-deleted row is not counted
  have hlive : r.softDelete.live = false := by
    show (r.id == 0) = false
    exact beq_false_of_ne hid
  unfold counted at hc
  rw [hlive, Bool.and_false, Bool.false_and] at hc
  cases hc

/-! ## The history -/

/-- Newer services speak newer versions. -/
theorem history_mono : ∀ w < serviceVersionHistory.length, ∀ v ≤ w,
    ∃ old new, serviceVersionHistory[v]?.join = some old ∧
      serviceVersionHistory[w]?.join = some new ∧ old ≤ new := by
  have hcheck : ∀ w < serviceVersionHistory.length, ∀ v ≤ w,
      ((serviceVersionHistory[v]?.join.bind (fun old =>
        serviceVersionHistory[w]?.join.map (fun new => decide (old ≤ new)))) = some true) := by
    decide
  intro w hw v hv
  have h := hcheck w hw v hv
  obtain ⟨old, hold, h⟩ := Option.bind_eq_some_iff.mp h
  obtain ⟨new, hnew, hle⟩ := Option.map_eq_some_iff.mp h
  exact ⟨old, new, hold, hnew, of_decide_eq_true hle⟩

/-- What the minimum speaks, every recorded service does. -/
theorem serves_of_minimum {s : Deployment} {r : ServiceRow} (hr : r ∈ s.computes)
    (hrec : r.Recorded) {cap : RpcVersion}
    (hcap : serviceVersionHistory[s.table.minimum "nova-compute"]? = some (some cap)) :
    r.Serves cap := by
  obtain ⟨v, hv, hlt⟩ := hrec
  have hle : s.table.minimum "nova-compute" ≤ v := minimum_le hr hv
  obtain ⟨old, new, hold, hnew, hon⟩ := history_mono v hlt _ hle
  rw [hcap] at hold
  cases hold
  refine ⟨new, ?_, hon⟩
  unfold ServiceRow.computeRpc
  rw [hv, Option.bind_some, hnew]

/-! ## What a call gives -/

/-- **One call**: the cap that is kept, or the entry of the minimum, which is
kept from now on; for the minimum `0` the Mitaka version, which is not. -/
theorem determine_cases {target cap : RpcVersion} {s s' : Deployment}
    (hoff : s.cache.caching = false) (h : determineVersionCap target s = .ok (cap, s')) :
    s'.table = s.table ∧ s'.cache.caching = false ∧
      ((s.lastVersion = some cap ∧ s'.lastVersion = some cap) ∨
        (s.lastVersion = none ∧ s.table.minimum "nova-compute" = 0 ∧ cap = mitaka ∧
          s'.lastVersion = none) ∨
        (s.lastVersion = none ∧ s'.lastVersion = some cap ∧
          serviceVersionHistory[s.table.minimum "nova-compute"]? = some (some cap))) := by
  unfold determineVersionCap at h
  cases hlast : s.lastVersion with
  | some c =>
    rw [hlast] at h
    cases h
    exact ⟨rfl, hoff, Or.inl ⟨rfl, hlast⟩⟩
  | none =>
    rw [hlast] at h
    have hnova : Py.startsWith "nova-" "nova-compute" = true := by decide
    obtain ⟨cache', hmin, hoff'⟩ := getMinimumVersion_off hoff s.table hnova
    rw [hmin] at h
    simp only [bind, Except.bind] at h
    split at h
    · next hzero =>
      cases h
      exact ⟨rfl, hoff', Or.inr (Or.inl ⟨rfl, hzero, rfl, rfl⟩)⟩
    · split at h
      · cases h
      · next hentry =>
        -- no entry is without its RPC version
        have hmem := List.mem_of_getElem? hentry
        exact absurd hmem (by decide)
      · next c hentry =>
        cases h
        exact ⟨rfl, hoff', Or.inr (Or.inr ⟨rfl, rfl, hentry⟩)⟩

/-! ## Runs -/

/-- The invariant: recorded versions, and a cap that is kept suits them all. -/
structure CapInv (s : Deployment) : Prop where
  off : s.cache.caching = false
  recorded : ∀ r ∈ s.computes, r.Recorded
  kept : ∀ cap, s.lastVersion = some cap → ∀ r ∈ s.computes, r.Serves cap

theorem initial_capInv {s : Deployment} (h : s.Initial) : CapInv s where
  off := by rw [h.off]; rfl
  recorded := h.recorded
  kept := by
    intro cap hcap
    rw [h.last] at hcap
    cases hcap

/-- A step that honours the cap keeps the invariant. -/
theorem honouredStep_inv (e : CapEvent) (s s' : Deployment) (h : CapInv s)
    (hstep : honouredStep e s s') : CapInv s' := by
  obtain ⟨hstep, hon⟩ := hstep
  cases e with
  | write row =>
    obtain ⟨hwrote, hlast, hcache, hrec⟩ := hstep
    refine ⟨hcache ▸ h.off, fun r hr => ?_, fun cap hcap r hr => ?_⟩
    · rcases (mem_services_wrote hwrote r).mp hr with ⟨rfl, hc⟩ | ⟨hr, -⟩
      · exact hrec hc
      · exact h.recorded r hr
    · rw [hlast] at hcap
      rcases (mem_services_wrote hwrote r).mp hr with ⟨rfl, hc⟩ | ⟨hr, -⟩
      · exact hon hc cap hcap
      · exact h.kept cap hcap r hr
  | determine target =>
    rcases hstep with ⟨cap, hok⟩ | ⟨err, -, rfl⟩
    · obtain ⟨htable, hoff, hcases⟩ := determine_cases h.off hok
      have hcomputes : s'.computes = s.computes := by
        unfold Deployment.computes
        rw [htable]
      refine ⟨hoff, hcomputes ▸ h.recorded, fun c hc r hr => ?_⟩
      rw [hcomputes] at hr
      rcases hcases with ⟨hlast, hlast'⟩ | ⟨-, -, -, hlast'⟩ | ⟨-, hlast', hentry⟩
      · rw [hlast'] at hc
        cases hc
        exact h.kept cap hlast r hr
      · rw [hlast'] at hc
        cases hc
      · rw [hlast'] at hc
        cases hc
        exact serves_of_minimum hr (h.recorded r hr) hentry
    · exact h
  | reset =>
    have hs' : s' = s.reset := hstep
    rw [hs']
    exact ⟨h.off, h.recorded, fun cap hcap => absurd hcap (by simp [Deployment.reset])⟩

/-- **The cap suits every live service**, in every run in which no write
undercuts a cap that is kept, at every call but one that finds no cap kept and a
live service of version `0`. -/
theorem cap_safe {s₀ s s' : Deployment} {es : List CapEvent} (hinit : s₀.Initial)
    (hrun : Transition.Run honouredStep s₀ es s) {target cap : RpcVersion}
    (hcall : determineVersionCap target s = .ok (cap, s'))
    (hzero : s.lastVersion ≠ none ∨ ∀ r ∈ s.computes, r.version ≠ some 0) :
    ∀ r ∈ s.computes, r.Serves cap := by
  have hinv := hrun.invariant honouredStep_inv (initial_capInv hinit)
  obtain ⟨-, -, hcases⟩ := determine_cases hinv.off hcall
  intro r hr
  rcases hcases with ⟨hlast, -⟩ | ⟨hlast, hmin, -, -⟩ | ⟨-, -, hentry⟩
  · exact hinv.kept cap hlast r hr
  · -- the minimum is `0`: of no service at all, or of one of version `0`
    have hnone := hzero.resolve_left (fun h => h hlast)
    rcases minimum_attained s.table "nova-compute" with ⟨m, hm, hv⟩ | ⟨-, hnull⟩
    · rw [hmin] at hv
      exact absurd hv (hnone m hm)
    · obtain ⟨v, hv, -⟩ := hinv.recorded r hr
      rw [hnull r hr] at hv
      cases hv
  · exact serves_of_minimum hr (hinv.recorded r hr) hentry

/-- One service of the newest version. -/
def newest : Deployment := ⟨⟨[computeRow 1 "new" 15], by decide⟩, none, VersionCache.off⟩

/-- The same after a call, which keeps its cap. -/
def capped : Deployment :=
  ⟨newest.table, some ⟨4, 13⟩, ⟨false, [("nova-compute", 15)]⟩⟩

/-- The same after a service of version `1` joined. -/
def undercut : Deployment :=
  { capped with table := ⟨[computeRow 1 "new" 15, computeRow 2 "old" 1], by decide⟩ }

theorem newest_initial : newest.Initial where
  last := rfl
  off := rfl
  recorded := by
    intro r hr
    have hr : r ∈ [computeRow 1 "new" 15] := (mem_services.mp hr).1
    rw [List.mem_singleton.mp hr]
    exact ⟨15, rfl, by decide⟩

/-- The first call, in a process that kept nothing. -/
theorem newest_capped : determineVersionCap ⟨4, 0⟩ newest = .ok (⟨4, 13⟩, capped) := by rfl

theorem newest_step : capStep (.determine ⟨4, 0⟩) newest capped := Or.inl ⟨_, newest_capped⟩

/-- The result applies to the calls that follow. -/
theorem cap_safe_newest :
    newest.Initial ∧ honouredStep (.determine ⟨4, 0⟩) newest capped ∧
      ∀ r ∈ capped.computes, r.Serves ⟨4, 13⟩ := by
  have hstep : honouredStep (.determine ⟨4, 0⟩) newest capped := ⟨newest_step, trivial⟩
  have hcall : determineVersionCap ⟨4, 0⟩ capped = .ok (⟨4, 13⟩, capped) := rfl
  exact ⟨newest_initial, hstep,
    cap_safe newest_initial (.cons hstep (.nil capped)) hcall (Or.inl (by simp [capped]))⟩

/-- **A cap that is kept may be too high**: after `4.13` is determined, a service
of version `1`, which speaks `4.4`, joins; the next call still gives `4.13`. -/
theorem kept_cap_unsafe :
    newest.Initial ∧
    Transition.Run capStep newest [.determine ⟨4, 0⟩, .write (computeRow 2 "old" 1)] undercut ∧
    determineVersionCap ⟨4, 0⟩ undercut = .ok (⟨4, 13⟩, undercut) ∧
    ∃ r ∈ undercut.computes, r.computeRpc = some ⟨4, 4⟩ ∧ ¬ r.Serves ⟨4, 13⟩ := by
  have hwrote : Wrote capped.table (computeRow 2 "old" 1) undercut.table :=
    wrote_insert (t := capped.table) (by
      show ServiceTable.ofRows? [computeRow 1 "new" 15, computeRow 2 "old" 1] = _
      unfold ServiceTable.ofRows?
      exact dif_pos (by decide))
  refine ⟨newest_initial, .cons newest_step (.cons ?_ (.nil _)), rfl, ?_⟩
  · exact ⟨hwrote, rfl, rfl, fun _ => ⟨1, rfl, by decide⟩⟩
  · refine ⟨computeRow 2 "old" 1, by decide, by decide, fun h => ?_⟩
    obtain ⟨rpc, hrpc, hle⟩ := h
    cases hrpc
    exact absurd hle (by decide)

end PolarBear.Services
