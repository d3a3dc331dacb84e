import PolarBear.Py.Builtins
import PolarBear.Services.Table
import Mathlib.Data.List.Dedup

/-!
# `objects.Service`: creating, saving, and the minimum version

A `Service` object holds the attributes of one row and remembers which of them
changed; `create` and `save` write the changed ones. `save` first asks whether
the object is older than the minimum version of the live services of its
binary, and raises `ServiceTooOld` if so. In `create` the same call is commented
out.

The minimum is SQL's grouped `MIN`: it skips null versions, a group of nulls
gives null, which counts as `0`, and a binary without services gives no group.
-/

namespace PolarBear.Services

open PolarBear.Py (startsWith)

/-- The columns a `create` or `save` writes; `none` leaves a column alone. -/
structure ServiceChanges where
  host : Option (Option String)
  binary : Option (Option String)
  topic : Option (Option String)
  reportCount : Option Nat
  disabled : Option Bool
  disabledReason : Option (Option String)
  lastSeenUp : Option (Option Nat)
  forcedDown : Option Bool
  version : Option Nat

/-- No change. -/
def ServiceChanges.empty : ServiceChanges := ⟨none, none, none, none, none, none, none, none, none⟩

/-- A `Service` object whose `binary` and `version` are set. A changed attribute
has its changed value. -/
structure ServiceObject where
  id : Option Nat
  binary : String
  version : Option Nat
  changes : ServiceChanges
  binary_eq : ∀ b, changes.binary = some b → b = some binary
  version_eq : ∀ v, changes.version = some v → version = some v

/-- The exceptions of `create` and `save`. -/
inductive ServiceError where
  | serviceTooOld (thisver : Option Nat) (minver : Nat)
  | objectActionError (action reason : String)
  | serviceNotFound (serviceId : Nat)
  | serviceBinaryExists (host binary : Option String)
  | serviceTopicExists (host topic : Option String)
  | dbDuplicateEntry
  | recursionError
  deriving DecidableEq, Repr

/-! ## The minimum version -/

/-- The live services of a binary that are not forced down. -/
def ServiceTable.services (t : ServiceTable) (binary : String) : List ServiceRow :=
  t.rows.filter (fun r => r.binary == some binary && r.live && !r.forcedDown)

/-- SQL's `MIN` over the versions; nulls do not count. -/
def minVersion (rows : List ServiceRow) : Option Nat := (rows.filterMap ServiceRow.version).min?

/-- `service_get_minimum_version`: an entry for each binary that has services. -/
def serviceGetMinimumVersion (t : ServiceTable) (binaries : List String) :
    List (String × Option Nat) :=
  binaries.dedup.filterMap (fun b =>
    if t.services b = [] then none else some (b, minVersion (t.services b)))

/-- The class-level cache of a process. -/
structure VersionCache where
  caching : Bool
  versions : List (String × Nat)

/-- The cache of a process that never called `enable_min_version_cache`. -/
def VersionCache.off : VersionCache := ⟨false, []⟩

/-- `Service.get_minimum_version_multi`, with the cache it leaves. -/
def getMinimumVersionMulti (cache : VersionCache) (t : ServiceTable) (binaries : List String) :
    Except ServiceError (Nat × VersionCache) :=
  if !binaries.all (startsWith "nova-") then
    .error (.objectActionError "get_minimum_version" "Invalid binary prefix")
  else if !cache.caching || binaries.any (fun b => (cache.versions.lookup b).isNone) then
    let minVersions := (serviceGetMinimumVersion t binaries).map (fun bv => (bv.1, bv.2.getD 0))
    .ok ((minVersions.map Prod.snd).min?.getD 0,
      { cache with versions := minVersions ++ cache.versions })
  else
    .ok ((binaries.filterMap (fun b => cache.versions.lookup b)).min?.getD 0, cache)

/-- `Service.get_minimum_version`. -/
def getMinimumVersion (cache : VersionCache) (t : ServiceTable) (binary : String) :
    Except ServiceError (Nat × VersionCache) :=
  getMinimumVersionMulti cache t [binary]

/-- `minver > self.version`, where a null is less than every number. -/
def olderThan (version : Option Nat) (minver : Nat) : Bool :=
  match version with
  | some v => decide (v < minver)
  | none => true

/-- `_check_minimum_version`. -/
def checkMinimumVersion (cache : VersionCache) (t : ServiceTable) (o : ServiceObject) :
    Except ServiceError Unit := do
  let (minver, _) ← getMinimumVersion cache t o.binary
  if olderThan o.version minver then .error (.serviceTooOld o.version minver) else .ok ()

/-! ## The two writes -/

/-- The row an insert of the changes gives, with the columns' defaults. -/
def ServiceChanges.newRow (c : ServiceChanges) (enableNewServices : Bool) (id : Nat) :
    ServiceRow where
  id := id
  host := c.host.getD none
  binary := c.binary.getD none
  topic := c.topic.getD none
  reportCount := c.reportCount.getD 0
  disabled := if enableNewServices then c.disabled.getD false else true
  disabledReason := if enableNewServices then c.disabledReason.getD none
    else some "New service disabled due to config option."
  lastSeenUp := c.lastSeenUp.getD none
  forcedDown := c.forcedDown.getD false
  version := some (c.version.getD 0)
  deleted := 0

/-- The row an update gives; a higher `report_count` stamps `last_seen_up`. -/
def ServiceChanges.onRow (c : ServiceChanges) (now : Nat) (r : ServiceRow) : ServiceRow :=
  let stamped := match c.reportCount with
    | some n => if r.reportCount < n then some now else r.lastSeenUp
    | none => r.lastSeenUp
  { r with
    host := c.host.getD r.host
    binary := c.binary.getD r.binary
    topic := c.topic.getD r.topic
    reportCount := c.reportCount.getD r.reportCount
    disabled := c.disabled.getD r.disabled
    disabledReason := c.disabledReason.getD r.disabledReason
    lastSeenUp := c.lastSeenUp.getD stamped
    forcedDown := c.forcedDown.getD r.forcedDown
    version := match c.version with
      | some v => some v
      | none => r.version }

/-- `DBDuplicateEntry` as `service_create` translates it; `reported` is the
constraint the database names. -/
def duplicateError (reported : Constraint) (values : ServiceChanges) : ServiceError :=
  if reported.columns.contains "binary" then
    .serviceBinaryExists (values.host.getD none) (values.binary.getD none)
  else .serviceTopicExists (values.host.getD none) (values.topic.getD none)

/-- `db.service_create`; the database gives the id. -/
def serviceCreate (enableNewServices : Bool) (reported : Constraint) (id : Nat)
    (values : ServiceChanges) (t : ServiceTable) :
    Except ServiceError (ServiceTable × ServiceRow) :=
  let row := values.newRow enableNewServices id
  match t.insert? row with
  | some t' => .ok (t', row)
  | none => .error (duplicateError reported values)

/-- `db.service_update`. -/
def serviceUpdate (now : Nat) (serviceId : Nat) (values : ServiceChanges) (t : ServiceTable) :
    Except ServiceError (ServiceTable × ServiceRow) :=
  match t.byId serviceId with
  | none => .error (.serviceNotFound serviceId)
  | some r =>
    let row := values.onRow now r
    match t.update? row with
    | some t' => .ok (t', row)
    | none => .error .dbDuplicateEntry

/-- `Service.create`. -/
def create (enableNewServices : Bool) (reported : Constraint) (id : Nat) (o : ServiceObject)
    (t : ServiceTable) : Except ServiceError (ServiceTable × ServiceRow) :=
  if o.id.isSome then .error (.objectActionError "create" "already created")
  else serviceCreate enableNewServices reported id o.changes t

/-- `Service.save`. Without an id, `obj_load_attr` is asked for it and reads it
for its own log line. -/
def save (cache : VersionCache) (now : Nat) (o : ServiceObject) (t : ServiceTable) :
    Except ServiceError (ServiceTable × ServiceRow) := do
  checkMinimumVersion cache t o
  match o.id with
  | none => .error .recursionError
  | some id => serviceUpdate now id o.changes t

/-- An update writes the changed row in place of the stored one. -/
theorem serviceUpdate_ok {now id : Nat} {values : ServiceChanges} {t t' : ServiceTable}
    {row : ServiceRow} (h : serviceUpdate now id values t = .ok (t', row)) :
    ∃ old, t.byId id = some old ∧ row = values.onRow now old ∧ t.update? row = some t' := by
  unfold serviceUpdate at h
  split at h
  · cases h
  · next old hold =>
    dsimp only at h
    split at h
    · next t₁ hupdate =>
      cases h
      exact ⟨old, hold, rfl, hupdate⟩
    · cases h

/-- A `save` passes the check and updates the row. -/
theorem save_ok {cache : VersionCache} {now : Nat} {o : ServiceObject} {t t' : ServiceTable}
    {row : ServiceRow} (h : save cache now o t = .ok (t', row)) :
    checkMinimumVersion cache t o = .ok () ∧
      ∃ id, o.id = some id ∧ serviceUpdate now id o.changes t = .ok (t', row) := by
  unfold save at h
  cases hcheck : checkMinimumVersion cache t o with
  | error e =>
    rw [hcheck] at h
    cases h
  | ok u =>
    rw [hcheck] at h
    cases hid : o.id with
    | none =>
      rw [hid] at h
      cases h
    | some id =>
      rw [hid] at h
      exact ⟨rfl, id, rfl, h⟩

/-! ## The minimum without a cache -/

/-- What `service_get_minimum_version` gives for a binary, a null or missing
entry as `0`. -/
def ServiceTable.minimum (t : ServiceTable) (binary : String) : Nat :=
  (minVersion (t.services binary)).getD 0

/-- A process that does not cache reads the table, and still does not cache
after. -/
theorem getMinimumVersion_off {cache : VersionCache} (hcache : cache.caching = false)
    (t : ServiceTable) {binary : String} (hnova : startsWith "nova-" binary = true) :
    ∃ cache', getMinimumVersion cache t binary = .ok (t.minimum binary, cache') ∧
      cache'.caching = false := by
  unfold getMinimumVersion getMinimumVersionMulti serviceGetMinimumVersion ServiceTable.minimum
  simp only [List.all_cons, List.all_nil, hnova, hcache, Bool.and_true, Bool.not_true,
    Bool.not_false, Bool.true_or, Bool.false_eq_true, if_false, if_true,
    (List.nodup_singleton binary).dedup]
  by_cases hnone : t.services binary = []
  · simp [hnone, minVersion]
  · simp [hnone]

theorem getMinimumVersion_eq {cache : VersionCache} (hcache : cache.caching = false)
    (t : ServiceTable) {binary : String} (hnova : startsWith "nova-" binary = true) :
    ∃ cache', getMinimumVersion cache t binary = .ok (t.minimum binary, cache') := by
  obtain ⟨cache', h, -⟩ := getMinimumVersion_off hcache t hnova
  exact ⟨cache', h⟩

theorem getMinimumVersion_error (cache : VersionCache) (t : ServiceTable) {binary : String}
    (hnova : startsWith "nova-" binary = false) :
    getMinimumVersion cache t binary =
      .error (.objectActionError "get_minimum_version" "Invalid binary prefix") := by
  unfold getMinimumVersion getMinimumVersionMulti
  simp [hnova]

/-- The services of a binary, as a condition on rows. -/
def counted (binary : String) (r : ServiceRow) : Bool :=
  r.binary == some binary && r.live && !r.forcedDown

theorem mem_services {t : ServiceTable} {binary : String} {r : ServiceRow} :
    r ∈ t.services binary ↔ r ∈ t.rows ∧ counted binary r = true := List.mem_filter

theorem minimum_le {t : ServiceTable} {binary : String} {r : ServiceRow} {v : Nat}
    (hr : r ∈ t.services binary) (hv : r.version = some v) : t.minimum binary ≤ v := by
  have hmem : v ∈ (t.services binary).filterMap ServiceRow.version :=
    List.mem_filterMap.mpr ⟨r, hr, hv⟩
  unfold ServiceTable.minimum minVersion
  cases hmin : ((t.services binary).filterMap ServiceRow.version).min? with
  | none =>
    rw [List.min?_eq_none_iff] at hmin
    rw [hmin] at hmem
    cases hmem
  | some m => exact (List.min?_eq_some_iff.mp hmin).2 v hmem

/-- The minimum is the version of some service, or there is no version at
all. -/
theorem minimum_attained (t : ServiceTable) (binary : String) :
    (∃ r ∈ t.services binary, r.version = some (t.minimum binary)) ∨
      (t.minimum binary = 0 ∧ ∀ r ∈ t.services binary, r.version = none) := by
  unfold ServiceTable.minimum minVersion
  cases hmin : ((t.services binary).filterMap ServiceRow.version).min? with
  | none =>
    right
    rw [List.min?_eq_none_iff] at hmin
    refine ⟨rfl, fun r hr => ?_⟩
    cases hv : r.version with
    | none => rfl
    | some v =>
      have hmem : v ∈ (t.services binary).filterMap ServiceRow.version :=
        List.mem_filterMap.mpr ⟨r, hr, hv⟩
      rw [hmin] at hmem
      cases hmem
  | some m =>
    left
    exact List.mem_filterMap.mp (List.min?_eq_some_iff.mp hmin).1

end PolarBear.Services
