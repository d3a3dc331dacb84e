import Mathlib.Data.List.Sort
import PolarBear.Quota.Usage

/-!
# `quota_reserve`, `reservation_commit`, `reservation_rollback`, `reservation_expire`

A request reserves a delta for each of its resources: it refreshes the usage rows
it needs, compares the totals with the limits, and makes a reservation for each
resource. A positive delta also counts in the row's `reserved` until the
reservation is settled. Committing adds the delta to `in_use`; committing, rolling
back and expiring all take a positive delta out of `reserved`, and delete the
reservation softly.

Each function is one transaction: an exception leaves the tables as they were.
-/

namespace PolarBear.Quota

/-- A row of `reservations`. The uuids are distinct; they are numbered here. -/
structure Reservation where
  uuid : Nat
  usageId : Nat
  projectId : Option String
  userId : Option String
  resource : String
  delta : Int
  expire : Int
  deleted : Bool
  deriving DecidableEq, Repr

/-- The two tables. -/
structure QuotaTables where
  usages : UsageTable
  reservations : Table Reservation Reservation.uuid

/-! ## Reserving -/

/-- `0 <= quotas[res] < delta + total`; the right side is only looked at for a
limit that is not negative. -/
def overLimit (quotas : List (String × Int)) (total : Option Int) (res : String) (delta : Int) :
    Except QuotaError Bool :=
  match quotas.lookup res, total with
  | some limit, some total => .ok (decide (0 ≤ limit ∧ limit < delta + total))
  | some limit, none => if 0 ≤ limit then .error (.keyError res) else .ok false
  | none, _ => .error (.keyError res)

/-- A resource that would go over quota. -/
def isOver (projectQuotas userQuotas : List (String × Int)) (projectTotal userTotal : Option Int)
    (res : String) (delta : Int) : Except QuotaError Bool :=
  if 0 ≤ delta then do
    if ← overLimit projectQuotas projectTotal res delta then .ok true
    else overLimit userQuotas userTotal res delta
  else .ok false

/-- `_calculate_overquota`. -/
def calculateOverquota (projectQuotas userQuotas : List (String × Int))
    (projectTotal userTotal : String → Option Int) :
    List (String × Int) → Except QuotaError (List String)
  | [] => .ok []
  | (res, delta) :: deltas => do
    let exceeds ← isOver projectQuotas userQuotas (projectTotal res) (userTotal res) res delta
    let overs ← calculateOverquota projectQuotas userQuotas projectTotal userTotal deltas
    .ok (if exceeds then res :: overs else overs)

/-- The total of a resource over the project, after the rows of `user_usages`
were copied for the resources the project had no row of. -/
def projectTotal (projectUsages : List (String × ProjectUsage)) (s : Refresh) (res : String) :
    Option Int :=
  match projectUsages.lookup res with
  | some usage => some usage.total
  | none => (s.picked res).map QuotaUsage.total

/-- The total of the picked row. -/
def userTotal (s : Refresh) (res : String) : Option Int := (s.picked res).map QuotaUsage.total

/-- `project_quotas == user_quotas`, as dictionaries. -/
def sameQuotas (a b : List (String × Int)) : Bool :=
  (Dict.keys a).all (fun k => a.lookup k == b.lookup k) &&
    (Dict.keys b).all (fun k => a.lookup k == b.lookup k)

/-- The usages an `OverQuota` exception carries. -/
def overUsages (projectQuotas userQuotas : List (String × Int))
    (projectUsages : List (String × ProjectUsage)) (s : Refresh) : List (String × Int × Int) :=
  let users := s.userUsages.filterMap (fun u =>
    (s.usages.byId u.2).map (fun r => (u.1, r.inUse, r.reserved)))
  if sameQuotas projectQuotas userQuotas then
    projectUsages.map (fun p => (p.1, p.2.inUse, p.2.reserved)) ++
      users.filter (fun u => (projectUsages.lookup u.1).isNone)
  else users

variable (env : RefreshEnv)

/-- The reservations made so far. -/
structure Booking where
  refresh : Refresh
  reservations : Table Reservation Reservation.uuid
  uuids : List Nat

/-- `_reservation_create`. -/
def reservationCreate (usageId : Nat) (res : String) (delta expire : Int) (uuid : Nat) :
    Reservation where
  uuid := uuid
  usageId := usageId
  projectId := env.project
  userId := env.user
  resource := res
  delta := delta
  expire := expire
  deleted := false

theorem reservationCreate_uuid (usageId : Nat) (res : String) (delta expire : Int) (uuid : Nat) :
    (reservationCreate env usageId res delta expire uuid).uuid = uuid := rfl

/-- What a reservation does to its usage row. -/
def reserveUsage (delta : Int) (r : QuotaUsage) : QuotaUsage :=
  { r with reserved := r.reserved + delta }

/-- A positive delta counts as reserved. -/
def addReserved (now : Int) (usages : UsageTable) (usageId : Nat) (delta : Int) : UsageTable :=
  if 0 < delta then writeRow now usages usageId (reserveUsage delta) (fun _ => rfl) else usages

/-- A reservation for one resource, and the change of its usage row. -/
def reserveOne (expire : Int) (b : Booking) (d : String × Int) : Except QuotaError Booking :=
  match b.refresh.userUsages.lookup d.1 with
  | none => .error (.keyError d.1)
  | some usageId =>
    let reservations := b.reservations.insert (reservationCreate env usageId d.1 d.2 expire)
      (reservationCreate_uuid env usageId d.1 d.2 expire)
    let usages := addReserved env.now b.refresh.usages usageId d.2
    .ok ⟨{ b.refresh with usages := usages }, reservations, b.uuids ++ [b.reservations.next]⟩

/-- `quota_reserve`: the reservations made and the tables, with the counts the
refresh has written. Deltas that would make a usage negative are only logged. -/
def quotaReserve (projectQuotas userQuotas deltas : List (String × Int)) (expire : Int)
    (t : QuotaTables) : Except QuotaError (List Nat × QuotaTables × List (Nat × Int)) := do
  let (projectUsages, userUsages) := getProjectUserQuotaUsages t.usages env.project env.user
  let s ← refreshQuotaUsagesIfNeeded env false (Dict.keys deltas) ⟨t.usages, userUsages, []⟩
  let overs ← calculateOverquota projectQuotas userQuotas (projectTotal projectUsages s)
    (userTotal s) deltas
  if overs ≠ [] then
    .error (.overQuota (overs.insertionSort (· ≤ ·)) userQuotas
      (overUsages projectQuotas userQuotas projectUsages s))
  else do
    let b ← deltas.foldlM (reserveOne env expire) ⟨s, t.reservations, []⟩
    .ok (b.uuids, ⟨b.refresh.usages, b.reservations⟩, b.refresh.synced)

/-! ## What a request has done -/

/-- The tables of a booking. -/
def Booking.tables (k : Booking) : QuotaTables := ⟨k.refresh.usages, k.reservations⟩

/-- The rows that a booking finds are the picked ones. -/
def Booking.Picks (k : Booking) : Prop := ∀ res,
  k.refresh.userUsages.lookup res =
    (pick k.refresh.usages env.project env.user res).map QuotaUsage.id

section

variable {env}

theorem pick_addReserved_id (now : Int) (t : UsageTable) (usageId : Nat) (delta : Int)
    (project user : Option String) (res : String) :
    (pick (addReserved now t usageId delta) project user res).map QuotaUsage.id =
      (pick t project user res).map QuotaUsage.id := by
  unfold addReserved
  split
  · exact pick_writeRow_id now t usageId (f := reserveUsage delta) _
      (fun _ => ⟨rfl, rfl, rfl, rfl, rfl⟩) project user res
  · rfl

/-- What one reservation does. -/
theorem reserveOne_ok {expire : Int} {k k' : Booking} {d : String × Int}
    (h : reserveOne env expire k d = .ok k') :
    ∃ usageId, k.refresh.userUsages.lookup d.1 = some usageId ∧
      k' = ⟨{ k.refresh with usages := addReserved env.now k.refresh.usages usageId d.2 },
        k.reservations.insert (reservationCreate env usageId d.1 d.2 expire)
          (reservationCreate_uuid env usageId d.1 d.2 expire),
        k.uuids ++ [k.reservations.next]⟩ := by
  unfold reserveOne at h
  split at h
  · cases h
  · next usageId hlookup =>
    cases h
    exact ⟨usageId, hlookup, rfl⟩

/-- It leaves the ids of the picked rows alone. -/
theorem Booking.Picks.reserveOne {expire : Int} {k k' : Booking} {d : String × Int}
    (hpicks : k.Picks env) (h : reserveOne env expire k d = .ok k') : k'.Picks env := by
  obtain ⟨usageId, -, rfl⟩ := reserveOne_ok h
  intro res
  exact (hpicks res).trans (pick_addReserved_id _ _ _ _ _ _ _).symm

/-- A row that a booking finds is a picked one. -/
theorem Booking.Picks.found {k : Booking} (hpicks : k.Picks env) {res : String} {usageId : Nat}
    (h : k.refresh.userUsages.lookup res = some usageId) :
    ∃ r, pick k.refresh.usages env.project env.user res = some r ∧ r.id = usageId := by
  rw [hpicks] at h
  exact Option.map_eq_some_iff.mp h

/-- What a request that succeeds has done. -/
theorem quotaReserve_ok {env : RefreshEnv} {projectQuotas userQuotas deltas : List (String × Int)}
    {expire : Int} {t t' : QuotaTables} {uuids : List Nat} {synced : List (Nat × Int)}
    (h : quotaReserve env projectQuotas userQuotas deltas expire t = .ok (uuids, t', synced)) :
    ∃ s k, refreshQuotaUsagesIfNeeded env false (Dict.keys deltas)
        ⟨t.usages, (getProjectUserQuotaUsages t.usages env.project env.user).2, []⟩ = .ok s ∧
      calculateOverquota projectQuotas userQuotas
        (projectTotal (getProjectUserQuotaUsages t.usages env.project env.user).1 s)
        (userTotal s) deltas = .ok [] ∧
      deltas.foldlM (reserveOne env expire) ⟨s, t.reservations, []⟩ = .ok k ∧
      t' = k.tables ∧ synced = k.refresh.synced := by
  obtain ⟨s, hs, h⟩ := Fallible.bind_ok_iff.mp h
  obtain ⟨overs, hovers, h⟩ := Fallible.bind_ok_iff.mp h
  split at h
  · cases h
  · next hnone =>
    obtain ⟨k, hk, h⟩ := Fallible.bind_ok_iff.mp h
    cases h
    rw [not_not.mp hnone] at hovers
    exact ⟨s, k, hs, hovers, hk, rfl, rfl⟩

end

/-! ## Settling -/

/-- What settling a reservation does to its usage row. -/
def settleUsage (commit : Bool) (delta : Int) (r : QuotaUsage) : QuotaUsage :=
  { r with
    reserved := if 0 ≤ delta then r.reserved - delta else r.reserved
    inUse := if commit then r.inUse + delta else r.inUse }

/-- The usage row with an id, settled. -/
def settleRow (commit : Bool) (now : Int) (usages : UsageTable) (id : Nat) (delta : Int) :
    UsageTable :=
  writeRow now usages id (settleUsage commit delta) (fun _ => rfl)

/-- `soft_delete`. -/
def softDelete (t : Table Reservation Reservation.uuid) (p : Reservation → Bool) :
    Table Reservation Reservation.uuid :=
  t.modify p (fun r => { r with deleted := true }) (fun _ => rfl)

/-- `_quota_reservations_query`: the live ones of the list. -/
def quotaReservationsQuery (reservations : List Nat) (r : Reservation) : Bool :=
  !r.deleted && reservations.contains r.uuid

/-- One reservation is settled. The usage row is the one picked for its
resource. -/
def settleOne (commit : Bool) (now : Int) (userUsages : List (String × Nat))
    (usages : UsageTable) (r : Reservation) : Except QuotaError UsageTable :=
  match userUsages.lookup r.resource with
  | none => .error (.keyError r.resource)
  | some id => .ok (settleRow commit now usages id r.delta)

/-- What `reservation_commit` and `reservation_rollback` do. -/
def settle (commit : Bool) (now : Int) (reservations : List Nat) (project user : Option String)
    (t : QuotaTables) : Except QuotaError QuotaTables := do
  let userUsages := (getProjectUserQuotaUsages t.usages project user).2
  let batch := t.reservations.rows.filter (quotaReservationsQuery reservations)
  let usages ← batch.foldlM (settleOne commit now userUsages) t.usages
  .ok ⟨usages, softDelete t.reservations (quotaReservationsQuery reservations)⟩

def reservationCommit (now : Int) (reservations : List Nat) (project user : Option String)
    (t : QuotaTables) : Except QuotaError QuotaTables :=
  settle true now reservations project user t

def reservationRollback (now : Int) (reservations : List Nat) (project user : Option String)
    (t : QuotaTables) : Except QuotaError QuotaTables :=
  settle false now reservations project user t

/-- A live reservation whose time is over. -/
def expired (currentTime : Int) (r : Reservation) : Bool :=
  !r.deleted && decide (r.expire < currentTime)

/-- `reservation_expire`. The usage row is the one the reservation names. -/
def reservationExpire (currentTime : Int) (t : QuotaTables) : QuotaTables :=
  let batch := t.reservations.rows.filter (expired currentTime)
  let usages := batch.foldl (fun usages r =>
    if 0 ≤ r.delta then settleRow false currentTime usages r.usageId r.delta else usages) t.usages
  ⟨usages, softDelete t.reservations (expired currentTime)⟩

end PolarBear.Quota
