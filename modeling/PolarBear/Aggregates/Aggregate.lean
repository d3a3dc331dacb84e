import PolarBear.Lib.Dict
import PolarBear.Db.Batch
import PolarBear.Db.Query

/-!
# Host aggregates in two databases, and `migrate_aggregates`

An aggregate has hosts and metadata, which are rows of their own, joined to it.
`Aggregate.get_by_id` asks the API database first. An aggregate without a uuid
gets one when it is read, and the read writes it to the database the aggregate
is in.

The migration creates the copy with its metadata in one transaction, adds each
host in another, and deletes the original in a last one. The API table has a
unique name, which `_aggregate_create_in_db` looks up before it inserts: the
collision is logged and the aggregate skipped. An exception that is not about a
name or a missing aggregate ends the call.
-/

namespace PolarBear.Aggregates

open Transactions Db
open Transactions.Prog (transaction reading compute)

/-- The columns of an aggregate with its hosts and metadata; times are seconds. A host is
in an aggregate once. -/
structure AggregateRow where
  id : Nat
  uuid : Option String
  name : String
  hosts : List String
  metadata : List (String × String)
  createdAt : Option Nat
  updatedAt : Option Nat
  hosts_nodup : hosts.Nodup
  deriving DecidableEq, Repr

/-- A row of the main table. Ids count from one. -/
structure MainAggregateRow extends AggregateRow where
  deleted : Nat
  deletedAt : Option Nat
  id_pos : 0 < id
  deriving DecidableEq, Repr

def MainAggregateRow.live (r : MainAggregateRow) : Bool := r.deleted == 0

/-- The API table, with its key and its unique constraint. -/
structure ApiAggregates where
  rows : List AggregateRow
  uniqId : (rows.map AggregateRow.id).Nodup
  uniqName : (rows.map AggregateRow.name).Nodup

/-- Both databases. -/
structure Databases where
  api : ApiAggregates
  main : List MainAggregateRow

def Databases.liveRows (s : Databases) : List MainAggregateRow :=
  s.main.filter MainAggregateRow.live

/-- The transactions, and the making of a uuid. -/
inductive Tx where
  | aggregateGetFromDb
  | aggregateUpdateToDb
  | aggregateCreateInDb
  | hostAddToDb
  | aggregateGet
  | aggregateUpdate
  | aggregateDelete
  | getMainDbAggregateIds
  | generateUuid
  deriving DecidableEq, Repr

/-- What a program gets from outside. -/
structure Input where
  now : Nat
  uuid : String
  deriving DecidableEq, Repr

instance : Nonempty Input := ⟨⟨0, ""⟩⟩

abbrev AggregateProg := Prog Input Tx Databases NovaError

/-! ## The API database -/

/-- The row with an id is changed. -/
def ApiAggregates.modify (t : ApiAggregates) (id : Nat) (f : AggregateRow → AggregateRow)
    (hid : ∀ r, (f r).id = r.id) (hname : ∀ r, (f r).name = r.name) : ApiAggregates where
  rows := t.rows.map (fun r => if r.id == id then f r else r)
  uniqId := by
    rw [List.map_map]
    refine (List.map_congr_left (fun r _ => ?_)) ▸ t.uniqId
    show r.id = (if r.id == id then f r else r).id
    split
    · exact (hid r).symm
    · rfl
  uniqName := by
    rw [List.map_map]
    refine (List.map_congr_left (fun r _ => ?_)) ▸ t.uniqName
    show r.name = (if r.id == id then f r else r).name
    split
    · exact (hname r).symm
    · rfl

/-- `_aggregate_get_from_db`. -/
def ApiAggregates.get (t : ApiAggregates) (id : Nat) : Except NovaError AggregateRow :=
  match t.rows.find? (fun r => r.id == id) with
  | some r => .ok r
  | none => .error (.aggregateNotFound id)

/-- A row as the object reads it. The API model has no `deleted` and no `deleted_at`. -/
structure DbAggregate where
  row : AggregateRow
  deprecated : Option (Nat × Option Nat)
  deriving DecidableEq, Repr

def MainAggregateRow.toDb (r : MainAggregateRow) : DbAggregate :=
  ⟨r.toAggregateRow, some (r.deleted, r.deletedAt)⟩

def aggregateGetFromDb (id : Nat) : AggregateProg DbAggregate :=
  reading .aggregateGetFromDb (fun s => do
    let r ← s.api.get id
    .ok ⟨r, none⟩)

/-- A row that gets a uuid; writing it stamps the row. -/
def AggregateRow.fill (uuid : String) (now : Nat) (r : AggregateRow) : AggregateRow :=
  { r with uuid := some uuid, updatedAt := some now }

/-- `_aggregate_update_to_db` with a uuid. -/
def aggregateUpdateToDb (id : Nat) (uuid : String) : AggregateProg DbAggregate :=
  transaction .aggregateUpdateToDb (fun input s => do
    let _ ← s.api.get id
    let api := s.api.modify id (AggregateRow.fill uuid input.now) (fun _ => rfl) (fun _ => rfl)
    let r ← api.get id
    .ok (⟨r, none⟩, { s with api := api }))

/-- A host is added at the end. -/
def AggregateRow.addHost (host : String) (r : AggregateRow) : AggregateRow :=
  if h : host ∈ r.hosts then r
  else { r with
    hosts := r.hosts ++ [host]
    hosts_nodup := List.nodup_append.mpr ⟨r.hosts_nodup, List.nodup_singleton _,
      fun _ ha _ hb he => h (List.mem_singleton.mp hb ▸ he ▸ ha)⟩ }

theorem addHost_id (host : String) (r : AggregateRow) : (r.addHost host).id = r.id := by
  unfold AggregateRow.addHost
  split <;> rfl

theorem addHost_name (host : String) (r : AggregateRow) : (r.addHost host).name = r.name := by
  unfold AggregateRow.addHost
  split <;> rfl

/-- `_host_add_to_db`. -/
def hostAddToDb (id : Nat) (host : String) : AggregateProg Unit :=
  transaction .hostAddToDb (fun _ s => do
    let r ← s.api.get id
    if host ∈ r.hosts then .error (.aggregateHostExists host id)
    else
      let api := s.api.modify id (AggregateRow.addHost host) (addHost_id host) (addHost_name host)
      .ok ((), { s with api := api }))

/-! ## The main database -/

/-- The filter of `_aggregate_get_query`: an id of zero is no filter. -/
def idFilter (id : Nat) (r : MainAggregateRow) : Bool := id == 0 || r.id == id

/-- `aggregate_get`. -/
def aggregateGet (ctxt : Context) (id : Nat) : AggregateProg DbAggregate :=
  reading .aggregateGet (fun s => do
    let shown ← modelQuery ctxt none
    match s.main.find? (fun r => shown r.deleted && idFilter id r) with
    | some r => .ok r.toDb
    | none => .error (.aggregateNotFound id))

def MainAggregateRow.fill (uuid : String) (now : Nat) (r : MainAggregateRow) :
    MainAggregateRow :=
  { r with uuid := some uuid, updatedAt := some now }

/-- `aggregate_update` with a uuid. -/
def aggregateUpdate (ctxt : Context) (id : Nat) (uuid : String) : AggregateProg DbAggregate :=
  transaction .aggregateUpdate (fun input s => do
    let shown ← modelQuery ctxt none
    let ref := fun r : MainAggregateRow => shown r.deleted && idFilter id r
    match s.main.find? ref with
    | none => .error (.aggregateNotFound id)
    | some r =>
      let main := updateFirst ref (MainAggregateRow.fill uuid input.now) s.main
      match main.find? (fun t => shown t.deleted && idFilter r.id t) with
      | none => .error (.aggregateNotFound r.id)
      | some t => .ok (t.toDb, { s with main := main }))

/-- `soft_delete`, and that of the metadata of the aggregate. -/
def MainAggregateRow.softDelete (id now : Nat) (r : MainAggregateRow) : MainAggregateRow :=
  { r with
    deleted := r.id
    deletedAt := some now
    metadata := if r.id = id then [] else r.metadata }

/-- `aggregate_delete`. -/
def aggregateDelete (ctxt : Context) (id : Nat) : AggregateProg Unit :=
  transaction .aggregateDelete (fun input s => do
    let shown ← modelQuery ctxt none
    let hit := fun r : MainAggregateRow => shown r.deleted && idFilter id r
    if (s.main.filter hit).isEmpty then .error (.aggregateNotFound id)
    else
      let main := s.main.map (fun r => if hit r then r.softDelete id input.now else r)
      .ok ((), { s with main := main }))

/-! ## The object -/

/-- An `Aggregate` object. -/
structure Aggregate where
  id : Nat
  uuid : String
  name : String
  hosts : List String
  metadata : List (String × String)
  createdAt : Option Nat
  updatedAt : Option Nat
  deletedAt : Option Nat
  deleted : Bool
  deriving DecidableEq, Repr

/-- `metadetails`. -/
def AggregateRow.metadetails (r : AggregateRow) : List (String × String) :=
  Dict.update [] r.metadata

/-- The object of a row, under a uuid. Uuids are ASCII, as those that are generated: the field takes
them through `str`, which raises at another character. -/
def DbAggregate.toObject (f : DbAggregate) (uuid : String) : Aggregate where
  id := f.row.id
  uuid := uuid
  name := f.row.name
  hosts := f.row.hosts
  metadata := f.row.metadetails
  createdAt := f.row.createdAt
  updatedAt := f.row.updatedAt
  deletedAt := (f.deprecated.map Prod.snd).getD none
  deleted := (f.deprecated.map (fun p => p.1 != 0)).getD false

/-- `except exception.AggregateNotFound:` the main database is asked. -/
def exceptAggregateNotFound {α : Type} (fallback : AggregateProg α) :
    NovaError → AggregateProg α
  | .aggregateNotFound _ => fallback
  | e => throw e

/-- `generate_uuid`. -/
def generateUuid : AggregateProg String :=
  transaction .generateUuid (fun input s => .ok (input.uuid, s))

/-- `Aggregate.save` of an object whose uuid is new. The uuid it has stays if the database
gives none back. -/
def save (ctxt : Context) (id : Nat) (uuid : String) : AggregateProg Aggregate := do
  let dbAggregate ← tryCatch (aggregateUpdateToDb id uuid)
    (exceptAggregateNotFound (aggregateUpdate ctxt id uuid))
  if truthy dbAggregate.row.uuid then
    pure (dbAggregate.toObject (dbAggregate.row.uuid.getD uuid))
  else pure (dbAggregate.toObject uuid)

/-- `_from_db_object`: an aggregate without a uuid gets one, and is saved. -/
def DbAggregate.fromDbObject (ctxt : Context) (f : DbAggregate) : AggregateProg Aggregate :=
  if truthy f.row.uuid then pure (f.toObject (f.row.uuid.getD ""))
  else do
    let uuid ← generateUuid
    save ctxt f.row.id uuid

/-- `Aggregate.get_by_id`. -/
def getById (ctxt : Context) (id : Nat) : AggregateProg Aggregate := do
  let dbAggregate ← tryCatch (aggregateGetFromDb id)
    (exceptAggregateNotFound (aggregateGet ctxt id))
  dbAggregate.fromDbObject ctxt

/-! ## The migration -/

/-- The row an aggregate is created as, its hosts still missing. -/
def Aggregate.toRow (a : Aggregate) (now : Nat) : AggregateRow where
  id := a.id
  uuid := some a.uuid
  name := a.name
  hosts := []
  metadata := a.metadata
  createdAt := some (a.createdAt.getD now)
  updatedAt := a.updatedAt
  hosts_nodup := List.nodup_nil

/-- Add a row, if the key and the constraint allow it. The name is looked up first. -/
def ApiAggregates.insert (t : ApiAggregates) (r : AggregateRow) :
    Except NovaError ApiAggregates :=
  if hname : r.name ∈ t.rows.map AggregateRow.name then .error (.aggregateNameExists r.name)
  else if hid : r.id ∈ t.rows.map AggregateRow.id then .error (.dbDuplicateEntry ["id"])
  else .ok {
    rows := r :: t.rows
    uniqId := List.nodup_cons.mpr ⟨hid, t.uniqId⟩
    uniqName := List.nodup_cons.mpr ⟨hname, t.uniqName⟩ }

/-- `_aggregate_create_in_db`. -/
def aggregateCreateInDb (a : Aggregate) : AggregateProg Unit :=
  transaction .aggregateCreateInDb (fun input s => do
    let api ← s.api.insert (a.toRow input.now)
    .ok ((), { s with api := api }))

/-- `_get_main_db_aggregate_ids`. -/
def getMainDbAggregateIds (limit : Nat) : AggregateProg (List Nat) :=
  liveIds .getMainDbAggregateIds Databases.liveRows (fun r => r.id) limit

/-- The exceptions that are logged, and what is counted then. -/
def logged (countHit : Nat) : NovaError → AggregateProg Nat
  | .aggregateNotFound _ => pure countHit
  | .aggregateNameExists _ => pure countHit
  | e => throw e

/-- One round of `migrate_aggregates`. -/
def migrateAggregate (ctxt : Context) (countHit id : Nat) : AggregateProg Nat :=
  tryCatch (do
    let aggregate ← getById ctxt id
    aggregateCreateInDb aggregate
    aggregate.hosts.foldlM (fun _ host => hostAddToDb id host) ()
    -- counted from here on, also if the original cannot be deleted
    tryCatch (do
      aggregateDelete ctxt aggregate.id
      pure (countHit + 1)) (logged (countHit + 1)))
    (logged countHit)

/-- `migrate_aggregates`: how many aggregates were found, and how many were copied. -/
def migrateAggregates (ctxt : Context) (count : Nat) : AggregateProg (Nat × Nat) :=
  migrateBatch (getMainDbAggregateIds count) (migrateAggregate ctxt)

end PolarBear.Aggregates
