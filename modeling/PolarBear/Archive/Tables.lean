import Mathlib.Data.List.ReduceOption
import Mathlib.Logic.Function.Basic
import PolarBear.Lib.Dict
import PolarBear.Lib.Extract
import PolarBear.Lib.Fallible

/-!
# `archive_deleted_rows`

Soft-deleted rows are moved into shadow tables, and so are the rows of soft-deleted
instances. A table has its shadow attached. Its rows are what the function looks at,
and the other columns as they are: copying a row copies it whole, for a shadow table
has the columns of its table.

Which rows the foreign keys hold back is a parameter: a `DELETE` of some rows of a
table is refused or not. A refusal is an exception and undoes the transaction.
-/

namespace PolarBear.Archive

open PolarBear.Extract

/-- A key: `domain` in `dns_domains`, `id` everywhere else. -/
inductive Key where
  | id (n : Nat)
  | domain (name : String)
  deriving DecidableEq, Repr

/-- The order of keys. -/
def Key.le : Key → Key → Bool
  | .id m, .id n => m ≤ n
  | .id _, .domain _ => true
  | .domain _, .id _ => false
  | .domain s, .domain t => s ≤ t

/-- The `id` column. -/
def Key.toId : Key → Option Nat
  | .id n => some n
  | .domain _ => none

/-- A row. A column that its table does not have is `none`. -/
structure Row (δ : Type) where
  key : Key
  uuid : Option String
  instanceUuid : Option String
  actionId : Option Nat
  deleted : Option Nat
  updatedAt : Option Nat
  others : δ
  deriving DecidableEq, Repr

variable {δ : Type}

/-- A table that is declared in the models, and its shadow table if there is one. -/
structure Table (δ : Type) where
  columns : List String
  rows : List (Row δ)
  shadow : Option (List (Row δ))
  uniqKey : (rows.map Row.key).Nodup

/-- The tables. `sortedTables` are the names that are reflected, tables before those that refer
to them. -/
structure Database (δ : Type) where
  sortedTables : List String
  nodup : sortedTables.Nodup
  table : String → Option (Table δ)

/-- The `DELETE` of some rows is refused. -/
abbrev ForeignKeys (δ : Type) := Database δ → String → List (Row δ) → Bool

inductive ArchiveError where
  | keyError (table : String)
  | attributeError (name : String)
  deriving DecidableEq, Repr

/-- The database, and the tables for which a refusal was logged. -/
structure State (δ : Type) where
  db : Database δ
  warned : List String

abbrev ArchiveM (δ : Type) := EStateM ArchiveError (State δ)

/-- `deleted != 0`, which is not true of `NULL`. -/
def softDeleted (r : Row δ) : Bool :=
  match r.deleted with
  | some d => d != 0
  | none => false

/-- `deleted` is set to the id; an update also sets `updated_at`. -/
def Row.softDelete (now : Nat) (r : Row δ) : Row δ :=
  { r with deleted := r.key.toId, updatedAt := some now }

theorem uniqKey_map {rows : List (Row δ)} (h : (rows.map Row.key).Nodup) {f : Row δ → Row δ}
    (hf : ∀ r, (f r).key = r.key) : ((rows.map f).map Row.key).Nodup := by
  have hsame : (rows.map f).map Row.key = rows.map Row.key := by
    rw [List.map_map]
    exact List.map_congr_left (fun r _ => hf r)
  exact hsame ▸ h

/-- A row is soft-deleted if it satisfies a condition. -/
def softDeleteIf (now : Nat) (p : Row δ → Bool) (r : Row δ) : Row δ :=
  if p r then r.softDelete now else r

theorem softDeleteIf_key (now : Nat) (p : Row δ → Bool) (r : Row δ) :
    (softDeleteIf now p r).key = r.key := by
  unfold softDeleteIf
  split <;> rfl

/-- `UPDATE ... SET deleted = id WHERE p`. -/
def Table.softDelete (t : Table δ) (now : Nat) (p : Row δ → Bool) : Table δ :=
  { t with
    rows := t.rows.map (softDeleteIf now p)
    uniqKey := uniqKey_map t.uniqKey (softDeleteIf_key now p) }

/-- The insert into the shadow table and the delete. -/
def Table.move (t : Table δ) (moved : List (Row δ)) : Table δ where
  columns := t.columns
  rows := without Row.key moved t.rows
  shadow := t.shadow.map (fun shadow => shadow ++ moved)
  uniqKey := t.uniqKey.sublist ((without_sublist Row.key moved t.rows).map _)

/-- The uuids of the instances that are soft-deleted. -/
def deletedUuids (instances : Table δ) : List String :=
  (instances.rows.filter softDeleted).filterMap Row.uuid

/-- `instance_uuid IN ...`. -/
def ofInstances (uuids : List String) (r : Row δ) : Bool :=
  match r.instanceUuid with
  | some uuid => uuid ∈ uuids
  | none => false

/-- `action_id IN ...`. -/
def ofActions (ids : List Key) (r : Row δ) : Bool :=
  match r.actionId with
  | some id => Key.id id ∈ ids
  | none => false

/-- The ids of the actions of these instances. -/
def actionIds (uuids : List String) (instanceActions : Table δ) : List Key :=
  (instanceActions.rows.filter (ofInstances uuids)).map Row.key

/-! ## Statements on the database -/

/-- `models.BASE.metadata.tables[name]`, and what the table holds. -/
def find (name : String) : ArchiveM δ (Table δ) := fun s =>
  match s.db.table name with
  | some t => .ok t s
  | none => .error (.keyError name) s

/-- A table is given new contents. -/
def Database.put (db : Database δ) (name : String) (t : Table δ) : Database δ :=
  { db with table := Function.update db.table name (some t) }

def replace (name : String) (t : Table δ) : ArchiveM δ Unit :=
  modify (fun s => { s with db := s.db.put name t })

/-- `LOG.warning`. -/
def warn (name : String) : ArchiveM δ Unit :=
  modify (fun s => { s with warned := name :: s.warned })

/-- Insert and delete in one transaction. The row count, or `none` for a `DBReferenceError`. -/
def moveRows (refuses : ForeignKeys δ) (name : String) (p : Row δ → Bool) (limit : Nat) :
    ArchiveM δ (Option Nat) := do
  let t ← find name
  let moved := firsts (fun r r' => r.key.le r'.key) p limit t.rows
  if refuses (← get).db name moved then pure none
  else
    replace name (t.move moved)
    pure (some (matching Row.key moved t.rows).length)

/-! ## The functions -/

/-- `_archive_if_instance_deleted`. The handler of a refusal asks the table for its
`__tablename__`, which a `Table` does not have. -/
def archiveIfInstanceDeleted (refuses : ForeignKeys δ) (tablename : String) (maxRows : Nat) :
    ArchiveM δ Nat := do
  let uuids := deletedUuids (← find "instances")
  -- the rows are taken by `table.c.id`
  if tablename = "dns_domains" then throw (.attributeError "id")
  else
    match ← moveRows refuses tablename (ofInstances uuids) maxRows with
    | some rowcount => pure rowcount
    | none => throw (.attributeError "__tablename__")

/-- The step that moves soft-deleted rows; where it is refused, the table is skipped for now. -/
def archiveSoftDeleted (refuses : ForeignKeys δ) (tablename : String) (maxRows : Nat) :
    ArchiveM δ Nat := do
  match ← moveRows refuses tablename softDeleted maxRows with
  | some rowcount => pure rowcount
  | none =>
    warn tablename
    pure 0

/-- Rows that go with their instances are soft-deleted first. -/
def softDeleteOfInstances (now : Nat) (tablename : String) : ArchiveM δ Unit := do
  if tablename = "instance_actions" ∨ tablename = "migrations" then
    let uuids := deletedUuids (← find "instances")
    let t ← find tablename
    replace tablename (t.softDelete now (ofInstances uuids))
  else if tablename = "instance_actions_events" then
    -- events refer to an action and not to an instance
    let uuids := deletedUuids (← find "instances")
    let ids := actionIds uuids (← find "instance_actions")
    let t ← find tablename
    replace tablename (t.softDelete now (ofActions ids))

/-- `_archive_deleted_rows_for_table`. -/
def archiveDeletedRowsForTable (refuses : ForeignKeys δ) (now : Nat) (tablename : String)
    (maxRows : Nat) : ArchiveM δ Nat := do
  let t ← find tablename
  if t.shadow.isNone then pure 0
  else
    softDeleteOfInstances now tablename
    let rowsArchived ← archiveSoftDeleted refuses tablename maxRows
    -- rows that were left behind when their instance was deleted
    if rowsArchived < maxRows ∧ "instance_uuid" ∈ t.columns then
      let extra ← archiveIfInstanceDeleted refuses tablename (maxRows - rowsArchived)
      pure (rowsArchived + extra)
    else pure rowsArchived

/-- Tables that are not archived. -/
def skipped (tablename : String) : Bool :=
  tablename == "migrate_version" || "shadow_".toList.isPrefixOf tablename.toList

/-- The loop of `archive_deleted_rows`. -/
def archiveTables (refuses : ForeignKeys δ) (now maxRows : Nat) :
    List String → List (String × Nat) → Nat → ArchiveM δ (List (String × Nat))
  | [], tableToRowsArchived, _ => pure tableToRowsArchived
  | tablename :: names, tableToRowsArchived, total =>
    if skipped tablename then archiveTables refuses now maxRows names tableToRowsArchived total
    else do
      let rowsArchived ← archiveDeletedRowsForTable refuses now tablename (maxRows - total)
      let tableToRowsArchived :=
        if rowsArchived = 0 then tableToRowsArchived
        else Dict.set tablename rowsArchived tableToRowsArchived
      -- the budget is that of the whole call
      if total + rowsArchived ≥ maxRows then pure tableToRowsArchived
      else archiveTables refuses now maxRows names tableToRowsArchived (total + rowsArchived)

/-- `archive_deleted_rows`: what refers to a table comes before it. -/
def archiveDeletedRows (refuses : ForeignKeys δ) (now maxRows : Nat) :
    ArchiveM δ (List (String × Nat)) := do
  archiveTables refuses now maxRows (← get).db.sortedTables.reverse [] 0

end PolarBear.Archive
