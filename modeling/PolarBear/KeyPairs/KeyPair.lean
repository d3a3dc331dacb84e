import Mathlib.Data.List.Nodup
import PolarBear.Lib.Table
import PolarBear.Db.Query

/-!
# Key pairs in two databases

A key pair lives in the API database or, until it is migrated, in the main one.
`KeyPair.get_by_name` asks the API database first. The migration copies the live
rows of the main database, a batch at a time, each in a transaction of its own,
and deletes each original in another one. A copy that exists already is the newer
key, so the `KeyPairExists` of the insert is swallowed and the original is
deleted all the same.

The unique constraint of the API table, `(user_id, name)`, is a field of
`ApiKeyPairs`. In the main database rows are deleted softly.
-/

namespace PolarBear.KeyPairs

open Transactions Db
open Transactions.Prog (transaction reading compute)

/-- The columns of a key pair; times are seconds. -/
structure KeyPairRow where
  id : Nat
  userId : String
  name : String
  fingerprint : Option String
  publicKey : Option String
  type : String
  createdAt : Option Nat
  updatedAt : Option Nat
  deriving DecidableEq, Repr

/-- The columns of the unique constraint. -/
def KeyPairRow.key (r : KeyPairRow) : String × String := (r.userId, r.name)

/-- A row of the main table. Ids count from one. -/
structure MainKeyPairRow extends KeyPairRow where
  deleted : Nat
  deletedAt : Option Nat
  id_pos : 0 < id
  deriving DecidableEq, Repr

def MainKeyPairRow.live (r : MainKeyPairRow) : Bool := r.deleted == 0

/-- The API table, with its unique constraint. -/
structure ApiKeyPairs where
  table : Table KeyPairRow KeyPairRow.id
  uniq : (table.rows.map KeyPairRow.key).Nodup

/-- Both databases; of the instances only the number without key pair data counts. -/
structure Databases where
  api : ApiKeyPairs
  main : List MainKeyPairRow
  unmigratedInstances : Nat

def Databases.liveRows (s : Databases) : List MainKeyPairRow := s.main.filter MainKeyPairRow.live

/-- The transactions. -/
inductive Tx where
  | getFromDb
  | createInDb
  | keyPairGet
  | keyPairDestroy
  | countUnmigratedInstances
  | getMainKeypairs
  deriving DecidableEq, Repr

/-- Programs on key pairs; the input of a transaction is the time. -/
abbrev KeyPairProg := Prog Nat Tx Databases NovaError

/-! ## The object -/

/-- A `KeyPair` object. -/
structure KeyPair where
  id : Nat
  userId : String
  name : String
  fingerprint : Option String
  publicKey : Option String
  type : String
  createdAt : Option Nat
  updatedAt : Option Nat
  deleted : Bool
  deletedAt : Option Nat
  deriving DecidableEq, Repr

/-- `_from_db_object`, with the defaults of the fields an API row lacks. -/
def KeyPairRow.fromDbObject (r : KeyPairRow) (deleted : Bool) (deletedAt : Option Nat) : KeyPair :=
  ⟨r.id, r.userId, r.name, r.fingerprint, r.publicKey, r.type, r.createdAt, r.updatedAt,
    deleted, deletedAt⟩

/-- What makes the key: fingerprint, public key and type. -/
structure Content where
  fingerprint : Option String
  publicKey : Option String
  type : String
  deriving DecidableEq, Repr

def KeyPair.content (kp : KeyPair) : Content := ⟨kp.fingerprint, kp.publicKey, kp.type⟩

def KeyPairRow.content (r : KeyPairRow) : Content := ⟨r.fingerprint, r.publicKey, r.type⟩

/-! ## The API database -/

/-- The row of a key. -/
def ApiKeyPairs.find (t : ApiKeyPairs) (userId name : String) : Option KeyPairRow :=
  t.table.rows.find? (fun r => r.key == (userId, name))

/-- `_get_from_db` with a name. -/
def getFromDb (userId name : String) : KeyPairProg KeyPairRow :=
  reading .getFromDb (fun s => match s.api.find userId name with
    | some r => .ok r
    | none => .error (.keypairNotFound userId name))

/-- The values `migrate_keypairs_to_api_db` creates a key pair from, as a row. -/
def copyRow (r : MainKeyPairRow) (now id : Nat) : KeyPairRow :=
  ⟨id, r.userId, r.name, r.fingerprint, r.publicKey, r.type, some now, none⟩

/-- Insert a row with the next id, if the constraint allows it. -/
def ApiKeyPairs.insert? (t : ApiKeyPairs) (row : Nat → KeyPairRow)
    (hkey : ∀ id, (row id).id = id) : Option ApiKeyPairs :=
  if h : (row t.table.next).key ∈ t.table.rows.map KeyPairRow.key then none
  else some {
    table := t.table.insert row hkey
    uniq := by
      show ((t.table.rows ++ [row t.table.next]).map KeyPairRow.key).Nodup
      rw [List.map_append, List.map_singleton]
      exact List.nodup_append.mpr ⟨t.uniq, List.nodup_singleton _, fun a ha b hb => by
        rw [List.mem_singleton.mp hb]
        exact fun he => h (he ▸ ha)⟩ }

/-- `_create_in_db`. -/
def createInDb (r : MainKeyPairRow) : KeyPairProg Unit :=
  transaction .createInDb (fun now s =>
    match s.api.insert? (copyRow r now) (fun _ => rfl) with
    | some api => .ok ((), { s with api := api })
    | none => .error (.keyPairExists r.name))

/-! ## The main database -/

/-- `key_pair_get`. -/
def keyPairGet (ctxt : Context) (userId name : String) : KeyPairProg MainKeyPairRow := do
  compute (requireContext ctxt)
  reading .keyPairGet (fun s => do
    let shown ← modelQuery ctxt none
    match s.main.find? (fun r => shown r.deleted && r.key == (userId, name)) with
    | some r => .ok r
    | none => .error (.keypairNotFound userId name))

/-- `soft_delete`. -/
def MainKeyPairRow.softDelete (now : Nat) (r : MainKeyPairRow) : MainKeyPairRow :=
  { r with deleted := r.id, deletedAt := some now }

/-- `key_pair_destroy`. -/
def keyPairDestroy (ctxt : Context) (userId name : String) : KeyPairProg Unit := do
  compute (requireContext ctxt)
  transaction .keyPairDestroy (fun now s => do
    let shown ← modelQuery ctxt none
    let hit := fun r : MainKeyPairRow => shown r.deleted && r.key == (userId, name)
    if (s.main.filter hit).isEmpty then .error (.keypairNotFound userId name)
    else .ok ((), { s with main := s.main.map (fun r => if hit r then r.softDelete now else r) }))

/-! ## Reading a key, and the migration -/

/-- `except exception.KeypairNotFound: pass`, which leaves `db_keypair` at `None`. -/
def passNotFound : NovaError → KeyPairProg (Option KeyPairRow)
  | .keypairNotFound _ _ => pure none
  | e => throw e

/-- `KeyPair.get_by_name`. -/
def getByName (ctxt : Context) (userId name : String) (localonly : Bool) :
    KeyPairProg KeyPair := do
  let dbKeypair : Option KeyPairRow ←
    if localonly then pure none
    else tryCatch (getFromDb userId name >>= fun r => pure (some r)) passNotFound
  match dbKeypair with
  | some r => pure (r.fromDbObject false none)
  | none =>
    let r ← keyPairGet ctxt userId name
    pure (r.toKeyPairRow.fromDbObject (r.deleted != 0) r.deletedAt)

/-- `_count_unmigrated_instances`. -/
def countUnmigratedInstances : KeyPairProg Nat :=
  reading .countUnmigratedInstances (fun s => .ok s.unmigratedInstances)

/-- `_get_main_keypairs`. -/
def getMainKeypairs (limit : Nat) : KeyPairProg (List MainKeyPairRow) :=
  reading .getMainKeypairs (fun s => .ok (s.liveRows.take limit))

/-- `except exception.KeyPairExists: pass`: the key got created in the API database
somehow, and is newer there. -/
def passExists : NovaError → KeyPairProg Unit
  | .keyPairExists _ => pure ()
  | e => throw e

/-- One round of `migrate_keypairs_to_api_db`, which counts what is done. -/
def migrateKeypair (ctxt : Context) (done : Nat) (r : MainKeyPairRow) : KeyPairProg Nat := do
  tryCatch (createInDb r) passExists
  keyPairDestroy ctxt r.userId r.name
  pure (done + 1)

/-- `migrate_keypairs_to_api_db`: how many key pairs were found, and how many are done. -/
def migrateKeypairsToApiDb (ctxt : Context) (count : Nat) : KeyPairProg (Nat × Nat) := do
  let badInstances ← countUnmigratedInstances
  if badInstances ≠ 0 then pure (0, 0)
  else
    let mainKeypairs ← getMainKeypairs count
    let done ← mainKeypairs.foldlM (migrateKeypair ctxt) 0
    pure (mainKeypairs.length, done)

end PolarBear.KeyPairs
